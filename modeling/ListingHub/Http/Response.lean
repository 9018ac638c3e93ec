import ListingHub.Failure
import ListingHub.Json.Writer
import ListingHub.Log

/-!
# HTTP responses

A status, headers with lower-case names, and a body. A failure is answered with its status and a
JSON body; a server error is logged once when its answer is made.
-/

namespace ListingHub.Http

/-- An HTTP response. -/
structure Response where
  status : Nat
  headers : List (String × String)
  body : String
  deriving DecidableEq, Repr

namespace Response

/-- A response without a body. -/
def empty (status : Nat) : Response := ⟨status, [], ""⟩

/-- A response with a JSON body. -/
def json (status : Nat) (body : Json) : Response :=
  ⟨status, [("content-type", "application/json")], body.text⟩

/-- A response with plain text. -/
def plain (status : Nat) (body : String) : Response :=
  ⟨status, [("content-type", "text/plain; charset=utf-8")], body⟩

/-- The answer to a failure. -/
def ofFailure (failure : Failure) : Response :=
  json failure.status failure.body

end Response

/-- What making the answer to a failure writes to the log. -/
def failureLog (failure : Failure) : List LogEvent :=
  if failure.isServerError then [.requestFailed failure] else []

end ListingHub.Http
