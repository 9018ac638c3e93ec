import ListingHub.Store
import ListingHub.Text.Percent

/-!
# HTTP requests and sessions

A request carries a session token in the cookie `session` or, if there is no such cookie, in the
header `x-session-token`. The token is resolved to the identity that the session was issued for.
-/

namespace ListingHub.Http

/-- An HTTP request. Header names are lower-case; a name may come more than once. -/
structure Request where
  method : String
  /-- The path and, after a question mark, the query. A scheme and an authority may come before. -/
  target : String
  headers : List (String × List UInt8)
  deriving DecidableEq, Repr

/-- The value of a header as text, which has visible ASCII characters, blanks and tabs alone. -/
def headerText? (value : List UInt8) : Option String :=
  if value.all fun b => (0x20 ≤ b && b < 0x7F) || b == 0x09 then
    some (String.ofList (value.map fun b => Char.ofNat b.toNat))
  else none

/-- Text without the blanks and tabs around it. -/
def trim (text : List Char) : List Char :=
  let blank c := c == ' ' || c == '\t'
  ((text.dropWhile blank).reverse.dropWhile blank).reverse

/-- Percent-encoded text, if what it stands for is UTF-8. -/
def decodeText? (text : List Char) : Option String :=
  Utf8.toText? (Text.percentDecode (Utf8.ofText (String.ofList text)))

/-- The name and the value of a cookie. -/
def cookie? (pair : List Char) : Option (String × String) :=
  match pair.dropWhile (· != '=') with
  | [] => none
  | _ :: value =>
      let name := trim (pair.takeWhile (· != '='))
      if name = [] then none
      else do return (← decodeText? name, ← decodeText? (trim value))

/-- A character that ends an authority. -/
def endsAuthority (c : Char) : Bool :=
  c == '/' || c == '?' || c == '#'

/-- What follows the scheme and the authority of a target, if it has them. -/
def withoutOrigin (target : List Char) : List Char :=
  match target.dropWhile fun c => c.isAlphanum || c == '+' || c == '-' || c == '.' with
  | ':' :: '/' :: '/' :: rest => rest.dropWhile fun c => !endsAuthority c
  | _ => target

namespace Request

/-- The path of a request. -/
def path (request : Request) : String :=
  String.ofList ((withoutOrigin request.target.toList).takeWhile fun c => c != '?' && c != '#')

/-- The values of a header. -/
def values (request : Request) (name : String) : List (List UInt8) :=
  (request.headers.filter fun header => header.1 == name).map (·.2)

/-- The first value of a header. -/
def header? (request : Request) (name : String) : Option (List UInt8) :=
  (request.values name).head?

/-- The cookies of a request in their order. -/
def cookies (request : Request) : List (String × String) :=
  ((request.values "cookie").filterMap headerText?).flatMap fun text =>
    (text.toList.splitOnP (· == ';')).filterMap cookie?

/-- The value of the last cookie of a name. -/
def cookie? (request : Request) (name : String) : Option String :=
  request.cookies.reverse.lookup name

/-- The token in the session header: its first value, trimmed, if it is text and not blank. -/
def headerToken? (request : Request) : Option String :=
  ((request.header? "x-session-token").bind headerText?).bind fun text =>
    let token := trim text.toList
    if token = [] then none else some (String.ofList token)

/-- The session token: the session cookie, even an empty one, before the session header. -/
def sessionToken? (request : Request) : Option String :=
  request.cookie? "session" <|> request.headerToken?

end Request

/-- The identity behind a request. -/
def authenticate (faults : Faults) (store : Store) (request : Request) :
    Except Failure Identity :=
  match request.sessionToken? with
  | none => .error .unauthorized
  | some token =>
      match faults.resolve store token with
      | .error failure => .error failure
      | .ok none => .error .unauthorized
      | .ok (some identity) => .ok identity

end ListingHub.Http
