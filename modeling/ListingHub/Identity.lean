import ListingHub.Ids

/-!
# Identities

The account behind a session or a connection, and its role.
-/

namespace ListingHub

/-- What an account may be. -/
inductive Role where
  | user
  | agent
  | admin
  deriving DecidableEq, Repr

namespace Role

/-- Every role. -/
def all : List Role := [.user, .agent, .admin]

/-- The name of a role in text, in JSON and in storage. -/
def name : Role → String
  | .user => "user"
  | .agent => "agent"
  | .admin => "admin"

/-- The role of a name. -/
def ofName? (name : String) : Option Role :=
  all.find? fun role => role.name == name

/-- Reads a role. -/
def read : Json.Reader Role :=
  Json.readVariant (all.map fun role => (role.name, role))

/-- The message about a name that no role has. -/
def unknownMessage (name : String) : String :=
  "unknown role: " ++ name

end Role

/-- An account and its role. -/
structure Identity where
  userId : UserId
  role : Role
  deriving DecidableEq, Repr

namespace Identity

/-- An identity as a JSON record. -/
def toJson (identity : Identity) : Json :=
  .obj [("user_id", identity.userId.toJson), ("role", .str identity.role.name)]

/-- An identity in JSON: the user and the role. -/
def record : Json.Record Json.Reader Identity where
  name := "Identity"
  fields := [⟨"user_id", UserId, UserId.read, none⟩, ⟨"role", Role, Role.read, none⟩]
  build := fun (userId, role, _) => ⟨userId, role⟩

end Identity

end ListingHub
