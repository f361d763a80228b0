import RestClient.Resource

/-!
# Users

The users of an account, who are addressed by their names.
-/

namespace RestClient

structure User where
  username : String
  email : String
  restricted : Bool
  sshKeys : List String
  tfaEnabled : Bool
  verifiedPhoneNumber : Option String
  passwordCreated : Option String
  userType : Option String
deriving DecidableEq

namespace User

/-- Only name, address and restriction have to be given. -/
def record :
    Json.Record
      [String, String, Bool, List String, Bool, Option String, Option String, Option String]
      User where
  name := "User"
  fields :=
    .cons "username" Json.decoder none <|
    .cons "email" Json.decoder none <|
    .cons "restricted" Json.decoder none <|
    .cons "ssh_keys" Json.decoder (some []) <|
    .cons "tfa_enabled" Json.decoder (some false) <|
    .cons "verified_phone_number" Json.decoder (some none) <|
    .cons "password_created" Json.decoder (some none) <|
    .cons "user_type" Json.decoder (some none) .nil
  build := fun (username, email, restricted, sshKeys, tfaEnabled, verifiedPhoneNumber,
      passwordCreated, userType, _) =>
    { username, email, restricted, sshKeys, tfaEnabled, verifiedPhoneNumber, passwordCreated,
      userType }

instance : Json.Decode User := ⟨record.decoder⟩

instance : Json.Encode User :=
  ⟨fun u => .object
    [("username", .string u.username), ("email", .string u.email),
      ("restricted", .bool u.restricted), ("ssh_keys", Json.encode u.sshKeys),
      ("tfa_enabled", .bool u.tfaEnabled),
      ("verified_phone_number", Json.encode u.verifiedPhoneNumber),
      ("password_created", Json.encode u.passwordCreated),
      ("user_type", Json.encode u.userType)]⟩

end User

structure UserCreateOptions where
  username : String
  email : String
  restricted : Bool
deriving DecidableEq

namespace UserCreateOptions

def default : UserCreateOptions := ⟨"", "", false⟩

instance : Json.Encode UserCreateOptions :=
  ⟨fun o => .object
    [("username", .string o.username), ("email", .string o.email),
      ("restricted", .bool o.restricted)]⟩

end UserCreateOptions

/-- What is to change about a user; what is not given stays as it is. -/
structure UserUpdateOptions where
  username : Option String
  email : Option String
  restricted : Option Bool
deriving DecidableEq

namespace UserUpdateOptions

def default : UserUpdateOptions := ⟨none, none, none⟩

/-- Only what is given is written. -/
instance : Json.Encode UserUpdateOptions :=
  ⟨fun o => .object
    (Json.optionalMember "username" o.username ++ Json.optionalMember "email" o.email ++
      Json.optionalMember "restricted" o.restricted)⟩

end UserUpdateOptions

def User.updateOptions (u : User) : UserUpdateOptions :=
  ⟨some u.username, some u.email, some u.restricted⟩

def users : Resource UserCreateOptions UserUpdateOptions where
  name := "user"
  collectionPath := "account/users"
  itemPath := "account/users/\x7bid\x7d"
  createBody := fun options => .ok (Json.encode options)
  updateBody := fun options => .ok (Json.encode options)

end RestClient
