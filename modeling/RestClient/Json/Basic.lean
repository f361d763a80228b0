import RestClient.Binary64

/-!
# JSON values

A JSON value as a tree.  Numbers are whole numbers of 64 bits, signed or not, or binary floating
point.  An object keeps its members in the order in which it is written; objects that were read as
plain values hold each key once, in the order of the keys.
-/

namespace RestClient

namespace Json

inductive Number where
  | integer (n : Int)
  | float (x : Binary64)
deriving DecidableEq

end Json

inductive Json where
  | null
  | bool (b : Bool)
  | number (n : Json.Number)
  | string (text : String)
  | array (items : List Json)
  | object (members : List (String × Json))

namespace Json

def ofNat (n : Nat) : Json := .number (.integer n)

/-- Puts a member in the place of its key, in the order of the keys. -/
def insertMember (key : String) (value : Json) :
    List (String × Json) -> List (String × Json)
  | [] => [(key, value)]
  | (k, v) :: rest =>
    if key < k then (key, value) :: (k, v) :: rest
    else if key = k then (key, value) :: rest
    else (k, v) :: insertMember key value rest

/-- The object with the given members, each key once and in order; of equal keys the last counts. -/
def ofMembers (members : List (String × Json)) : Json :=
  .object (members.foldl (fun sorted m => insertMember m.1 m.2 sorted) [])

def member? (key : String) : Json -> Option Json
  | .object members => (members.find? fun m => m.1 == key).map (·.2)
  | _ => none

class Encode (α : Type) where
  encode : α -> Json

export Encode (encode)

instance : Encode Json := ⟨id⟩
instance : Encode Bool := ⟨.bool⟩
instance : Encode String := ⟨.string⟩
instance : Encode Nat := ⟨.ofNat⟩
instance : Encode UInt32 := ⟨fun n => .ofNat n.toNat⟩
instance : Encode UInt64 := ⟨fun n => .ofNat n.toNat⟩
instance {α : Type} [Encode α] : Encode (List α) := ⟨fun items => .array (items.map encode)⟩

instance {α : Type} [Encode α] : Encode (Option α) := ⟨fun value => value.elim .null encode⟩

def optionalMember {α : Type} [Encode α] (key : String) (value : Option α) :
    List (String × Json) :=
  value.elim [] fun a => [(key, encode a)]

end Json
end RestClient
