import RestClient.Json.Decoder

/-!
# Decoding records

A record is read from an object by the names of its fields, in any order, or from a list by their
positions.  A field may have a value to fall back on when it is absent.  Members of an object that
the record does not declare are skipped; a declared member may stand only once.
-/

namespace RestClient
namespace Json

open Reader

inductive Fields : List Type -> Type 1 where
  | nil : Fields []
  | cons {α : Type} {types : List Type} (name : String) (decoder : Decoder α)
      (fallback : Option α) (rest : Fields types) : Fields (α :: types)

def Values : List Type -> Type
  | [] => Unit
  | α :: types => α × Values types

/-- The values that have been read so far. -/
def Slots : List Type -> Type
  | [] => Unit
  | α :: types => Option α × Slots types

namespace Fields

def empty : {types : List Type} -> Fields types -> Slots types
  | _, .nil => ()
  | _, .cons _ _ _ rest => (none, rest.empty)

def count : {types : List Type} -> Fields types -> Nat
  | _, .nil => 0
  | _, .cons _ _ _ rest => rest.count + 1

/-- The values of all fields, or the name of the first one that has neither a value nor a
fallback. -/
def fill : {types : List Type} -> Fields types -> Slots types -> Except String (Values types)
  | _, .nil, _ => .ok ()
  | _, .cons name _ fallback rest, (slot, slots) =>
    match slot <|> fallback with
    | none => .error name
    | some a =>
      match rest.fill slots with
      | .error missing => .error missing
      | .ok values => .ok (a, values)

end Fields

/-- What a member of an object is to the record. -/
inductive Entry (σ : Type) where
  | undeclared
  /-- The field has its value already. -/
  | repeated
  /-- The field takes its value from the decoder. -/
  | field (decoder : Decoder σ)

namespace Entry

def map {σ τ : Type} (f : σ -> τ) : Entry σ -> Entry τ
  | .undeclared => .undeclared
  | .repeated => .repeated
  | .field decoder => .field fun allowance s => mapRead f (decoder allowance s)

end Entry

namespace Fields

def entry : {types : List Type} -> Fields types -> Slots types -> String -> Entry (Slots types)
  | _, .nil, _, _ => .undeclared
  | _, .cons name decoder _ rest, (slot, slots), key =>
    if key = name then
      match slot with
      | some _ => .repeated
      | none => .field fun allowance s => mapRead (fun a => (some a, slots)) (decoder allowance s)
    else (rest.entry slots key).map fun slots => (slot, slots)

/-- Reads members up to the closing bracket, which is left unread, or up to a repeated key. -/
def ofObject {types : List Type} (fields : Fields types) (allowance : Nat) :
    Nat -> Bool -> Slots types -> Reader (Except Fault (Slots types))
  | fuel, first, slots, s =>
    match nextKey first s with
    | .error f => .error f
    | .ok (none, r) => .ok (.ok slots, r)
    | .ok (some key, r) =>
      match fuel with
      | 0 => failAt .expectedValue r
      | fuel + 1 =>
        match fields.entry slots key with
        | .repeated => .ok (.error (.duplicateField key), r)
        | .undeclared =>
          match colon r with
          | .error f => .error f
          | .ok r =>
            match skip r with
            | .error f => .error f
            | .ok (_, r) => fields.ofObject allowance fuel false slots r
        | .field decoder =>
          match colon r with
          | .error f => .error f
          | .ok r =>
            match decoder allowance r with
            | .error f => .error f
            | .ok (slots, r) => fields.ofObject allowance fuel false slots r

/-- Reads one item for each field, from the field at `index` on.  If the list ends too early, the
number of the field that has no value is returned. -/
def ofList (allowance : Nat) : {types : List Type} -> Fields types -> Nat -> Bool ->
    Reader (Except Nat (Values types))
  | _, .nil, _, _, s => .ok (.ok (), s)
  | _, .cons _ decoder fallback rest, index, first, s =>
    match nextItem first s with
    | .error f => .error f
    | .ok (true, r) =>
      match decoder allowance r with
      | .error f => .error f
      | .ok (a, r) =>
        mapRead (fun values => values.map (a, ·)) (ofList allowance rest (index + 1) false r)
    | .ok (false, r) =>
      match fallback with
      | none => .ok (.error index, r)
      | some a =>
        mapRead (fun values => values.map (a, ·)) (ofList allowance rest (index + 1) first r)

end Fields

structure Record (types : List Type) (α : Type) where
  name : String
  fields : Fields types
  build : Values types -> α

namespace Record

variable {types : List Type} {α : Type}

def wanted (record : Record types α) : String := "struct " ++ record.name

def wantedElements (record : Record types α) : String :=
  record.wanted ++ " with " ++ toString record.fields.count ++
    (if record.fields.count == 1 then " element" else " elements")

/-- Fails behind the closing bracket if that stands next, else in front of what does. -/
def failClosed {β : Type} (fault : Fault) (close : UInt8) (s : List UInt8) : Except Failure β :=
  match skipSpace s with
  | [] => failAt fault []
  | b :: r => if b == close then failAt fault r else failAt fault (b :: r)

def ofObject (record : Record types α) (allowance : Nat) : Reader α := fun s =>
  match record.fields.ofObject allowance s.length true record.fields.empty s with
  | .error f => .error f
  | .ok (.error fault, r) => failClosed fault (byte '\x7d') r
  | .ok (.ok slots, r) =>
    match record.fields.fill slots with
    | .error missing => failClosed (.missingField missing) (byte '\x7d') r
    | .ok values => .ok (record.build values, r.tail)

def ofList (record : Record types α) (allowance : Nat) : Reader α := fun s =>
  match record.fields.ofList allowance 0 true s with
  | .error f => .error f
  | .ok (.error length, r) =>
    failClosed (.wrongLength length record.wantedElements) (byte ']') r
  | .ok (.ok values, r) =>
    match closeList r with
    | .error f => .error f
    | .ok r => .ok (record.build values, r)

def decoder (record : Record types α) : Decoder α := fun allowance s =>
  match token s with
  | .error f => .error f
  | .ok (.list, r) => opening allowance record.ofList r
  | .ok (.object, r) => opening allowance record.ofObject r
  | .ok (found, r) => failAt (.wrongType found record.wanted) r

end Record

end Json
end RestClient
