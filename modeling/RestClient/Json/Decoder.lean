import RestClient.Json.Skip

/-!
# Decoding

Reading JSON text as a value of a given type.  A decoder is told how many brackets may still be
opened; the brackets of a skipped value do not count.
-/

namespace RestClient
namespace Json

open Reader

/-- Reads a value inside which the given number of brackets may still be opened. -/
abbrev Decoder (α : Type) := Nat -> Reader α

class Decode (α : Type) where
  decoder : Decoder α

export Decode (decoder)

/-!
## Lists and objects
-/

namespace Reader

/-- Moves to the next item of a list, or to its closing bracket, and says whether there is an
item. -/
def nextItem (first : Bool) : Reader Bool := fun s =>
  match skipSpace s with
  | [] => failPast .endInList []
  | b :: r =>
    if b == byte ']' then .ok (false, b :: r)
    else if first then .ok (true, b :: r)
    else if b == byte ',' then
      match skipSpace r with
      | [] => failPast .endInValue []
      | c :: r => if c == byte ']' then failPast .trailingComma (c :: r) else .ok (true, c :: r)
    else failPast .expectedCommaInList (b :: r)

def nextKey (first : Bool) : Reader (Option String) := fun s =>
  match skipSpace s with
  | [] => failPast .endInObject []
  | b :: r =>
    if b == byte '\x7d' then .ok (none, b :: r)
    else if first then
      if b == byte '"' then mapRead some (stringBody r) else failPast .keyNotString (b :: r)
    else if b == byte ',' then
      match skipSpace r with
      | [] => failPast .endInValue []
      | c :: r =>
        if c == byte '"' then mapRead some (stringBody r)
        else if c == byte '\x7d' then failPast .trailingComma (c :: r)
        else failPast .keyNotString (c :: r)
    else failPast .expectedCommaInObject (b :: r)

def colon (s : List UInt8) : Except Failure (List UInt8) :=
  match skipSpace s with
  | [] => failPast .endInObject []
  | b :: r => if b == byte ':' then .ok r else failPast .expectedColon (b :: r)

def closeList (s : List UInt8) : Except Failure (List UInt8) :=
  match skipSpace s with
  | [] => failPast .endInList []
  | b :: r =>
    if b == byte ']' then .ok r
    else if b == byte ',' then
      match skipSpace r with
      | [] => failPast .trailingCharacters []
      | c :: r =>
        if c == byte ']' then failPast .trailingComma (c :: r)
        else failPast .trailingCharacters (c :: r)
    else failPast .trailingCharacters (b :: r)

/-- Reads the remaining items of a list and its closing bracket.  Every item has at least one
byte, so that the fuel may be the number of bytes. -/
def items {α : Type} (item : Reader α) : Nat -> Bool -> Reader (List α)
  | fuel, first, s =>
    match nextItem first s with
    | .error f => .error f
    | .ok (false, r) => .ok ([], r.tail)
    | .ok (true, r) =>
      match fuel with
      | 0 => failAt .expectedValue r
      | fuel + 1 =>
        match item r with
        | .error f => .error f
        | .ok (a, r) => mapRead (a :: ·) (items item fuel false r)

def members {α : Type} (value : Reader α) : Nat -> Bool -> Reader (List (String × α))
  | fuel, first, s =>
    match nextKey first s with
    | .error f => .error f
    | .ok (none, r) => .ok ([], r.tail)
    | .ok (some key, r) =>
      match fuel with
      | 0 => failAt .expectedValue r
      | fuel + 1 =>
        match colon r with
        | .error f => .error f
        | .ok r =>
          match value r with
          | .error f => .error f
          | .ok (a, r) => mapRead ((key, a) :: ·) (members value fuel false r)

/-- Opens the bracket that stands next, if the allowance admits another one. -/
def opening {α : Type} (allowance : Nat) (inside : Nat -> Reader α) : Reader α := fun s =>
  match allowance with
  | 0 => failPast .tooDeep s
  | n + 1 => inside n s.tail

end Reader

def listOf {α : Type} (item : Decoder α) : Decoder (List α) := fun allowance s =>
  match token s with
  | .error f => .error f
  | .ok (.list, r) => opening allowance (fun n s => items (item n) s.length true s) r
  | .ok (found, r) => failAt (.wrongType found "a sequence") r

def optionOf {α : Type} (value : Decoder α) : Decoder (Option α) := fun allowance s =>
  match skipSpace s with
  | [] => mapRead some (value allowance [])
  | b :: r =>
    if b == byte 'n' then mapRead (fun _ => none) (word [byte 'u', byte 'l', byte 'l'] r)
    else mapRead some (value allowance (b :: r))

def any : Decoder Json
  | allowance, s =>
    match token s with
    | .error f => .error f
    | .ok (.null, r) => .ok (.null, r)
    | .ok (.bool b, r) => .ok (.bool b, r)
    | .ok (.number n, r) => .ok (.number n, r)
    | .ok (.string text, r) => .ok (.string text, r)
    | .ok (.list, r) =>
      match allowance with
      | 0 => failPast .tooDeep r
      | n + 1 => mapRead .array (items (any n) r.tail.length true r.tail)
    | .ok (.object, r) =>
      match allowance with
      | 0 => failPast .tooDeep r
      | n + 1 => mapRead ofMembers (members (any n) r.tail.length true r.tail)

/-!
## Scalars
-/

def natBelow (limit : Nat) (wanted : String) : Decoder Nat := fun _ s =>
  match token s with
  | .error f => .error f
  | .ok (.number (.integer n), r) =>
    if 0 ≤ n ∧ n < limit then .ok (n.toNat, r) else failAt (.wrongValue n wanted) r
  | .ok (found, r) => failAt (.wrongType found wanted) r

/-- Stands for a value that is skipped. -/
structure Ignored where
deriving DecidableEq

instance : Encode Ignored := ⟨fun _ => .null⟩

instance : Decode Json := ⟨any⟩

instance : Decode Ignored := ⟨fun _ s => mapRead (fun _ => ⟨⟩) (skip s)⟩

instance : Decode Unit where
  decoder _ s :=
    match token s with
    | .error f => .error f
    | .ok (.null, r) => .ok ((), r)
    | .ok (found, r) => failAt (.wrongType found "unit") r

instance : Decode Bool where
  decoder _ s :=
    match token s with
    | .error f => .error f
    | .ok (.bool b, r) => .ok (b, r)
    | .ok (found, r) => failAt (.wrongType found "a boolean") r

instance : Decode String where
  decoder _ s :=
    match token s with
    | .error f => .error f
    | .ok (.string text, r) => .ok (text, r)
    | .ok (found, r) => failAt (.wrongType found "a string") r

instance : Decode UInt32 :=
  ⟨fun allowance s => mapRead UInt32.ofNat (natBelow UInt32.size "u32" allowance s)⟩

instance : Decode UInt64 :=
  ⟨fun allowance s => mapRead UInt64.ofNat (natBelow UInt64.size "u64" allowance s)⟩

instance {α : Type} [Decode α] : Decode (List α) := ⟨listOf decoder⟩

instance {α : Type} [Decode α] : Decode (Option α) := ⟨optionOf decoder⟩

instance : Encode Unit := ⟨fun _ => .null⟩

/-!
## Whole texts
-/

/-- How many brackets a text may open within one another. -/
def nesting : Nat := 127

def decodeWith {α : Type} (decoder : Decoder α) (allowance : Nat) (input : List UInt8) :
    Except Error α :=
  match decoder allowance input with
  | .error f => .error (f.locate input)
  | .ok (a, r) =>
    match skipSpace r with
    | [] => .ok a
    | _ :: r => .error (Failure.locate input ⟨.trailingCharacters, r.length⟩)

def decode {α : Type} [Decode α] (input : List UInt8) : Except Error α :=
  decodeWith decoder nesting input

end Json
end RestClient
