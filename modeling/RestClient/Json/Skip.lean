import RestClient.Json.Token

/-!
# Skipping values

Reading past a value that nobody asked for.  The value has to be well formed, but it may nest to
any depth, its numbers may have any size and its strings may hold any code units.  A machine reads
one scalar or one bracket at a time and remembers the brackets that are still open.
-/

namespace RestClient
namespace Json
namespace Skip

open Reader

def string : List UInt8 -> Except Failure (List UInt8)
  | [] => failAt .endInString []
  | b :: s =>
    if b == byte '"' then .ok s
    else if b == byte '\\' then
      match s with
      | [] => failAt .endInString []
      | e :: s =>
        if e == byte 'u' then
          match s with
          | h₁ :: h₂ :: h₃ :: h₄ :: s =>
            match hexUnit? h₁ h₂ h₃ h₄ with
            | none => failAt .invalidEscape s
            | some _ => string s
          | _ => failAt .endInString []
        else
          match shortEscape? e with
          | some _ => string s
          | none => failAt .invalidEscape s
    else if b < 0x20 then failAt .controlCharacter (b :: s)
    else string s

def exponent (s : List UInt8) : Except Failure (List UInt8) :=
  let s := match s with
    | b :: rest => if b == byte '+' || b == byte '-' then rest else s
    | [] => []
  match s with
  | [] => failAt .invalidNumber []
  | b :: rest => if isDigit b then .ok (rest.dropWhile isDigit) else failAt .invalidNumber rest

def exponent? (s : List UInt8) : Except Failure (List UInt8) :=
  match s with
  | b :: rest => if b == byte 'e' || b == byte 'E' then exponent rest else .ok s
  | [] => .ok []

def fraction? (s : List UInt8) : Except Failure (List UInt8) :=
  match s with
  | b :: rest =>
    if b == byte '.' then
      if (rest.takeWhile isDigit).isEmpty then failPast .invalidNumber rest
      else exponent? (rest.dropWhile isDigit)
    else exponent? s
  | [] => .ok []

def number : List UInt8 -> Except Failure (List UInt8)
  | [] => failAt .invalidNumber []
  | b :: rest =>
    if b == byte '0' then
      match rest with
      | d :: _ => if isDigit d then failPast .invalidNumber rest else fraction? rest
      | [] => .ok []
    else if isDigit b then fraction? (rest.dropWhile isDigit)
    else failAt .invalidNumber rest

inductive Bracket where
  | list
  | object
deriving DecidableEq

/-- What stands next: a value, what follows an opening bracket, or what follows a value. -/
inductive Phase where
  | value
  | opened
  | ended
deriving DecidableEq

structure State where
  phase : Phase
  brackets : List Bracket
deriving DecidableEq

def State.done (st : State) : Bool := st.phase == .ended && st.brackets.isEmpty

def andThen (st : State) : Except Failure (List UInt8) -> Except Failure (State × List UInt8)
  | .ok rest => .ok (st, rest)
  | .error f => .error f

def rest {α : Type} : Except Failure (α × List UInt8) -> Except Failure (List UInt8)
  | .ok (_, s) => .ok s
  | .error f => .error f

def value (brackets : List Bracket) (s : List UInt8) : Except Failure (State × List UInt8) :=
  match s with
  | [] => failPast .endInValue []
  | b :: r =>
    let after : State := ⟨.ended, brackets⟩
    if b == byte 'n' then andThen after (rest (word [byte 'u', byte 'l', byte 'l'] r))
    else if b == byte 't' then andThen after (rest (word [byte 'r', byte 'u', byte 'e'] r))
    else if b == byte 'f' then
      andThen after (rest (word [byte 'a', byte 'l', byte 's', byte 'e'] r))
    else if b == byte '-' then andThen after (number r)
    else if isDigit b then andThen after (number (b :: r))
    else if b == byte '"' then andThen after (string r)
    else if b == byte '[' then .ok (⟨.opened, .list :: brackets⟩, r)
    else if b == byte '\x7b' then .ok (⟨.opened, .object :: brackets⟩, r)
    else failPast .expectedValue (b :: r)

def key (brackets : List Bracket) (s : List UInt8) : Except Failure (State × List UInt8) :=
  match skipSpace s with
  | [] => failPast .endInObject []
  | b :: r =>
    if b == byte '"' then
      match string r with
      | .error f => .error f
      | .ok r =>
        match skipSpace r with
        | [] => failPast .endInObject []
        | c :: r =>
          if c == byte ':' then .ok (⟨.value, brackets⟩, r) else failPast .expectedColon (c :: r)
    else failPast .keyNotString (b :: r)

def step (st : State) (s : List UInt8) : Except Failure (State × List UInt8) :=
  match st.phase, st.brackets with
  | .value, brackets => value brackets (skipSpace s)
  | .opened, .list :: outer =>
    match skipSpace s with
    | [] => failPast .endInList []
    | b :: r => if b == byte ']' then .ok (⟨.ended, outer⟩, r) else value st.brackets (b :: r)
  | .opened, .object :: outer =>
    match skipSpace s with
    | [] => failPast .endInObject []
    | b :: r => if b == byte '\x7d' then .ok (⟨.ended, outer⟩, r) else key st.brackets (b :: r)
  | .ended, .list :: outer =>
    match skipSpace s with
    | [] => failPast .endInList []
    | b :: r =>
      if b == byte ',' then .ok (⟨.value, st.brackets⟩, r)
      else if b == byte ']' then .ok (⟨.ended, outer⟩, r)
      else failPast .expectedCommaInList (b :: r)
  | .ended, .object :: outer =>
    match skipSpace s with
    | [] => failPast .endInObject []
    | b :: r =>
      if b == byte ',' then key st.brackets r
      else if b == byte '\x7d' then .ok (⟨.ended, outer⟩, r)
      else failPast .expectedCommaInObject (b :: r)
  | _, [] => .ok (⟨.ended, []⟩, s)

/-- Runs the machine until the value has ended.  Every step reads at least one byte or fails, so
that one step more than there are bytes is enough. -/
def run : Nat -> State -> List UInt8 -> Except Failure (List UInt8)
  | fuel, st, s =>
    if st.done then .ok s
    else
      match fuel with
      | 0 => failAt .expectedValue s
      | fuel + 1 =>
        match step st s with
        | .error f => .error f
        | .ok (st, s) => run fuel st s

end Skip

def Reader.skip : Reader Unit := fun s =>
  match Skip.run (s.length + 1) ⟨.value, []⟩ s with
  | .ok rest => .ok ((), rest)
  | .error f => .error f

end Json
end RestClient
