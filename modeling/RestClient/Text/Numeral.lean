/-!
# Decimal numerals

Reading unsigned numbers from text.  A numeral is one or more ASCII digits; a word is a numeral
below `2^64`.
-/

namespace RestClient
namespace Numeral

def digit? (c : Char) : Option Nat :=
  if '0' ≤ c ∧ c ≤ '9' then some (c.toNat - 48) else none

def extend (value : Nat) : List Char -> Option Nat
  | [] => some value
  | c :: rest =>
    match digit? c with
    | some d => extend (value * 10 + d) rest
    | none => none

def nat? : List Char -> Option Nat
  | [] => none
  | text => extend 0 text

def word? (text : List Char) : Option Nat :=
  match nat? text with
  | some n => if n < UInt64.size then some n else none
  | none => none

def signedWord? : List Char -> Option Nat
  | '+' :: rest => word? rest
  | text => word? text

end Numeral
end RestClient
