import RestClient.Text.Split

/-!
# Punycode

Names in any script, written in ASCII.  The ASCII characters of the name come first, with a hyphen
behind them if there are any.  The rest is digits in base thirty-six: numbers of varying length,
each of which says how far to go on through the code points and the places of the name so far until
the next character goes in.
-/

namespace RestClient
namespace Punycode

/-- Letters of either case are the digits below twenty-six, and the decimal digits those above. -/
def digit? (c : Char) : Option Nat :=
  if c.isLower then some (c.toNat - 97)
  else if c.isUpper then some (c.toNat - 65)
  else if c.isDigit then some (c.toNat - 22)
  else none

/-- A digit below the threshold ends its number.  Places count in steps of thirty-six. -/
def threshold (bias place : Nat) : Nat :=
  if place ≤ bias then 1 else if bias + 26 ≤ place then 26 else place - bias

def settledBias (span places : Nat) : Nat :=
  if 455 < span then settledBias (span / 35) (places + 36)
  else places + 36 * span / (span + 38)
termination_by span
decreasing_by omega

/-- The bias behind a number, which makes the next one short if it is about as large. -/
def adapt (number length : Nat) (first : Bool) : Nat :=
  let span := if first then number / 700 else number / 2
  settledBias (span + span / length) 0

/-- A name on the way, and the number that is being read. -/
structure Progress where
  name : List Char
  /-- The code point that went in last. -/
  code : Nat
  /-- The place behind the character that went in last. -/
  start : Nat
  /-- That place and what is read of the number, added up. -/
  sum : Nat
  weight : Nat
  place : Nat
  bias : Nat

namespace Progress

def begin (ascii : List Char) : Progress :=
  { name := ascii, code := 0x80, start := 0, sum := 0, weight := 1, place := 36, bias := 72 }

def insert (p : Progress) (sum : Nat) : Option Progress :=
  let length := p.name.length + 1
  let code := p.code + sum / length
  let index := sum % length
  if code.isValidChar then
    some
      { name := p.name.insertIdx index (Char.ofNat code), code, start := index + 1,
        sum := index + 1, weight := 1, place := 36,
        bias := adapt (sum - p.start) length (p.start == 0) }
  else none

/-- Reads one digit.  Numbers and weights stay below 2^32. -/
def step (p : Progress) (c : Char) : Option Progress :=
  match digit? c with
  | none => none
  | some digit =>
    let sum := p.sum + digit * p.weight
    let least := threshold p.bias p.place
    if UInt32.size ≤ sum then none
    else if digit < least then p.insert sum
    else if UInt32.size ≤ p.weight * (36 - least) then none
    else some { p with sum, weight := p.weight * (36 - least), place := p.place + 36 }

end Progress

def decodeDigits (ascii digits : List Char) : Option (List Char) :=
  match digits.foldlM Progress.step (Progress.begin ascii) with
  | some p => if p.place == 36 then some p.name else none
  | none => none

def decode? (text : List Char) : Option (List Char) :=
  match splitLastAt '-' text with
  | none => decodeDigits [] text
  | some ([], _) => none
  | some (ascii, digits) => decodeDigits ascii digits

end Punycode
end RestClient
