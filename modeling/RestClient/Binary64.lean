/-!
# Binary floating point

Finite binary numbers of 53 significant bits, kept as a sign, a whole significand and a power of
two.  Every operation computes an exact quotient of naturals and rounds it once, to nearest, a
tie to the even significand.
-/

namespace RestClient

/-- The number `± significand * 2 ^ exponent`.  The significand has 53 bits, or fewer with the
least exponent. -/
structure Binary64 where
  negative : Bool
  significand : Nat
  exponent : Int
deriving DecidableEq

namespace Binary64

def leastExponent : Int := -1074

def greatestExponent : Int := 971

def zero : Binary64 := ⟨false, 0, leastExponent⟩

def isZero (x : Binary64) : Bool := x.significand == 0

def neg (x : Binary64) : Binary64 := { x with negative := !x.negative }

def roundDiv (num den : Nat) : Nat :=
  let q := num / den
  let twice := 2 * (num % den)
  if twice < den then q
  else if den < twice then q + 1
  else if q % 2 == 0 then q else q + 1

def shifted (num den : Nat) (e : Int) : Nat × Nat :=
  if 0 ≤ e then (num, den <<< e.toNat) else (num <<< (-e).toNat, den)

/-- An exponent that leaves at least 53 bits of `num / den` before the point, or the least one. -/
def guess (num den : Nat) : Int :=
  max leastExponent ((Nat.log2 num : Int) - (Nat.log2 den : Int) - 53)

/-- The exponent with which `num / den` has 53 bits before the point, or the least one. -/
def exponentOf (num den : Nat) : Int :=
  let e := guess num den
  let (n, d) := shifted num den e
  if n / d < 1 <<< 53 then e else e + 1

def ofRatio (num den : Nat) : Option Binary64 :=
  if num == 0 then some zero
  else
    let e := exponentOf num den
    let (n, d) := shifted num den e
    let q := roundDiv n d
    let (q, e) := if q < 1 <<< 53 then (q, e) else (1 <<< 52, e + 1)
    if e ≤ greatestExponent then some ⟨false, q, e⟩ else none

def ofNat (n : Nat) : Option Binary64 := ofRatio n 1

def ratio (x : Binary64) : Nat × Nat :=
  if 0 ≤ x.exponent then (x.significand <<< x.exponent.toNat, 1)
  else (x.significand, 1 <<< (-x.exponent).toNat)

def mul (x y : Binary64) : Option Binary64 :=
  ofRatio (x.ratio.1 * y.ratio.1) (x.ratio.2 * y.ratio.2)

def div (x y : Binary64) : Option Binary64 :=
  ofRatio (x.ratio.1 * y.ratio.2) (x.ratio.2 * y.ratio.1)

end Binary64
end RestClient
