import RestClient.Binary64

/-!
# Shortest decimals

The decimal number with the fewest digits among those that round to a given binary number, the
one nearest to it if there are several, and the text of that decimal.
-/

namespace RestClient

structure Decimal where
  digits : Nat
  exponent : Int
deriving DecidableEq

namespace Binary64

/-- Twice the ends of the interval of reals that round to `x`, and `4 * x` itself, all as
multiples of `2 ^ (x.exponent - 2)`.  Below a power of two the interval is half as wide. -/
structure Window where
  low : Nat
  middle : Nat
  high : Nat
  /-- The ends round to `x` too. -/
  closed : Bool

def window (x : Binary64) : Window :=
  let narrow := x.significand == 1 <<< 52 && leastExponent < x.exponent
  { low := 4 * x.significand - (if narrow then 1 else 2)
    middle := 4 * x.significand
    high := 4 * x.significand + 2
    closed := x.significand % 2 == 0 }

def factors (e p : Int) : Nat × Nat :=
  (Nat.pow 10 (-p).toNat <<< (e - 2).toNat, Nat.pow 10 p.toNat <<< (2 - e).toNat)

/-- Whether `digits * 10 ^ p` rounds to the number, where the grid has been brought to `scale` and
the number's quarters to `unit`. -/
def Window.holds (w : Window) (unit scale digits : Nat) : Bool :=
  let v := digits * scale
  if w.closed then w.low * unit ≤ v && v ≤ w.high * unit
  else w.low * unit < v && v < w.high * unit

def onGrid (x : Binary64) (p : Int) : Option Nat :=
  let w := x.window
  let (unit, scale) := factors x.exponent p
  let below := w.middle * unit / scale
  let excess := 2 * (w.middle * unit % scale)
  let lower := w.holds unit scale below
  let upper := w.holds unit scale (below + 1)
  if lower && upper then
    if excess < scale || (excess == scale && below % 2 == 0) then some below else some (below + 1)
  else if lower then some below
  else if upper then some (below + 1)
  else none

/-- An exponent of ten above the magnitude of `x`, too great by two at most. -/
def scaleOf (x : Binary64) : Int :=
  ((Nat.log2 x.significand : Int) + 1 + x.exponent) * 30103 / 100000 + 1

/-- The coarsest grid that holds a decimal for `x`, searched for through `count` grids below
`10 ^ p`. -/
def coarsest (x : Binary64) : Nat -> Int -> Decimal
  | 0, p => ⟨x.significand, p⟩
  | count + 1, p =>
    match x.onGrid p with
    | some digits => ⟨digits, p⟩
    | none => coarsest x count (p - 1)

def shortest (x : Binary64) : Decimal := coarsest x 20 x.scaleOf

end Binary64

namespace Decimal

def strip (fuel : Nat) (d : Decimal) : Decimal :=
  match fuel with
  | 0 => d
  | fuel + 1 => if d.digits % 10 == 0 then strip fuel ⟨d.digits / 10, d.exponent + 1⟩ else d

end Decimal

/-!
## Notation

Numbers from `10 ^ -5` up to `10 ^ 16` are written positionally, with at least one digit on either
side of the point; all others with one digit before the point and a signed exponent.
-/

namespace Binary64

/-- Greatest and least power of ten of a leading digit that is written positionally. -/
def positional (e : Int) : Bool := -5 ≤ e && e ≤ 15

def magnitudeText (x : Binary64) : List Char :=
  if x.isZero then ['0', '.', '0']
  else
    let d := Decimal.strip 20 x.shortest
    let digits := Nat.toDigits 10 d.digits
    let lead : Int := digits.length + d.exponent - 1
    if positional lead then
      if 0 ≤ d.exponent then digits ++ List.replicate d.exponent.toNat '0' ++ ['.', '0']
      else if 0 ≤ lead then
        digits.take (lead.toNat + 1) ++ '.' :: digits.drop (lead.toNat + 1)
      else ['0', '.'] ++ List.replicate (-lead - 1).toNat '0' ++ digits
    else
      let fraction := digits.drop 1
      let sign := if lead < 0 then '-' else '+'
      digits.take 1 ++ (if fraction.isEmpty then [] else '.' :: fraction) ++
        'e' :: sign :: Nat.toDigits 10 lead.natAbs

def text (x : Binary64) : List Char :=
  if x.negative then '-' :: x.magnitudeText else x.magnitudeText

end Binary64
end RestClient
