/-!
# Durations and moments

A duration is a whole number of nanoseconds below `2^64` seconds; sums and products that would
leave that range either fail or stop at its end, and each operation says which.  A moment counts
nanoseconds since the beginning of 1970.
-/

namespace RestClient

/-- A length of time in nanoseconds, shorter than `2^64` seconds. -/
structure Duration where
  nanos : Nat
  nanos_lt : nanos < UInt64.size * 1_000_000_000
deriving DecidableEq

namespace Duration

def bound : Nat := UInt64.size * 1_000_000_000

def longest : Duration := ⟨bound - 1, by decide⟩

/-- The duration of `n` nanoseconds, or the longest one. -/
def saturate (n : Nat) : Duration :=
  if h : n < bound then ⟨n, h⟩ else longest

theorem nanos_saturate (n : Nat) : (saturate n).nanos = min n (bound - 1) := by
  unfold saturate
  by_cases h : n < bound
  · rw [dif_pos h]
    have hle : n ≤ bound - 1 := Nat.le_sub_one_of_lt h
    exact (Nat.min_eq_left hle).symm
  · rw [dif_neg h]
    have hle : bound - 1 ≤ n := by omega
    exact (Nat.min_eq_right hle).symm

def zero : Duration := saturate 0

def ofSeconds (n : Nat) : Duration := saturate (n * 1_000_000_000)

def ofMillis (n : Nat) : Duration := saturate (n * 1_000_000)

def add? (a b : Duration) : Option Duration :=
  if h : a.nanos + b.nanos < bound then some ⟨a.nanos + b.nanos, h⟩ else none

theorem add?_eq_some_iff {a b c : Duration} :
    a.add? b = some c <-> a.nanos + b.nanos = c.nanos := by
  unfold add?
  constructor
  · intro h
    by_cases hb : a.nanos + b.nanos < bound
    · rw [dif_pos hb] at h
      cases h
      rfl
    · rw [dif_neg hb] at h
      cases h
  · intro h
    have hb : a.nanos + b.nanos < bound := h ▸ c.nanos_lt
    rw [dif_pos hb]
    cases c with
    | mk n hn =>
      cases h
      rfl

theorem add?_eq_none_iff {a b : Duration} :
    a.add? b = none <-> bound ≤ a.nanos + b.nanos := by
  unfold add?
  constructor
  · intro h
    by_cases hb : a.nanos + b.nanos < bound
    · rw [dif_pos hb] at h
      cases h
    · exact Nat.le_of_not_lt hb
  · intro h
    rw [dif_neg (Nat.not_lt_of_le h)]

def scale (a : Duration) (k : Nat) : Duration := saturate (a.nanos * k)

theorem nanos_scale (a : Duration) (k : Nat) :
    (a.scale k).nanos = min (a.nanos * k) (bound - 1) :=
  nanos_saturate (a.nanos * k)

instance : LE Duration := ⟨fun a b => a.nanos ≤ b.nanos⟩

instance (a b : Duration) : Decidable (a ≤ b) := inferInstanceAs (Decidable (a.nanos ≤ b.nanos))

instance : Min Duration := ⟨fun a b => if a ≤ b then a else b⟩

theorem nanos_min (a b : Duration) : (min a b).nanos = min a.nanos b.nanos := by
  change (if a.nanos ≤ b.nanos then a else b).nanos = min a.nanos b.nanos
  by_cases h : a.nanos ≤ b.nanos
  · rw [if_pos h, Nat.min_eq_left h]
  · rw [if_neg h, Nat.min_eq_right (Nat.le_of_not_le h)]

def seconds (a : Duration) : Nat := a.nanos / 1_000_000_000

def subsecond (a : Duration) : Nat := a.nanos % 1_000_000_000

def millis (a : Duration) : Nat := a.nanos / 1_000_000

/-!
## Timers

A timer counts whole milliseconds in a 64-bit word, two of whose values are marks of its own.  It
never fires early, so it rounds up.
-/

def lastTick : Nat := UInt64.size - 3

/-- How many milliseconds a timer waits, as far as it can count them. -/
def ticks (a : Duration) : Nat :=
  if a.nanos % 1_000_000 = 0 then a.millis else a.millis + 1

/-!
## Text

A duration is written in its largest unit of seconds, milliseconds, microseconds and nanoseconds
that is not larger than the duration itself, with as many decimals as are needed: `1.5s`, `50ms`,
`0ns`.
-/

/-- The decimals of `part / 10^width`, without trailing zeros. -/
def decimals (part width : Nat) : List Char :=
  let digits := Nat.toDigits 10 part
  let padded := List.replicate (width - digits.length) '0' ++ digits
  (padded.reverse.dropWhile (· == '0')).reverse

def inUnit (nanos width : Nat) (unit : String) : String :=
  let part := decimals (nanos % Nat.pow 10 width) width
  let whole := toString (nanos / Nat.pow 10 width)
  if part.isEmpty then whole ++ unit else whole ++ "." ++ String.ofList part ++ unit

def text (a : Duration) : String :=
  if 1_000_000_000 ≤ a.nanos then inUnit a.nanos 9 "s"
  else if 1_000_000 ≤ a.nanos then inUnit a.nanos 6 "ms"
  else if 1000 ≤ a.nanos then inUnit a.nanos 3 "µs"
  else inUnit a.nanos 0 "ns"

end Duration

/-- A moment: nanoseconds since the beginning of 1970. -/
structure Moment where
  nanos : Nat
deriving DecidableEq

namespace Moment

def ofSeconds (n : Nat) : Moment := ⟨n * 1_000_000_000⟩

def seconds (t : Moment) : Nat := t.nanos / 1_000_000_000

/-- How long after `earlier` the moment `t` comes, if it does not come before it. -/
def since? (t earlier : Moment) : Option Duration :=
  if earlier.nanos ≤ t.nanos then some (.saturate (t.nanos - earlier.nanos)) else none

end Moment

end RestClient
