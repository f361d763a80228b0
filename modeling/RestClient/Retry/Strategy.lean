import RestClient.Duration

/-!
# Retry strategies

How long to wait before each retry, and how many retries there are.  Retries are numbered from
one.
-/

namespace RestClient

/-- A random part of a delay, from one half to all of it, in units of `2 ^ -53`. -/
structure Jitter where
  units : Nat
  half_le : 1 <<< 52 ≤ units
  le_one : units ≤ 1 <<< 53

namespace Jitter

def whole : Jitter := ⟨1 <<< 53, by decide, by decide⟩

def of (jitter : Jitter) (delay : Duration) : Duration :=
  .saturate ((delay.nanos * jitter.units + 1 <<< 52) >>> 53)

def ofNat (n : Nat) : Jitter :=
  ⟨1 <<< 52 + n % 1 <<< 52, Nat.le_add_right _ _,
    Nat.add_le_add_left (Nat.le_of_lt (Nat.mod_lt n (by decide))) _⟩

end Jitter

inductive Strategy where
  | never
  /-- Delays double from one retry to the next, up to a longest one. -/
  | exponential (initial longest : Duration) (maxRetries : Nat) (jitter : Bool)
  | linear (delay : Duration) (maxRetries : Nat)
  /-- A function from the number of the retry; without a delay there is no retry. -/
  | custom (delay? : Nat -> Option Duration)

namespace Strategy

def default : Strategy := .exponential (.ofMillis 500) (.ofSeconds 30) 3 true

/-- How often the first delay is taken for a retry: doubled each time, as far as 32 bits count.
The exponent itself is a 32-bit word. -/
def doublings (retry : Nat) : Nat :=
  let exponent := (retry - 1) % UInt32.size
  if exponent < 32 then 1 <<< exponent else UInt32.size - 1

def nominal? (strategy : Strategy) (retry : Nat) : Option Duration :=
  match strategy with
  | .never => none
  | .exponential initial longest maxRetries _ =>
    if maxRetries < retry then none else some (min (initial.scale (doublings retry)) longest)
  | .linear delay maxRetries => if maxRetries < retry then none else some delay
  | .custom delay? => delay? retry

def hasJitter : Strategy -> Bool
  | .exponential _ _ _ jitter => jitter
  | _ => false

def delay? (strategy : Strategy) (retry : Nat) (jitter : Jitter) : Option Duration :=
  (strategy.nominal? retry).map fun delay => if strategy.hasJitter then jitter.of delay else delay

def maxRetries? : Strategy -> Option Nat
  | .never => some 0
  | .exponential _ _ maxRetries _ => some maxRetries
  | .linear _ maxRetries => some maxRetries
  | .custom _ => none

/-- How many attempts there can be.  Where the number of retries is not known, attempts are
counted by a 64-bit word. -/
def attemptLimit (strategy : Strategy) : Nat :=
  match strategy.maxRetries? with
  | some retries => retries + 1
  | none => UInt64.size

end Strategy
end RestClient
