import RestClient.Error
import RestClient.Retry.Strategy

/-!
# Retry policies

Which failures are worth a repetition, and the state of one call between its attempts:

    attempting  -> succeeded         a 2xx response
    attempting  -> failedTerminal    a failure that must not be repeated
    attempting  -> backingOff        a transient failure, with retries left
    attempting  -> failedExhausted   a transient failure, without retries left
    backingOff  -> attempting        the delay has passed
-/

namespace RestClient

/-- Whether a failure of the attempt with the given number may be repeated. -/
abbrev Predicate := Error -> Nat -> Bool

namespace Predicate

def retryable : Predicate := fun e _ => e.isRetryable

def serverError : Predicate := fun e _ => e.status?.any Status.isServerError

def network : Predicate := fun e _ =>
  match e with
  | .network _ | .timeout => true
  | _ => false

def any (predicates : List Predicate) : Predicate := fun e attempt =>
  List.any predicates fun p => p e attempt

def all (predicates : List Predicate) : Predicate := fun e attempt =>
  List.all predicates fun p => p e attempt

end Predicate

inductive RetryState where
  | attempting (attempt : Nat)
  /-- The attempt failed; the next one follows after the delay. -/
  | backingOff (attempt : Nat) (delay : Duration)
  | succeeded (attempts : Nat)
  | failedTerminal (attempts : Nat)
  | failedExhausted (attempts : Nat)
deriving DecidableEq

namespace RetryState

def isTerminal : RetryState -> Bool
  | .attempting _ | .backingOff _ _ => false
  | _ => true

def attempt : RetryState -> Nat
  | .attempting n | .backingOff n _ | .succeeded n | .failedTerminal n | .failedExhausted n => n

end RetryState

structure Policy where
  strategy : Strategy
  predicate : Predicate
  rateLimit : RateLimit.Config
  retriesAllowed : Bool
  state : RetryState
  elapsed : Duration

namespace Policy

def start (strategy : Strategy) (predicate : Predicate) (rateLimit : RateLimit.Config)
    (retriesAllowed : Bool) : Policy :=
  { strategy, predicate, rateLimit, retriesAllowed, state := .attempting 1, elapsed := .zero }

def attempt (policy : Policy) : Nat := policy.state.attempt

def recordSuccess (policy : Policy) : Policy :=
  { policy with state := .succeeded policy.attempt }

/-- The delay after a failure: the provider's advice, if it is followed and there is any, else
the delay of the strategy. -/
def delayAfter (policy : Policy) (now : Moment) (e : Error) (backoff : Duration) : Duration :=
  if policy.rateLimit.enabled then
    (e.rateLimitDelay? now policy.rateLimit.maxWait).getD backoff
  else backoff

/-- Notes that the attempt failed.  Fails itself if the delays no longer add up to a duration. -/
def recordFailure (policy : Policy) (now : Moment) (jitter : Jitter) (e : Error) :
    Except Overflow Policy :=
  let attempt := policy.attempt
  if !policy.retriesAllowed || !policy.predicate e attempt then
    .ok { policy with state := .failedTerminal attempt }
  else
    match policy.strategy.delay? attempt jitter with
    | none => .ok { policy with state := .failedExhausted attempt }
    | some backoff =>
      let delay := policy.delayAfter now e backoff
      match policy.elapsed.add? delay with
      | none => .error .totalBackoff
      | some elapsed => .ok { policy with state := .backingOff attempt delay, elapsed }

theorem attempt_recordSuccess (p : Policy) : p.recordSuccess.attempt = p.attempt := rfl

theorem attempt_recordFailure {p q : Policy} {now : Moment} {jitter : Jitter} {e : Error}
    (h : p.recordFailure now jitter e = .ok q) : q.attempt = p.attempt := by
  unfold recordFailure at h
  by_cases hr : (!p.retriesAllowed || !p.predicate e p.attempt) = true
  · rw [if_pos hr] at h
    cases h
    rfl
  · rw [if_neg hr] at h
    cases hd : p.strategy.delay? p.attempt jitter with
    | none =>
      rw [hd] at h
      cases h
      rfl
    | some backoff =>
      rw [hd] at h
      cases ha : p.elapsed.add? (p.delayAfter now e backoff) with
      | none =>
        simp only [ha] at h
        cases h
      | some elapsed =>
        simp only [ha] at h
        cases h
        rfl

def resume (policy : Policy) : Policy :=
  match policy.state with
  | .backingOff attempt _ => { policy with state := .attempting (attempt + 1) }
  | _ => policy

end Policy
end RestClient
