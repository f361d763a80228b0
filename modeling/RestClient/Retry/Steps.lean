import RestClient.Retry.Policy

/-!
# Steps of a retry policy

A policy may be told of successes, of failures and of delays that have passed in any order, also
when it does not expect them.  Each step answers where the policy stands behind it.
-/

namespace RestClient
namespace Policy

inductive Step where
  | success
  | failure (now : Moment) (jitter : Jitter) (e : Error)
  /-- The delay has passed. -/
  | resume

def step (policy : Policy) : Step -> Except Overflow (RetryState × Policy)
  | .success => .ok (.succeeded policy.attempt, policy.recordSuccess)
  | .failure now jitter e =>
    match policy.recordFailure now jitter e with
    | .error overflow => .error overflow
    | .ok next => .ok (next.state, next)
  | .resume => .ok (policy.resume.state, policy.resume)

/-- A step that was made: where the policy stood, what it was told, what it answered, and where it
stands then. -/
structure Transition where
  before : RetryState
  step : Step
  answer : RetryState
  after : RetryState

namespace Transition

def isResumption (t : Transition) : Bool :=
  match t.step, t.before with
  | .resume, .backingOff _ _ => true
  | _, _ => false

def delay? (t : Transition) : Option Duration :=
  match t.step, t.answer with
  | .failure _ _ _, .backingOff _ delay => some delay
  | _, _ => none

end Transition

def handedOut (made : List Transition) : Nat :=
  made.foldr (fun t nanos => (t.delay?.map (·.nanos)).getD 0 + nanos) 0

def run (policy : Policy) : List Step -> Except Overflow (List Transition × Policy)
  | [] => .ok ([], policy)
  | step :: rest =>
    match policy.step step with
    | .error overflow => .error overflow
    | .ok (answer, next) =>
      match next.run rest with
      | .error overflow => .error overflow
      | .ok (made, last) => .ok (⟨policy.state, step, answer, next.state⟩ :: made, last)

theorem step_failure {policy : Policy} {now : Moment} {jitter : Jitter} {e : Error}
    {answer : RetryState} {next : Policy}
    (h : policy.step (.failure now jitter e) = .ok (answer, next)) :
    policy.recordFailure now jitter e = .ok next ∧ answer = next.state := by
  unfold step at h
  dsimp only at h
  cases hrecord : policy.recordFailure now jitter e with
  | error overflow =>
    rw [hrecord] at h
    cases h
  | ok recorded =>
    rw [hrecord] at h
    cases h
    exact ⟨rfl, rfl⟩

theorem run_cons_of_step {policy next last : Policy} {step : Step} {rest : List Step}
    {answer : RetryState} {more : List Transition} (hstep : policy.step step = .ok (answer, next))
    (hrest : next.run rest = .ok (more, last)) :
    policy.run (step :: rest) =
      .ok (⟨policy.state, step, answer, next.state⟩ :: more, last) := by
  unfold run
  rw [hstep]
  dsimp only
  rw [hrest]

theorem run_cons {policy last : Policy} {step : Step} {rest : List Step}
    {made : List Transition} (h : policy.run (step :: rest) = .ok (made, last)) :
    exists answer next more, policy.step step = .ok (answer, next) ∧
      next.run rest = .ok (more, last) ∧
      made = ⟨policy.state, step, answer, next.state⟩ :: more := by
  unfold run at h
  rcases hstep : policy.step step with overflow | ⟨answer, next⟩
  · rw [hstep] at h
    cases h
  · rw [hstep] at h
    dsimp only at h
    rcases hrest : next.run rest with overflow | ⟨more, final⟩
    · rw [hrest] at h
      cases h
    · rw [hrest] at h
      cases h
      exact ⟨answer, next, more, rfl, hrest, rfl⟩

end Policy
end RestClient
