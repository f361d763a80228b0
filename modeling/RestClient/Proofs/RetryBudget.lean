import RestClient.Retry.Steps
import RestClient.Proofs.Retrying
import RestClient.Sample

/-!
# The budget of retries

A policy counts one more attempt for each delay that has passed, and a strategy that knows how many
retries there are has no delay beyond them.  The number of attempts therefore stays within the
budget in whatever order the policy is told of successes, failures and passed delays.
-/

namespace RestClient

/-- A state that a policy with so many retries can be in. -/
def RetryState.IsWithin (retries : Nat) (retriesAllowed : Bool) : RetryState -> Prop
  | .backingOff n _ => 1 ≤ n ∧ n ≤ retries ∧ retriesAllowed = true
  | .failedExhausted n => n = retries + 1
  | .attempting n | .succeeded n | .failedTerminal n => 1 ≤ n ∧ n ≤ retries + 1

theorem RetryState.IsWithin.attempt {retries : Nat} {retriesAllowed : Bool} {state : RetryState}
    (h : state.IsWithin retries retriesAllowed) :
    1 ≤ state.attempt ∧ state.attempt ≤ retries + 1 := by
  cases state with
  | attempting n => exact h
  | backingOff n delay => exact ⟨h.1, Nat.le_succ_of_le h.2.1⟩
  | succeeded n => exact h
  | failedTerminal n => exact h
  | failedExhausted n =>
    cases h
    exact ⟨Nat.le_add_left 1 retries, Nat.le_refl (retries + 1)⟩

namespace Policy

variable {policy next last : Policy} {retries : Nat} {step : Step} {steps : List Step}
  {answer : RetryState} {made : List Transition} {now : Moment} {jitter : Jitter} {e : Error}

/-!
## One step
-/

/-- What a policy makes of a failure. -/
inductive Recorded (policy : Policy) (now : Moment) (jitter : Jitter) (e : Error) :
    Policy -> Prop where
  | terminal
      (hrejected : policy.retriesAllowed = false ∨ policy.predicate e policy.attempt = false) :
      Recorded policy now jitter e { policy with state := .failedTerminal policy.attempt }
  | exhausted (hallowed : policy.retriesAllowed = true)
      (hpredicate : policy.predicate e policy.attempt = true)
      (hnone : policy.strategy.nominal? policy.attempt = none) :
      Recorded policy now jitter e { policy with state := .failedExhausted policy.attempt }
  | backsOff {backoff elapsed : Duration} (hallowed : policy.retriesAllowed = true)
      (hpredicate : policy.predicate e policy.attempt = true)
      (hbackoff : policy.strategy.delay? policy.attempt jitter = some backoff)
      (helapsed :
        policy.elapsed.nanos + (policy.delayAfter now e backoff).nanos = elapsed.nanos) :
      Recorded policy now jitter e
        { policy with
          state := .backingOff policy.attempt (policy.delayAfter now e backoff), elapsed }

theorem recorded (h : policy.recordFailure now jitter e = .ok next) :
    policy.Recorded now jitter e next := by
  unfold recordFailure at h
  dsimp only at h
  by_cases hrejected : (!policy.retriesAllowed || !policy.predicate e policy.attempt) = true
  · rw [if_pos hrejected] at h
    cases h
    exact .terminal (by simpa using hrejected)
  · rw [if_neg hrejected] at h
    have hworth : policy.retriesAllowed = true ∧ policy.predicate e policy.attempt = true := by
      simpa using hrejected
    cases hdelay : policy.strategy.delay? policy.attempt jitter with
    | none =>
      rw [hdelay] at h
      cases h
      exact .exhausted hworth.1 hworth.2 (Strategy.delay?_eq_none_iff.mp hdelay)
    | some backoff =>
      rw [hdelay] at h
      cases hadd : policy.elapsed.add? (policy.delayAfter now e backoff) with
      | none =>
        simp only [hadd] at h
        cases h
      | some elapsed =>
        simp only [hadd] at h
        cases h
        exact .backsOff hworth.1 hworth.2 hdelay (Duration.add?_eq_some_iff.mp hadd)

theorem Recorded.of_backingOff (h : policy.Recorded now jitter e next) {n : Nat}
    {delay : Duration} (hstate : next.state = .backingOff n delay) :
    ¬ policy.GivesUp e ∧ next.elapsed.nanos = policy.elapsed.nanos + delay.nanos ∧
      exists backoff, policy.strategy.delay? policy.attempt jitter = some backoff ∧
        delay = policy.delayAfter now e backoff := by
  cases h with
  | terminal hrejected => cases hstate
  | exhausted hallowed hpredicate hnone => cases hstate
  | backsOff hallowed hpredicate hbackoff helapsed =>
    cases hstate
    exact ⟨not_givesUp_of_delay hallowed hpredicate hbackoff, helapsed.symm, _, hbackoff, rfl⟩

structure SameRules (p q : Policy) : Prop where
  strategy : q.strategy = p.strategy
  predicate : q.predicate = p.predicate
  rateLimit : q.rateLimit = p.rateLimit
  retriesAllowed : q.retriesAllowed = p.retriesAllowed

theorem SameRules.trans {p q r : Policy} (h : p.SameRules q) (h' : q.SameRules r) :
    p.SameRules r :=
  ⟨h'.strategy.trans h.strategy, h'.predicate.trans h.predicate, h'.rateLimit.trans h.rateLimit,
    h'.retriesAllowed.trans h.retriesAllowed⟩

theorem sameRules_resume (policy : Policy) : policy.SameRules policy.resume := by
  unfold resume
  cases policy.state <;> exact ⟨rfl, rfl, rfl, rfl⟩

theorem sameRules_step (h : policy.step step = .ok (answer, next)) : policy.SameRules next := by
  cases step with
  | success =>
    cases h
    exact ⟨rfl, rfl, rfl, rfl⟩
  | failure now jitter e =>
    cases recorded (step_failure h).1 <;> exact ⟨rfl, rfl, rfl, rfl⟩
  | resume =>
    cases h
    exact policy.sameRules_resume

theorem answer_eq (h : policy.step step = .ok (answer, next)) : answer = next.state := by
  cases step with
  | success =>
    cases h
    rfl
  | failure now jitter e => exact (step_failure h).2
  | resume =>
    cases h
    rfl

theorem attempt_step (h : policy.step step = .ok (answer, next)) :
    next.attempt = policy.attempt +
      (if Transition.isResumption ⟨policy.state, step, answer, next.state⟩ then 1 else 0) := by
  cases step with
  | success =>
    cases h
    exact attempt_recordSuccess policy
  | failure now jitter e => exact attempt_recordFailure (step_failure h).1
  | resume =>
    cases h
    unfold resume Transition.isResumption attempt
    cases hstate : policy.state with
    | backingOff n delay => rfl
    | attempting n => simp [hstate, RetryState.attempt]
    | succeeded n => simp [hstate, RetryState.attempt]
    | failedTerminal n => simp [hstate, RetryState.attempt]
    | failedExhausted n => simp [hstate, RetryState.attempt]

theorem attempt_le_step (h : policy.step step = .ok (answer, next)) :
    policy.attempt ≤ next.attempt := by
  rw [attempt_step h]
  exact Nat.le_add_right _ _

theorem elapsed_step (h : policy.step step = .ok (answer, next)) :
    next.elapsed.nanos =
      policy.elapsed.nanos + handedOut [⟨policy.state, step, answer, next.state⟩] := by
  cases step with
  | success =>
    cases h
    rfl
  | failure now jitter e =>
    rcases step_failure h with ⟨hrecord, rfl⟩
    cases recorded hrecord with
    | terminal hrejected => rfl
    | exhausted hallowed hpredicate hnone => rfl
    | backsOff hallowed hpredicate hbackoff helapsed => exact helapsed.symm
  | resume =>
    cases h
    unfold resume
    cases policy.state <;> rfl

/-- A policy with so many retries, and where it can stand. -/
structure InBudget (retries : Nat) (allowed : Bool) (policy : Policy) : Prop where
  maxRetries : policy.strategy.maxRetries? = some retries
  retriesAllowed : policy.retriesAllowed = allowed
  state : policy.state.IsWithin retries allowed

theorem inBudget_start {strategy : Strategy} (h : strategy.maxRetries? = some retries)
    (predicate : Predicate) (rateLimit : RateLimit.Config) (retriesAllowed : Bool) :
    (start strategy predicate rateLimit retriesAllowed).InBudget retries retriesAllowed :=
  ⟨h, rfl, Nat.le_refl 1, Nat.le_add_left 1 retries⟩

theorem InBudget.kept {allowed : Bool} (h : policy.InBudget retries allowed)
    (hstep : policy.step step = .ok (answer, next)) : next.InBudget retries allowed := by
  have hsame := sameRules_step hstep
  have hattempt : 1 ≤ policy.attempt ∧ policy.attempt ≤ retries + 1 := h.state.attempt
  refine ⟨hsame.strategy ▸ h.maxRetries, hsame.retriesAllowed.trans h.retriesAllowed, ?_⟩
  cases step with
  | success =>
    cases hstep
    exact hattempt
  | failure now jitter e =>
    have hnone := Strategy.nominal?_eq_none_iff h.maxRetries hattempt.1
    cases recorded (step_failure hstep).1 with
    | terminal hrejected => exact hattempt
    | exhausted hallowed hpredicate hexhausted =>
      exact Nat.le_antisymm hattempt.2 (hnone.mp hexhausted)
    | backsOff hallowed hpredicate hbackoff helapsed =>
      have hleft : ¬ retries < policy.attempt := by
        intro hlt
        rw [Strategy.delay?_eq_none_iff.mpr (hnone.mpr hlt)] at hbackoff
        cases hbackoff
      exact ⟨hattempt.1, Nat.le_of_not_lt hleft, h.retriesAllowed ▸ hallowed⟩
  | resume =>
    cases hstep
    have hstate := h.state
    unfold resume
    cases hcase : policy.state with
    | backingOff n delay =>
      rw [hcase] at hstate
      exact ⟨Nat.le_add_left 1 n, Nat.succ_le_succ hstate.2.1⟩
    | attempting n => exact h.state
    | succeeded n => exact h.state
    | failedTerminal n => exact h.state
    | failedExhausted n => exact h.state

/-!
## Any order of steps
-/

theorem forall_run {I : Policy -> Prop} {P : Transition -> Prop}
    (hkeeps : forall {policy step answer next}, I policy -> policy.step step = .ok (answer, next) ->
      I next ∧ P ⟨policy.state, step, answer, next.state⟩)
    (hpolicy : I policy) (hrun : policy.run steps = .ok (made, last)) :
    I last ∧ forall t, t ∈ made -> P t := by
  induction steps generalizing policy made with
  | nil =>
    cases hrun
    exact ⟨hpolicy, fun t ht => absurd ht List.not_mem_nil⟩
  | cons step rest ih =>
    rcases run_cons hrun with ⟨answer, next, more, hstep, hrest, rfl⟩
    have hnext := hkeeps hpolicy hstep
    have hmore := ih hnext.1 hrest
    exact ⟨hmore.1, List.forall_mem_cons.mpr ⟨hnext.2, hmore.2⟩⟩

theorem sameRules_run (h : policy.run steps = .ok (made, last)) : policy.SameRules last := by
  have hkept := forall_run (I := policy.SameRules) (P := fun _ => True)
    (fun hsame hstep => ⟨hsame.trans (sameRules_step hstep), trivial⟩) ⟨rfl, rfl, rfl, rfl⟩ h
  exact hkept.1

/-- The steps were made one after another, from the first state to the last one. -/
structure Links (first : RetryState) (steps : List Step) (made : List Transition)
    (last : RetryState) : Prop where
  steps : made.map (·.step) = steps
  states : first :: made.map (·.after) = made.map (·.before) ++ [last]

theorem links_run (h : policy.run steps = .ok (made, last)) :
    Links policy.state steps made last.state := by
  induction steps generalizing policy made with
  | nil =>
    cases h
    exact ⟨rfl, rfl⟩
  | cons step rest ih =>
    rcases run_cons h with ⟨answer, next, more, hstep, hrest, rfl⟩
    have hmore := ih hrest
    constructor
    · exact congrArg (List.cons step) hmore.steps
    · exact congrArg (List.cons policy.state) hmore.states

theorem attempt_run (h : policy.run steps = .ok (made, last)) :
    last.attempt = policy.attempt + made.countP Transition.isResumption := by
  induction steps generalizing policy made with
  | nil =>
    cases h
    rfl
  | cons step rest ih =>
    rcases run_cons h with ⟨answer, next, more, hstep, hrest, rfl⟩
    rw [ih hrest, attempt_step hstep, List.countP_cons]
    exact Nat.add_right_comm _ _ _ |>.trans (Nat.add_assoc _ _ _)

theorem handedOut_cons (t : Transition) (made : List Transition) :
    handedOut (t :: made) = handedOut [t] + handedOut made := by
  unfold handedOut
  rw [List.foldr_cons, List.foldr_cons, List.foldr_nil, Nat.add_zero]

theorem elapsed_run (h : policy.run steps = .ok (made, last)) :
    last.elapsed.nanos = policy.elapsed.nanos + handedOut made := by
  induction steps generalizing policy made with
  | nil =>
    cases h
    rfl
  | cons step rest ih =>
    rcases run_cons h with ⟨answer, next, more, hstep, hrest, rfl⟩
    rw [ih hrest, elapsed_step hstep, Nat.add_assoc, ← handedOut_cons]

/-!
## Delays that are too long together
-/

def Overruns (policy : Policy) (steps : List Step) : Prop :=
  exists before now jitter e after made reached backoff,
    steps = before ++ .failure now jitter e :: after ∧ policy.run before = .ok (made, reached) ∧
      ¬ reached.GivesUp e ∧ reached.strategy.delay? reached.attempt jitter = some backoff ∧
      Duration.bound ≤
        policy.elapsed.nanos + handedOut made + (reached.delayAfter now e backoff).nanos

theorem recordFailure_error {overflow : Overflow}
    (h : policy.recordFailure now jitter e = .error overflow) :
    overflow = .totalBackoff ∧ ¬ policy.GivesUp e ∧
      exists backoff, policy.strategy.delay? policy.attempt jitter = some backoff ∧
        Duration.bound ≤ policy.elapsed.nanos + (policy.delayAfter now e backoff).nanos := by
  by_cases hends : policy.GivesUp e
  · rcases recordFailure_of_givesUp hends now jitter with hrecord | hrecord
    · rw [hrecord] at h
      cases h
    · rw [hrecord] at h
      cases h
  · rcases recordFailure_of_not_givesUp hends now jitter with ⟨backoff, hbackoff, hrecord⟩
    cases hadd : policy.elapsed.add? (policy.delayAfter now e backoff) with
    | none =>
      rw [hrecord, hadd] at h
      cases h
      exact ⟨rfl, hends, backoff, hbackoff, Duration.add?_eq_none_iff.mp hadd⟩
    | some elapsed =>
      rw [hrecord, hadd] at h
      cases h

theorem step_error {overflow : Overflow} (h : policy.step step = .error overflow) :
    exists now jitter e, step = .failure now jitter e ∧
      policy.recordFailure now jitter e = .error overflow := by
  cases step with
  | success => cases h
  | failure now jitter e =>
    unfold Policy.step at h
    dsimp only at h
    cases hrecord : policy.recordFailure now jitter e with
    | error cause =>
      rw [hrecord] at h
      cases h
      exact ⟨now, jitter, e, rfl, hrecord⟩
    | ok next =>
      rw [hrecord] at h
      cases h
  | resume => cases h

theorem run_append_eq_ok {before after : List Step}
    (h : policy.run (before ++ after) = .ok (made, last)) :
    exists first reached rest, policy.run before = .ok (first, reached) ∧
      reached.run after = .ok (rest, last) := by
  induction before generalizing policy made with
  | nil => exact ⟨[], policy, made, rfl, h⟩
  | cons step before ih =>
    rcases run_cons h with ⟨answer, next, more, hstep, hrest, rfl⟩
    rcases ih hrest with ⟨first, reached, rest, hfirst, hafter⟩
    exact ⟨_, reached, rest, run_cons_of_step hstep hfirst, hafter⟩

theorem not_overruns_of_run (h : policy.run steps = .ok (made, last)) :
    ¬ policy.Overruns steps := by
  rintro ⟨before, now, jitter, e, after, first, reached, backoff, rfl, hbefore, hretried,
    hbackoff, hbound⟩
  rcases run_append_eq_ok h with ⟨first', reached', rest, hfirst, hrest⟩
  rw [hbefore] at hfirst
  cases hfirst
  rcases run_cons hrest with ⟨answer, next, more, hstep, _, _⟩
  rcases recordFailure_of_not_givesUp hretried now jitter with ⟨backoff', hbackoff', hrecord⟩
  rw [hbackoff] at hbackoff'
  cases hbackoff'
  rw [← elapsed_run hbefore] at hbound
  rw [(step_failure hstep).1, Duration.add?_eq_none_iff.mpr hbound] at hrecord
  cases hrecord

theorem overruns_of_run_error {overflow : Overflow} (h : policy.run steps = .error overflow) :
    policy.Overruns steps := by
  induction steps generalizing policy with
  | nil => cases h
  | cons step rest ih =>
    unfold run at h
    rcases hstep : policy.step step with error | ⟨answer, next⟩
    · rcases step_error hstep with ⟨now, jitter, e, rfl, hrecord⟩
      rcases recordFailure_error hrecord with ⟨_, hretried, backoff, hbackoff, hbound⟩
      exact ⟨[], now, jitter, e, rest, [], policy, backoff, rfl, rfl, hretried, hbackoff, hbound⟩
    · rw [hstep] at h
      dsimp only at h
      rcases hrest : next.run rest with error | ⟨more, final⟩
      · rw [hrest] at h
        cases h
        rcases ih hrest with ⟨before, now, jitter, e, after, made, reached, backoff, rfl, hbefore,
          hretried, hbackoff, hbound⟩
        refine ⟨step :: before, now, jitter, e, after, _, reached, backoff, rfl,
          run_cons_of_step hstep hbefore, hretried, hbackoff, ?_⟩
        rw [handedOut_cons, ← Nat.add_assoc, ← elapsed_step hstep]
        exact hbound
      · rw [hrest] at h
        cases h

/-- The steps can be made exactly if their delays together are not too long. -/
theorem exists_run_iff :
    (exists made last, policy.run steps = .ok (made, last)) <-> ¬ policy.Overruns steps := by
  constructor
  · rintro ⟨made, last, hrun⟩
    exact not_overruns_of_run hrun
  · intro hfits
    rcases hrun : policy.run steps with overflow | ⟨made, last⟩
    · exact absurd (overruns_of_run_error hrun) hfits
    · exact ⟨made, last, rfl⟩

/-!
## The budget
-/

/-- What the attempts and the delays of a policy come to, once some steps have been made. -/
structure KeepsBudget (retries : Nat) (retriesAllowed : Bool) (made : List Transition)
    (last : Policy) : Prop where
  /-- A step answers the state behind it. -/
  answers : forall t, t ∈ made -> t.answer = t.after
  /-- The number of the attempt never falls. -/
  grows : forall t, t ∈ made -> t.before.attempt ≤ t.after.attempt
  /-- The attempts are the first one and one for each delay that has passed. -/
  attempts : last.attempt = 1 + made.countP Transition.isResumption
  bounded : 1 ≤ last.attempt ∧ last.attempt ≤ retries + 1
  backsOff :
    forall {n delay}, last.state = .backingOff n delay -> n ≤ retries ∧ retriesAllowed = true
  exhausted : forall {n}, last.state = .failedExhausted n -> n = retries + 1
  elapsed : last.elapsed.nanos = handedOut made

/-- A policy keeps its budget in any order of successes, failures and passed delays, whatever
state it is told of them in. -/
theorem budget_holds_in_any_order {strategy : Strategy} {predicate : Predicate}
    {rateLimit : RateLimit.Config} {retriesAllowed : Bool}
    (hretries : strategy.maxRetries? = some retries)
    (hrun : (start strategy predicate rateLimit retriesAllowed).run steps = .ok (made, last)) :
    Links (.attempting 1) steps made last.state ∧
      KeepsBudget retries retriesAllowed made last := by
  have hstart := inBudget_start hretries predicate rateLimit retriesAllowed
  have hsteps := forall_run (I := InBudget retries retriesAllowed)
    (P := fun t => t.answer = t.after ∧ t.before.attempt ≤ t.after.attempt)
    (fun hpolicy hstep => ⟨hpolicy.kept hstep, answer_eq hstep, attempt_le_step hstep⟩)
    hstart hrun
  have hwithin := hsteps.1.state
  refine ⟨links_run hrun, ?_⟩
  constructor
  · exact fun t ht => (hsteps.2 t ht).1
  · exact fun t ht => (hsteps.2 t ht).2
  · exact attempt_run hrun
  · exact hwithin.attempt
  · intro n delay hstate
    rw [hstate] at hwithin
    exact hwithin.2
  · intro n hstate
    rw [hstate] at hwithin
    exact hwithin
  · exact (elapsed_run hrun).trans (Nat.zero_add _)

end Policy

namespace Sample

/-- Steps that no call makes: delays pass that nobody waits for, and failures follow failures and
successes. -/
def disorder : List Policy.Step :=
  [.resume, .failure ⟨0⟩ .whole .timeout, .failure ⟨0⟩ .whole .timeout, .success,
    .failure ⟨0⟩ .whole .canceled, .failure ⟨0⟩ .whole .timeout, .resume, .resume,
    .failure ⟨0⟩ .whole .timeout]

/-- One retry is all that they get out of a policy with one. -/
theorem disorder_keeps_budget :
    exists made last, Strategy.maxRetries? (.linear (.ofMillis 5) 1) = some 1 ∧
      (Policy.start (.linear (.ofMillis 5) 1) .retryable .default true).run disorder =
        .ok (made, last) ∧
      last.state = .failedExhausted 2 ∧ last.elapsed = .ofMillis 15 ∧
      Policy.Links (.attempting 1) disorder made last.state ∧
      Policy.KeepsBudget 1 true made last := by
  have hretries : Strategy.maxRetries? (.linear (.ofMillis 5) 1) = some 1 := rfl
  obtain ⟨made, last, hrun, hstate, helapsed⟩ : exists made last,
      (Policy.start (.linear (.ofMillis 5) 1) .retryable .default true).run disorder =
        .ok (made, last) ∧
      last.state = .failedExhausted 2 ∧ last.elapsed = .ofMillis 15 := ⟨_, _, rfl, rfl, rfl⟩
  exact ⟨made, last, hretries, hrun, hstate, helapsed,
    Policy.budget_holds_in_any_order hretries hrun⟩

end Sample
end RestClient
