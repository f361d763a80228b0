import RestClient.Proofs.Turns

/-!
# The state diagram of a policy

The diagram of a retry policy has five arrows.  A policy follows them as long as it is told of the
outcomes of attempts only while an attempt is in flight, and a call tells it of nothing else.  It
does not see to that itself, though: an outcome that it is told of in any other state is taken for
that of an attempt in flight.
-/

namespace RestClient
namespace Policy

variable {policy next : Policy} {step : Step} {answer : RetryState}

/-- The arrows of the diagram, each with the step that takes it. -/
inductive Diagram : RetryState -> Step -> RetryState -> Prop where
  | succeeds {n : Nat} : Diagram (.attempting n) .success (.succeeded n)
  | fails {n : Nat} {now : Moment} {jitter : Jitter} {e : Error} :
      Diagram (.attempting n) (.failure now jitter e) (.failedTerminal n)
  | backsOff {n : Nat} {now : Moment} {jitter : Jitter} {e : Error} {delay : Duration} :
      Diagram (.attempting n) (.failure now jitter e) (.backingOff n delay)
  | exhausts {n : Nat} {now : Moment} {jitter : Jitter} {e : Error} :
      Diagram (.attempting n) (.failure now jitter e) (.failedExhausted n)
  | resumes {n : Nat} {delay : Duration} :
      Diagram (.backingOff n delay) .resume (.attempting (n + 1))

/-- A step keeps to the diagram: it takes an arrow, or it has none and changes nothing.  The number
of the attempt is part of the state. -/
inductive KeepsTo (policy : Policy) (step : Step) (next : Policy) : Prop where
  | moves (harrow : Diagram policy.state step next.state)
  | stays (hnone : forall state, ¬ Diagram policy.state step state)
      (hstate : next.state = policy.state) (helapsed : next.elapsed = policy.elapsed)

/-!
## One step
-/

/-- A policy takes every outcome for that of an attempt in flight. -/
theorem diagram_of_outcome (h : policy.step step = .ok (answer, next)) (hstep : step ≠ .resume) :
    Diagram (.attempting policy.attempt) step next.state := by
  cases step with
  | success =>
    cases h
    exact .succeeds
  | failure now jitter e =>
    cases recorded (step_failure h).1 with
    | terminal hrejected => exact .fails
    | exhausted hallowed hpredicate hnone => exact .exhausts
    | backsOff hallowed hpredicate hbackoff helapsed => exact .backsOff
  | resume => exact absurd rfl hstep

theorem resume_eq_self (h : ¬ exists n delay, policy.state = .backingOff n delay) :
    policy.resume = policy := by
  unfold resume
  cases hstate : policy.state with
  | backingOff n delay => exact absurd ⟨n, delay, hstate⟩ h
  | attempting n => rfl
  | succeeded n => rfl
  | failedTerminal n => rfl
  | failedExhausted n => rfl

theorem keepsTo_resume (policy : Policy) : policy.KeepsTo .resume policy.resume := by
  by_cases hback : exists n delay, policy.state = .backingOff n delay
  · rcases hback with ⟨n, delay, hstate⟩
    refine .moves ?_
    unfold resume
    rw [hstate]
    exact .resumes
  · rw [resume_eq_self hback]
    refine .stays ?_ rfl rfl
    intro state harrow
    generalize hbefore : policy.state = before at harrow
    cases harrow with
    | resumes => exact hback ⟨_, _, hbefore⟩

theorem Diagram.isDue {before after : RetryState} (h : Diagram before step after) :
    step = .resume ∨ exists n, before = .attempting n := by
  cases h with
  | succeeds => exact Or.inr ⟨_, rfl⟩
  | fails => exact Or.inr ⟨_, rfl⟩
  | backsOff => exact Or.inr ⟨_, rfl⟩
  | exhausts => exact Or.inr ⟨_, rfl⟩
  | resumes => exact Or.inl rfl

theorem keepsTo_of_isDue (h : policy.step step = .ok (answer, next))
    (hdue : step = .resume ∨ exists n, policy.state = .attempting n) :
    policy.KeepsTo step next := by
  by_cases hstep : step = .resume
  · subst hstep
    cases h
    exact policy.keepsTo_resume
  · rcases hdue.resolve_left hstep with ⟨n, hstate⟩
    have hattempt : policy.attempt = n := by
      unfold attempt
      rw [hstate]
      rfl
    have harrow := diagram_of_outcome h hstep
    rw [hattempt, ← hstate] at harrow
    exact .moves harrow

/-- A step strays from the diagram exactly if it is the outcome of no attempt in flight and makes a
difference. -/
theorem keepsTo_iff (h : policy.step step = .ok (answer, next)) :
    policy.KeepsTo step next <->
      (step = .resume ∨ exists n, policy.state = .attempting n) ∨
        next.state = policy.state ∧ next.elapsed = policy.elapsed := by
  constructor
  · rintro (harrow | ⟨_, hstate, helapsed⟩)
    · exact Or.inl harrow.isDue
    · exact Or.inr ⟨hstate, helapsed⟩
  · rintro (hdue | ⟨hstate, helapsed⟩)
    · exact keepsTo_of_isDue h hdue
    · by_cases hdue : step = .resume ∨ exists n, policy.state = .attempting n
      · exact keepsTo_of_isDue h hdue
      · exact .stays (fun state harrow => hdue harrow.isDue) hstate helapsed

end Policy

/-!
## Calls
-/

namespace Client

variable {σ α : Type} [Transport σ] [Json.Decode α] {client : Client} {request : Request}
  {path : String} {horizon : Option Nat} {prepared : HttpRequest} {policy next : Policy}
  {e : Error} {w w₁ w₂ : World σ}

open Policy (KeepsTo)

theorem Fails.keepsTo (h : Fails α client path horizon prepared policy w e next w₁) {n : Nat}
    (hstate : policy.state = .attempting n) :
    policy.KeepsTo (.failure w₁.clock (w₁.jitter w₁.delays.length) e) next := by
  have hstep : policy.step (.failure w₁.clock (w₁.jitter w₁.delays.length) e) =
      .ok (next.state, next) := by
    unfold Policy.step
    dsimp only
    rw [h.recordFailure_eq]
  exact Policy.keepsTo_of_isDue hstep (Or.inr ⟨n, hstate⟩)

/-- How a call treats its policy, once it has come to an attempt: it tells the policy of what
becomes of the attempt, which is in flight, and it is over when the policy gives up. -/
structure Drives (α : Type) [Json.Decode α] (client : Client) (request : Request)
    (body : Option Payload) (prepared : HttpRequest) (w : World σ) (policy : Policy)
    (w₁ : World σ) : Prop where
  attempting : exists n, policy.state = .attempting n
  success : policy.KeepsTo .success policy.recordSuccess
  failure : forall {e : Error} {next : Policy} {w₂ : World σ},
    Fails α client request.path (client.horizon w) prepared policy w₁ e next w₂ ->
      policy.KeepsTo (.failure w₂.clock (w₂.jitter w₂.delays.length) e) next ∧
      next.KeepsTo .resume next.resume ∧
      (next.state.isTerminal = true -> exists w', client.call request body w =
        ((.error (.failed e), w') : Except Halt (Response α) × World σ))

theorem UnderWay.drives (h : UnderWay α client request prepared w policy w₁)
    {body : Option Payload} (hprepare : client.prepare request body = .ok prepared) :
    Drives α client request body prepared w policy w₁ := by
  have hstate := h.inFlight.state
  refine ⟨⟨_, hstate⟩, Policy.keepsTo_of_isDue rfl (Or.inr ⟨_, hstate⟩), ?_⟩
  intro e next w₂ hfails
  refine ⟨hfails.keepsTo hstate, next.keepsTo_resume, ?_⟩
  intro hterminal
  rcases hfails.attempt_of_isTerminal hterminal with ⟨w', _, hattempt⟩
  exact ⟨w', h.call_eq hprepare (by simp) hattempt⟩

end Client

namespace Policy

/-- Wherever some steps take a policy, it follows its diagram as long as it is told of outcomes
only while an attempt is in flight, as every call does.  Told of one elsewhere, it follows an arrow
that does not begin there. -/
theorem diagram_is_kept_by_due_outcomes {policy reached : Policy} {steps : List Step}
    {made : List Transition} (hrun : policy.run steps = .ok (made, reached)) :
    Links policy.state steps made reached.state ∧
      (forall step, reached.step step = .error .totalBackoff ∨
        exists next, reached.step step = .ok (next.state, next) ∧
          (reached.KeepsTo step next <->
            (step = .resume ∨ exists n, reached.state = .attempting n) ∨
              next.state = reached.state ∧ next.elapsed = reached.elapsed) ∧
          (step ≠ .resume -> Diagram (.attempting reached.attempt) step next.state)) ∧
      forall {σ α : Type} [Transport σ] [Json.Decode α] {client : Client} {request : Request}
        {body : Option Payload} {prepared : HttpRequest} {w w₁ : World σ},
        client.prepare request body = .ok prepared ->
          Client.UnderWay α client request prepared w reached w₁ ->
            Client.Drives α client request body prepared w reached w₁ := by
  refine ⟨links_run hrun, ?_, ?_⟩
  · intro step
    rcases hstep : reached.step step with overflow | ⟨answer, next⟩
    · rcases step_error hstep with ⟨now, jitter, e, _, hrecord⟩
      rw [(recordFailure_error hrecord).1]
      exact Or.inl rfl
    · have hanswer := answer_eq hstep
      subst hanswer
      exact Or.inr ⟨next, rfl, keepsTo_iff hstep, diagram_of_outcome hstep⟩
  · intro σ α _ _ client request body prepared w w₁ hprepare hunder
    exact hunder.drives hprepare

end Policy

namespace Sample

def afterthought : List Policy.Step := [.success, .failure ⟨0⟩ .whole .timeout, .resume]

/-- The success does not end it: a second attempt is in flight. -/
theorem afterthought_revives_call :
    exists made reached strayed next,
      (Policy.start (.linear (.ofMillis 5) 1) .retryable .default true).run
        (afterthought.take 1) = .ok (made, reached) ∧ reached.state = .succeeded 1 ∧
      reached.step (.failure ⟨0⟩ .whole .timeout) =
        .ok (.backingOff 1 (.ofMillis 5), strayed) ∧
      ¬ reached.KeepsTo (.failure ⟨0⟩ .whole .timeout) strayed ∧
      strayed.step .resume = .ok (.attempting 2, next) := by
  refine ⟨_, _, _, _, rfl, rfl, rfl, ?_, rfl⟩
  rintro (harrow | ⟨_, hstate, _⟩)
  · cases harrow
  · cases hstate

/-- A failure and the delay after it follow the arrows, and so does the sample call. -/
theorem retry_keeps_to_diagram :
    exists made reached next,
      (Policy.start (.linear (.ofMillis 5) 1) .retryable .default true).run
        (afterthought.drop 1) = .ok (made, reached) ∧
      Policy.Links (.attempting 1) (afterthought.drop 1) made (.attempting 2) ∧
      reached.step .success = .ok (next.state, next) ∧ next.state = .succeeded 2 ∧
      reached.KeepsTo .success next ∧
      client.prepare request none = .ok prepared ∧
      Client.Drives Unit client request none prepared (world []) (client.policy request)
        (world []) := by
  obtain ⟨made, reached, hrun, hstate⟩ : exists made reached,
      (Policy.start (.linear (.ofMillis 5) 1) .retryable .default true).run
        (afterthought.drop 1) = .ok (made, reached) ∧ reached.state = .attempting 2 :=
    ⟨_, _, rfl, rfl⟩
  have hprepare : client.prepare request none = .ok prepared := by decide +kernel
  have hnothing : (client.policy request).run [] = .ok ([], client.policy request) := rfl
  have hdrives := (Policy.diagram_is_kept_by_due_outcomes hnothing).2.2 (α := Unit)
    (w := world []) hprepare .first
  rcases Policy.diagram_is_kept_by_due_outcomes hrun with ⟨hlinks, hsteps, _⟩
  rw [hstate] at hlinks
  rcases hsteps .success with hoverflow | ⟨next, hstep, hkeeps, _⟩
  · cases hoverflow
  · have hnext : reached.recordSuccess = next := congrArg Prod.snd (Except.ok.inj hstep)
    have hsucceeded : next.state = .succeeded 2 := by
      rw [← hnext]
      unfold Policy.recordSuccess Policy.attempt
      rw [hstate]
      rfl
    exact ⟨made, reached, next, hrun, hlinks, hstep, hsucceeded,
      hkeeps.mpr (Or.inl (Or.inr ⟨2, hstate⟩)), hprepare, hdrives⟩

end Sample
end RestClient
