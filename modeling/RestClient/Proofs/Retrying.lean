import RestClient.Proofs.Moves

/-!
# What follows a failure

A failure is final if the request must not be repeated, the predicate rejects it or the strategy
has no delay left; after any other failure the call pauses and makes the next attempt.
-/

namespace RestClient

theorem Strategy.delay?_eq_none_iff {strategy : Strategy} {retry : Nat} {jitter : Jitter} :
    strategy.delay? retry jitter = none <-> strategy.nominal? retry = none := by
  unfold Strategy.delay?
  exact Option.map_eq_none_iff

theorem Strategy.delay?_of_unjittered {strategy : Strategy} (h : strategy.hasJitter = false)
    (retry : Nat) (jitter : Jitter) : strategy.delay? retry jitter = strategy.nominal? retry := by
  unfold delay?
  rw [h]
  exact Option.map_id'

theorem Strategy.nominal?_eq_none_iff {strategy : Strategy} {retries retry : Nat}
    (h : strategy.maxRetries? = some retries) (hretry : 1 ≤ retry) :
    strategy.nominal? retry = none <-> retries < retry := by
  cases strategy with
  | never =>
    cases h
    exact ⟨fun _ => hretry, fun _ => rfl⟩
  | exponential initial longest maxRetries jitter =>
    cases h
    exact ite_eq_left_iff.trans (by simp)
  | linear delay maxRetries =>
    cases h
    exact ite_eq_left_iff.trans (by simp)
  | custom delay? => cases h

theorem Strategy.attemptLimit_eq_succ (strategy : Strategy) :
    exists retries, strategy.attemptLimit = retries + 1 := by
  unfold attemptLimit
  cases strategy.maxRetries? with
  | some retries => exact ⟨retries, rfl⟩
  | none => exact ⟨UInt64.size - 1, rfl⟩

/-!
## Policies
-/

namespace Policy

variable {policy : Policy} {e : Error}

def GivesUp (policy : Policy) (e : Error) : Prop :=
  policy.retriesAllowed = false ∨ policy.predicate e policy.attempt = false ∨
    policy.strategy.nominal? policy.attempt = none

def BacksOff (policy : Policy) (now : Moment) (jitter : Jitter) (e : Error) : Prop :=
  exists next delay, policy.recordFailure now jitter e = .ok next ∧
    next.state = .backingOff policy.attempt delay

theorem recordFailure_of_givesUp (h : policy.GivesUp e) (now : Moment) (jitter : Jitter) :
    policy.recordFailure now jitter e =
        .ok { policy with state := .failedTerminal policy.attempt } ∨
      policy.recordFailure now jitter e =
        .ok { policy with state := .failedExhausted policy.attempt } := by
  unfold recordFailure
  dsimp only
  by_cases hrejected : (!policy.retriesAllowed || !policy.predicate e policy.attempt) = true
  · exact Or.inl (if_pos hrejected)
  · right
    have hnone : policy.strategy.nominal? policy.attempt = none := by
      rcases h with h | h | h
      · simp [h] at hrejected
      · simp [h] at hrejected
      · exact h
    rw [if_neg hrejected, Strategy.delay?_eq_none_iff.mpr hnone]

theorem recordFailure_of_not_givesUp (h : ¬ policy.GivesUp e) (now : Moment)
    (jitter : Jitter) :
    exists backoff, policy.strategy.delay? policy.attempt jitter = some backoff ∧
      policy.recordFailure now jitter e =
        match policy.elapsed.add? (policy.delayAfter now e backoff) with
        | none => .error .totalBackoff
        | some elapsed =>
          .ok { policy with
            state := .backingOff policy.attempt (policy.delayAfter now e backoff), elapsed } := by
  unfold recordFailure
  dsimp only
  have hallowed : ¬ (!policy.retriesAllowed || !policy.predicate e policy.attempt) = true := by
    intro hrejected
    rw [Bool.or_eq_true, Bool.not_eq_true', Bool.not_eq_true'] at hrejected
    exact h (hrejected.elim Or.inl fun hpredicate => Or.inr (Or.inl hpredicate))
  rw [if_neg hallowed]
  cases hdelay : policy.strategy.delay? policy.attempt jitter with
  | none => exact absurd (Or.inr (Or.inr (Strategy.delay?_eq_none_iff.mp hdelay))) h
  | some backoff => exact ⟨backoff, rfl, rfl⟩

theorem not_givesUp_of_delay {backoff : Duration} {jitter : Jitter}
    (hallowed : policy.retriesAllowed = true)
    (hpredicate : policy.predicate e policy.attempt = true)
    (hbackoff : policy.strategy.delay? policy.attempt jitter = some backoff) :
    ¬ policy.GivesUp e := by
  rintro (h | h | h)
  · rw [hallowed] at h
    cases h
  · rw [hpredicate] at h
    cases h
  · rw [Strategy.delay?_eq_none_iff.mpr h] at hbackoff
    cases hbackoff

end Policy

/-!
## Calls
-/

namespace Client

open World (Drifts)

variable {σ α : Type} {client : Client} {request : Request} {policy : Policy} {n : Nat}
  {e : Error} {w : World σ}

/-- The policy belongs to a call of the client and its attempt `n` is in flight. -/
structure InFlight (client : Client) (request : Request) (n : Nat) (policy : Policy) : Prop where
  strategy : policy.strategy = client.strategy
  predicate : policy.predicate = client.predicate
  rateLimit : policy.rateLimit = client.rateLimit
  retriesAllowed : policy.retriesAllowed = request.idempotent
  state : policy.state = .attempting n

def IsFinal (client : Client) (request : Request) (n : Nat) (e : Error) : Prop :=
  request.idempotent = false ∨ client.predicate e n = false ∨ client.strategy.nominal? n = none

/-- Attempt `n` with this outcome is the last one of its call. -/
def Decides (client : Client) (request : Request) (n : Nat) :
    Except Error (Response α) -> Prop
  | .ok _ => True
  | .error e => client.IsFinal request n e

theorem inFlight_policy (client : Client) (request : Request) :
    client.InFlight request 1 (client.policy request) :=
  ⟨rfl, rfl, rfl, rfl, rfl⟩

theorem InFlight.attempt_eq (h : client.InFlight request n policy) : policy.attempt = n := by
  unfold Policy.attempt
  rw [h.state]
  rfl

theorem InFlight.givesUp_iff (h : client.InFlight request n policy) :
    policy.GivesUp e <-> client.IsFinal request n e := by
  unfold Policy.GivesUp IsFinal
  rw [h.retriesAllowed, h.predicate, h.strategy, h.attempt_eq]

theorem InFlight.resume (h : client.InFlight request n policy) (delay elapsed : Duration) :
    client.InFlight request (n + 1)
      { policy with state := .backingOff n delay, elapsed }.resume :=
  ⟨h.strategy, h.predicate, h.rateLimit, h.retriesAllowed, rfl⟩

theorem afterFailure_of_isFinal (hpolicy : client.InFlight request n policy)
    (hfinal : client.IsFinal request n e) (he : e ≠ .canceled) (path : String)
    (horizon : Option Nat) (method : Method) (w : World σ) :
    exists w', Drifts w w' ∧
      client.afterFailure path horizon method policy e w =
        ((.ended (.error (.failed e)), w') : Progress α × World σ) := by
  have hfailed : Drifts w (w.report (.failed e policy.attempt method path)) :=
    World.drifts_report w _ (by simpa [Event.failure?] using he)
  have hfinish := Policy.recordFailure_of_givesUp (hpolicy.givesUp_iff.mpr hfinal)
    (w.report (.failed e policy.attempt method path)).clock
    ((w.report (.failed e policy.attempt method path)).jitter
      (w.report (.failed e policy.attempt method path)).delays.length)
  unfold afterFailure
  dsimp only
  rcases hfinish with h | h
  · exact ⟨_, hfailed, by rw [h]⟩
  · refine ⟨_, hfailed.trans ?_, by rw [h]⟩
    exact World.drifts_report _ _ (by simp [Event.failure?])

theorem afterFailure_of_not_isFinal (hpolicy : client.InFlight request n policy)
    (hretried : ¬ client.IsFinal request n e) (he : e ≠ .canceled) (path : String)
    (horizon : Option Nat) (method : Method) (w : World σ) :
    exists w₁, Drifts w w₁ ∧
      (client.afterFailure path horizon method policy e w =
          ((.ended (.error (.overflow .totalBackoff)), w₁) : Progress α × World σ) ∨
        exists delay next, client.InFlight request (n + 1) next ∧
          client.afterFailure path horizon method policy e w =
            ((match client.pause horizon delay w₁ with
              | (.error halt, w₂) => (.ended (.error halt), w₂)
              | (.ok _, w₂) => (.again next, w₂)) : Progress α × World σ)) := by
  have hfailed : Drifts w (w.report (.failed e policy.attempt method path)) :=
    World.drifts_report w _ (by simpa [Event.failure?] using he)
  rcases Policy.recordFailure_of_not_givesUp (fun h => hretried (hpolicy.givesUp_iff.mp h))
    (w.report (.failed e policy.attempt method path)).clock
    ((w.report (.failed e policy.attempt method path)).jitter
      (w.report (.failed e policy.attempt method path)).delays.length)
    with ⟨backoff, _, hrecord⟩
  unfold afterFailure
  dsimp only
  rw [hrecord]
  cases policy.elapsed.add? (policy.delayAfter _ e backoff) with
  | none => exact ⟨_, hfailed, Or.inl rfl⟩
  | some elapsed =>
    refine ⟨_, hfailed.trans (World.drifts_report _ _ ?_), Or.inr ⟨_, _, ?_, rfl⟩⟩
    · simp [Event.failure?]
    · rw [hpolicy.attempt_eq]
      exact hpolicy.resume _ elapsed

end Client
end RestClient
