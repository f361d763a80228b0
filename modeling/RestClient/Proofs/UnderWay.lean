import RestClient.Proofs.Retrying

/-!
# Calls under way

A call goes from attempt to attempt.  The attempt that ends it gives the call its result, whatever
was before.
-/

namespace RestClient
namespace Client

variable {σ α : Type} [Transport σ] [Json.Decode α] {client : Client} {request : Request}
  {prepared : HttpRequest} {policy : Policy} {n : Nat} {w w₁ w₂ : World σ}

theorem inFlight_of_again (hpolicy : client.InFlight request n policy) {path : String}
    {horizon : Option Nat} {next : Policy}
    (h : client.attempt path horizon prepared policy w =
      ((.again next, w₂) : Progress α × World σ)) : client.InFlight request (n + 1) next := by
  rcases hexchange : client.exchange horizon prepared policy.attempt w with ⟨result, w₁⟩
  cases result with
  | error halt =>
    rw [attempt_of_halt hexchange path] at h
    cases h
  | ok outcome =>
    cases hjudge : (judge w₁.clock policy.attempt outcome : Except Overflow (Verdict α)) with
    | error overflow =>
      rw [attempt_of_overflow hexchange hjudge path] at h
      cases h
    | ok verdict =>
      have hne := judge_ne_canceled hjudge
      rw [attempt_of_verdict hexchange hjudge path] at h
      unfold conclude at h
      cases hresult : verdict.result with
      | ok response =>
        rw [hresult] at h
        cases h
      | error e =>
        have he : e ≠ .canceled := fun hcanceled => hne (hcanceled ▸ hresult)
        rw [hresult] at h
        dsimp only at h
        by_cases hfinal : client.IsFinal request n e
        · rcases afterFailure_of_isFinal (α := α) hpolicy hfinal he path horizon prepared.method
            (w₁.reportAll verdict.events) with ⟨w', _, hafter⟩
          rw [hafter] at h
          cases h
        · rcases afterFailure_of_not_isFinal (α := α) hpolicy hfinal he path horizon
            prepared.method (w₁.reportAll verdict.events)
            with ⟨w', _, hafter | ⟨delay, following, hfollowing, hafter⟩⟩
          · rw [hafter] at h
            cases h
          · rw [hafter] at h
            rcases hpause : client.pause horizon delay w' with ⟨paused, w''⟩
            rw [hpause] at h
            cases paused with
            | error halt => cases h
            | ok _ =>
              cases h
              exact hfollowing

/-- A call that began in the world `w` has come to an attempt with this policy, in this world. -/
inductive UnderWay (α : Type) [Json.Decode α] (client : Client) (request : Request)
    (prepared : HttpRequest) (w : World σ) : Policy -> World σ -> Prop where
  | first : UnderWay α client request prepared w (client.policy request) w
  | again {policy next : Policy} {w₁ w₂ : World σ}
      (hbefore : UnderWay α client request prepared w policy w₁)
      (hcount : policy.attempt < client.strategy.attemptLimit)
      (hattempt : client.attempt request.path (client.horizon w) prepared policy w₁ =
        ((.again next, w₂) : Progress α × World σ)) :
      UnderWay α client request prepared w next w₂

theorem UnderWay.inFlight (h : UnderWay α client request prepared w policy w₁) :
    client.InFlight request policy.attempt policy := by
  induction h with
  | first => exact inFlight_policy client request
  | again _ _ hattempt ih =>
    have hnext := inFlight_of_again ih hattempt
    rw [hnext.attempt_eq]
    exact hnext

theorem UnderWay.one_le_attempt (h : UnderWay α client request prepared w policy w₁) :
    1 ≤ policy.attempt := by
  cases h with
  | first => exact Nat.le_refl 1
  | again hbefore _ hattempt =>
    rw [(inFlight_of_again hbefore.inFlight hattempt).attempt_eq]
    exact Nat.le_add_left 1 _

theorem UnderWay.attempts_eq (h : UnderWay α client request prepared w policy w₁) :
    exists fuel, policy.attempt + fuel = client.strategy.attemptLimit ∧
      client.attempts request.path (client.horizon w) prepared client.strategy.attemptLimit
          (client.policy request) w =
        (client.attempts request.path (client.horizon w) prepared (fuel + 1) policy w₁ :
          Except Halt (Response α) × World σ) := by
  induction h with
  | first =>
    rcases client.strategy.attemptLimit_eq_succ with ⟨retries, hlimit⟩
    refine ⟨retries, ?_, by rw [hlimit]⟩
    rw [hlimit, (inFlight_policy client request).attempt_eq, Nat.add_comm]
  | again hbefore hcount hattempt ih =>
    rcases ih with ⟨fuel, hfuel, heq⟩
    have hnext := inFlight_of_again hbefore.inFlight hattempt
    rcases fuel with _ | fuel
    · omega
    refine ⟨fuel, ?_, ?_⟩
    · rw [hnext.attempt_eq]
      omega
    · rw [heq]
      conv => lhs; unfold attempts
      rw [hattempt]

theorem UnderWay.call_eq (h : UnderWay α client request prepared w policy w₁)
    {body : Option Payload} (hprepare : client.prepare request body = .ok prepared)
    {result : Except Halt (Response α)} (hresult : result ≠ .error .expired)
    (hattempt : client.attempt request.path (client.horizon w) prepared policy w₁ =
      (.ended result, w₂)) :
    client.call request body w = (result, w₂) := by
  rcases h.attempts_eq with ⟨fuel, _, heq⟩
  refine call_of_callUntil ?_ hresult
  rw [callUntil_of_ok hprepare, heq]
  unfold attempts
  rw [hattempt]

theorem UnderWay.call_of_isFinal (h : UnderWay α client request prepared w policy w₁)
    {body : Option Payload} (hprepare : client.prepare request body = .ok prepared)
    {outcome : Except TransportFault HttpResponse}
    (hexchange : client.exchange (client.horizon w) prepared policy.attempt w₁ =
      (.ok outcome, w₂))
    {verdict : Verdict α} (hjudge : judge w₂.clock policy.attempt outcome = .ok verdict)
    {e : Error} (hresult : verdict.result = .error e)
    (hfinal : client.IsFinal request policy.attempt e) :
    exists w', client.call request body w =
      ((.error (.failed e), w') : Except Halt (Response α) × World σ) ∧ World.Drifts w₂ w' := by
  have hne : e ≠ .canceled := fun hcanceled => judge_ne_canceled hjudge (hcanceled ▸ hresult)
  have hattempt := attempt_of_verdict hexchange hjudge request.path
  unfold conclude at hattempt
  rw [hresult] at hattempt
  dsimp only at hattempt
  rcases afterFailure_of_isFinal (α := α) h.inFlight hfinal hne request.path (client.horizon w)
    prepared.method (w₂.reportAll verdict.events) with ⟨w', hdrifts, hafter⟩
  rw [hafter] at hattempt
  exact ⟨w', h.call_eq hprepare (by simp) hattempt, (drifts_verdict hjudge w₂).trans hdrifts⟩

/-- Attempt `n` of the call that began in the world `w` has obtained this response. -/
inductive Obtains (α : Type) [Json.Decode α] (client : Client) (request : Request)
    (body : Option Payload) (w : World σ) (response : HttpResponse) : Nat -> Prop where
  | mk {prepared : HttpRequest} {policy : Policy} {w₁ w₂ : World σ}
      (hprepare : client.prepare request body = .ok prepared)
      (hunder : UnderWay α client request prepared w policy w₁)
      (hexchange : client.exchange (client.horizon w) prepared policy.attempt w₁ =
        (.ok (.ok response), w₂)) :
      Obtains α client request body w response policy.attempt

namespace Obtains

variable {body : Option Payload} {response : HttpResponse}

theorem call_of_ok (h : Obtains α client request body w response n) {received : Response α}
    (hjudge : forall clock, exists verdict, judge clock n (.ok response) = .ok verdict ∧
      verdict.result = .ok received) :
    exists w', client.call request body w = (.ok received, w') := by
  rcases h with @⟨prepared, policy, w₁, w₂, hprepare, hunder, hexchange⟩
  rcases hjudge w₂.clock with ⟨verdict, hverdict, hresult⟩
  have hattempt := attempt_of_verdict hexchange hverdict request.path
  unfold conclude at hattempt
  rw [hresult] at hattempt
  exact ⟨_, hunder.call_eq hprepare (by simp) hattempt⟩

theorem call_of_isFinal (h : Obtains α client request body w response n) {bad : Error -> Prop}
    (hjudge : forall clock, exists (verdict : Verdict α) (e : Error),
      judge clock n (.ok response) = .ok verdict ∧ verdict.result = .error e ∧ bad e)
    (hfinal : forall e, bad e -> client.IsFinal request n e) :
    exists e w', bad e ∧ (client.call request body w : Except Halt (Response α) × World σ) =
      (.error (.failed e), w') := by
  rcases h with @⟨prepared, policy, w₁, w₂, hprepare, hunder, hexchange⟩
  rcases hjudge w₂.clock with ⟨verdict, e, hverdict, hresult, hbad⟩
  rcases hunder.call_of_isFinal hprepare hexchange hverdict hresult (hfinal e hbad) with
    ⟨w', hcall, _⟩
  exact ⟨e, w', hbad, hcall⟩

end Obtains
end Client
end RestClient
