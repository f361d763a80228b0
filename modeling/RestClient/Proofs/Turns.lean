import RestClient.Proofs.Rejections
import RestClient.Proofs.RetryBudget
import RestClient.Proofs.UnderWay
import RestClient.Proofs.Waits

/-!
# The turns of a call

An attempt tells the policy of its call of one failure at most.  What follows depends on where the
policy stands then: it gives up and the call is over, or it backs off, hands one delay to the
sleeper and resumes.  Everything else that ends a call leaves the policy as it was.
-/

namespace RestClient

variable {σ α : Type}

/-- The call ends for a reason that has nothing to do with its replies. -/
def Halt.IsOutside (halt : Halt) : Prop :=
  halt = .failed .canceled ∨ halt = .expired ∨ halt = .pending

theorem Halt.IsOutside.ne_overflow {halt : Halt} (h : halt.IsOutside) (cause : Overflow) :
    halt ≠ .overflow cause := by
  rintro rfl
  rcases h with h | h | h <;> cases h

namespace Client

variable {client : Client} {path : String} {horizon limit : Option Nat} {prepared : HttpRequest}
  {policy next : Policy} {e : Error} {halt : Halt} {w w₁ w' : World σ}

/-!
## Waiting
-/

theorem isOutside_wait (h : client.wait horizon limit w = (.error halt, w')) :
    halt.IsOutside := by
  unfold wait at h
  rcases hwait : w.wait client.cancel horizon limit with ⟨waking, w₁⟩
  rw [hwait] at h
  cases waking with
  | reached => cases h
  | canceled =>
    cases h
    exact Or.inl rfl
  | expired =>
    cases h
    exact Or.inr (Or.inl rfl)
  | never =>
    cases h
    exact Or.inr (Or.inr rfl)

theorem isOutside_awaitTimeout (h : client.awaitTimeout horizon limit w = (.error halt, w')) :
    halt.IsOutside := by
  unfold awaitTimeout at h
  rcases hwait : client.wait horizon limit w with ⟨cut | _, w₁⟩
  · rw [hwait] at h
    cases h
    exact isOutside_wait hwait
  · rw [hwait] at h
    cases h

theorem isOutside_receive {reply : Reply}
    (h : client.receive horizon reply w = (.error halt, w')) : halt.IsOutside := by
  unfold receive at h
  dsimp only at h
  by_cases hlimit : (client.limit w).all (w.now + reply.wait.ticks ≤ ·) = true
  · rw [if_pos hlimit] at h
    rcases hwait : client.wait horizon (some (w.now + reply.wait.ticks)) w with ⟨cut | _, w₁⟩
    · rw [hwait] at h
      cases h
      exact isOutside_wait hwait
    · rw [hwait] at h
      dsimp only at h
      unfold deliver at h
      cases houtcome : reply.outcome with
      | none =>
        rw [houtcome] at h
        exact isOutside_awaitTimeout h
      | some outcome =>
        rw [houtcome] at h
        cases h
  · rw [if_neg hlimit] at h
    exact isOutside_awaitTimeout h

theorem isOutside_pause {delay : Duration}
    (h : client.pause horizon delay w = (.error halt, w')) : halt.IsOutside := by
  unfold pause at h
  dsimp only at h
  by_cases hcanceled : (w.note (.paused delay)).isCanceled client.cancel = true
  · rw [if_pos hcanceled] at h
    cases h
    exact Or.inl rfl
  · rw [if_neg hcanceled] at h
    cases hsleeper : client.sleeper with
    | skip =>
      rw [hsleeper] at h
      cases h
    | timer =>
      rw [hsleeper] at h
      exact isOutside_wait h

section Exchange

variable [Transport σ]

theorem isOutside_exchange {n : Nat}
    (h : client.exchange horizon prepared n w = (.error halt, w')) : halt.IsOutside := by
  cases hcanceled : w.isCanceled client.cancel with
  | true =>
    rw [exchange_of_canceled hcanceled] at h
    cases h
    exact Or.inl rfl
  | false =>
    rw [exchange_of_open hcanceled] at h
    exact isOutside_receive h

theorem delays_exchange (client : Client) (horizon : Option Nat) (prepared : HttpRequest) (n : Nat)
    (w : World σ) : (client.exchange horizon prepared n w).2.delays = w.delays := by
  cases hcanceled : w.isCanceled client.cancel with
  | true => exact (requests_exchange_of_canceled hcanceled horizon prepared n).2.1
  | false => exact (requests_exchange_of_open hcanceled horizon prepared n).2.1

end Exchange

/-!
## One attempt
-/

theorem judge_eq_error [Json.Decode α] {clock : Moment} {n : Nat}
    {outcome : Except TransportFault HttpResponse} {overflow : Overflow}
    (h : (judge clock n outcome : Except Overflow (Verdict α)) = .error overflow) :
    overflow = .resetTime := by
  cases outcome with
  | error fault => cases h
  | ok response =>
    unfold judge at h
    by_cases hsuccess : response.status.isSuccess = true
    · simp only [if_pos hsuccess] at h
      cases h
    · simp only [if_neg hsuccess] at h
      unfold ApiError.ofResponse at h
      rcases RateLimit.ofHeaders_cases clock response.headers with
        ⟨⟨info, hinfo⟩, _⟩ | ⟨hlate, _⟩
      · rw [hinfo] at h
        cases h
      · rw [hlate] at h
        cases h
        rfl

variable [Transport σ]

/-- The attempt with this policy fails with an error, and the policy, which is told of it in this
world, goes on to the next one. -/
inductive Fails (α : Type) [Json.Decode α] (client : Client) (path : String)
    (horizon : Option Nat) (prepared : HttpRequest) (policy : Policy) (w : World σ) (e : Error)
    (next : Policy) : World σ -> Prop where
  | mk {outcome : Except TransportFault HttpResponse} {verdict : Verdict α} {w₁ w₂ : World σ}
      (hexchange : client.exchange horizon prepared policy.attempt w = (.ok outcome, w₁))
      (hjudge : judge w₁.clock policy.attempt outcome = .ok verdict)
      (hresult : verdict.result = .error e)
      (htold : w₂ = (w₁.reportAll verdict.events).report
        (.failed e policy.attempt prepared.method path))
      (hrecord : policy.recordFailure w₂.clock (w₂.jitter w₂.delays.length) e = .ok next) :
      Fails α client path horizon prepared policy w e next w₂

variable [Json.Decode α]

theorem delays_told (path : String) {outcome : Except TransportFault HttpResponse}
    {verdict : Verdict α}
    (hexchange : client.exchange horizon prepared policy.attempt w = (.ok outcome, w₁))
    (hjudge : judge w₁.clock policy.attempt outcome = .ok verdict)
    (hresult : verdict.result = .error e) :
    ((w₁.reportAll verdict.events).report
      (.failed e policy.attempt prepared.method path)).delays = w.delays := by
  have hreceived := client.delays_exchange horizon prepared policy.attempt w
  have hne : e ≠ .canceled := fun hcanceled => judge_ne_canceled hjudge (hcanceled ▸ hresult)
  have hfailed := World.drifts_report (w₁.reportAll verdict.events)
    (.failed e policy.attempt prepared.method path) (by simpa [Event.failure?] using hne)
  rw [hexchange] at hreceived
  rw [hfailed.sameTraffic.delays, (drifts_verdict hjudge w₁).sameTraffic.delays, hreceived]

namespace Fails

theorem delays (h : Fails α client path horizon prepared policy w e next w₁) :
    w₁.delays = w.delays := by
  cases h with
  | mk hexchange hjudge hresult htold hrecord =>
    rw [htold]
    exact delays_told path hexchange hjudge hresult

theorem delays_retrying (h : Fails α client path horizon prepared policy w e next w₁)
    (delay : Duration) :
    (w₁.report (.retrying delay policy.attempt e.rateLimit?.isSome)).delays = w.delays := by
  have hretrying := World.drifts_report w₁
    (.retrying delay policy.attempt e.rateLimit?.isSome) (by simp [Event.failure?])
  rw [hretrying.sameTraffic.delays, h.delays]

theorem recordFailure_eq (h : Fails α client path horizon prepared policy w e next w₁) :
    policy.recordFailure w₁.clock (w₁.jitter w₁.delays.length) e = .ok next := by
  cases h with
  | mk hexchange hjudge hresult htold hrecord => exact hrecord

theorem attempt_eq (h : Fails α client path horizon prepared policy w e next w₁) :
    (client.attempt path horizon prepared policy w : Progress α × World σ) =
      match next.state with
      | .backingOff _ delay =>
        match client.pause horizon delay
          (w₁.report (.retrying delay policy.attempt e.rateLimit?.isSome)) with
        | (.error halt, w₂) => (.ended (.error halt), w₂)
        | (.ok _, w₂) => (.again next.resume, w₂)
      | .failedExhausted made =>
        (.ended (.error (.failed e)), w₁.report (.exhausted made next.elapsed))
      | _ => (.ended (.error (.failed e)), w₁) := by
  cases h with
  | mk hexchange hjudge hresult htold hrecord =>
    subst htold
    rw [attempt_of_verdict hexchange hjudge]
    unfold conclude
    rw [hresult]
    dsimp only
    unfold afterFailure
    dsimp only
    cases hsame : policy.recordFailure _ _ e with
    | error overflow => cases hrecord.symm.trans hsame
    | ok same =>
      cases hrecord.symm.trans hsame
      rfl

theorem attempt_of_isTerminal (h : Fails α client path horizon prepared policy w e next w₁)
    (hterminal : next.state.isTerminal = true) :
    exists w', w'.delays = w.delays ∧ client.attempt path horizon prepared policy w =
      ((.ended (.error (.failed e)), w') : Progress α × World σ) := by
  have hattempt := h.attempt_eq
  rw [← h.delays]
  cases hstate : next.state with
  | attempting n =>
    rw [hstate] at hterminal
    cases hterminal
  | backingOff n delay =>
    rw [hstate] at hterminal
    cases hterminal
  | succeeded n =>
    rw [hstate] at hattempt
    exact ⟨w₁, rfl, hattempt⟩
  | failedTerminal n =>
    rw [hstate] at hattempt
    exact ⟨w₁, rfl, hattempt⟩
  | failedExhausted n =>
    rw [hstate] at hattempt
    have hreported := World.drifts_report w₁ (.exhausted n next.elapsed) (by simp [Event.failure?])
    exact ⟨_, hreported.sameTraffic.delays, hattempt⟩

end Fails

/-- All that an attempt can come to. -/
inductive Turn (α : Type) [Json.Decode α] (client : Client) (path : String)
    (horizon : Option Nat) (prepared : HttpRequest) (policy : Policy) (w : World σ) :
    Progress α × World σ -> Prop where
  | halted {halt : Halt} {w' : World σ} (hhalt : halt.IsOutside) (hdelays : w'.delays = w.delays) :
      Turn α client path horizon prepared policy w (.ended (.error halt), w')
  | undated {w' : World σ} (hdelays : w'.delays = w.delays) :
      Turn α client path horizon prepared policy w (.ended (.error (.overflow .resetTime)), w')
  | answered {response : Response α} {w' : World σ} (hdelays : w'.delays = w.delays) :
      Turn α client path horizon prepared policy w (.ended (.ok response), w')
  | overruns {now : Moment} {jitter : Jitter} {e : Error} {w' : World σ}
      (hrecord : policy.recordFailure now jitter e = .error .totalBackoff)
      (hdelays : w'.delays = w.delays) :
      Turn α client path horizon prepared policy w (.ended (.error (.overflow .totalBackoff)), w')
  | givesUp {e : Error} {next : Policy} {w₁ w' : World σ}
      (hfails : Fails α client path horizon prepared policy w e next w₁)
      (hterminal : next.state.isTerminal = true) (hdelays : w'.delays = w.delays) :
      Turn α client path horizon prepared policy w (.ended (.error (.failed e)), w')
  | cut {e : Error} {next : Policy} {delay : Duration} {halt : Halt} {w₁ w' : World σ}
      (hfails : Fails α client path horizon prepared policy w e next w₁)
      (hstate : next.state = .backingOff policy.attempt delay) (hhalt : halt.IsOutside)
      (hdelays : w'.delays = w.delays ++ [delay]) :
      Turn α client path horizon prepared policy w (.ended (.error halt), w')
  | goesOn {e : Error} {next : Policy} {delay : Duration} {w₁ w' : World σ}
      (hfails : Fails α client path horizon prepared policy w e next w₁)
      (hstate : next.state = .backingOff policy.attempt delay)
      (hdelays : w'.delays = w.delays ++ [delay]) :
      Turn α client path horizon prepared policy w (.again next.resume, w')

theorem turn_of_backingOff {delay : Duration}
    (hfails : Fails α client path horizon prepared policy w e next w₁)
    (hstate : next.state = .backingOff policy.attempt delay) :
    Turn α client path horizon prepared policy w
      (client.attempt path horizon prepared policy w) := by
  have hdelays := client.delays_pause horizon delay
    (w₁.report (.retrying delay policy.attempt e.rateLimit?.isSome))
  rw [hfails.delays_retrying] at hdelays
  rw [hfails.attempt_eq, hstate]
  dsimp only
  rcases hpause : client.pause horizon delay
    (w₁.report (.retrying delay policy.attempt e.rateLimit?.isSome)) with ⟨halt | _, w₂⟩
  · rw [hpause] at hdelays
    exact .cut hfails hstate (isOutside_pause hpause) hdelays
  · rw [hpause] at hdelays
    exact .goesOn hfails hstate hdelays

theorem turn_of_fails (hfails : Fails α client path horizon prepared policy w e next w₁) :
    Turn α client path horizon prepared policy w
      (client.attempt path horizon prepared policy w) := by
  have hends : next.state.isTerminal = true -> Turn α client path horizon prepared policy w
      (client.attempt path horizon prepared policy w) := by
    intro hterminal
    rcases hfails.attempt_of_isTerminal hterminal with ⟨w', hdelays, hattempt⟩
    rw [hattempt]
    exact .givesUp hfails hterminal hdelays
  cases Policy.recorded hfails.recordFailure_eq with
  | terminal hrejected => exact hends rfl
  | exhausted hallowed hpredicate hnone => exact hends rfl
  | backsOff hallowed hpredicate hbackoff helapsed => exact turn_of_backingOff hfails rfl

theorem turn_attempt (client : Client) (path : String) (horizon : Option Nat)
    (prepared : HttpRequest) (policy : Policy) (w : World σ) :
    Turn α client path horizon prepared policy w
      (client.attempt path horizon prepared policy w) := by
  have hreceived := client.delays_exchange horizon prepared policy.attempt w
  rcases hexchange : client.exchange horizon prepared policy.attempt w with ⟨halt | outcome, w₁⟩
  · rw [hexchange] at hreceived
    rw [attempt_of_halt hexchange]
    exact .halted (isOutside_exchange hexchange) hreceived
  · rw [hexchange] at hreceived
    cases hjudge : (judge w₁.clock policy.attempt outcome : Except Overflow (Verdict α)) with
    | error overflow =>
      rw [attempt_of_overflow hexchange hjudge, judge_eq_error hjudge]
      exact .undated hreceived
    | ok verdict =>
      cases hresult : verdict.result with
      | ok response =>
        have hreported := (drifts_verdict hjudge w₁).sameTraffic
        rw [attempt_of_verdict hexchange hjudge]
        unfold conclude
        rw [hresult]
        exact .answered (hreported.delays.trans hreceived)
      | error e =>
        have hdelays := delays_told path hexchange hjudge hresult
        cases hrecord : policy.recordFailure _ _ e with
        | ok next => exact turn_of_fails (.mk hexchange hjudge hresult rfl hrecord)
        | error overflow =>
          rcases Policy.recordFailure_error hrecord with ⟨rfl, _⟩
          rw [attempt_of_verdict hexchange hjudge]
          unfold conclude
          rw [hresult]
          dsimp only
          unfold afterFailure
          dsimp only
          rw [hrecord]
          exact .overruns hrecord hdelays

/-!
## Whole calls
-/

theorem UnderWay.attempt_lt_of_again {request : Request} {retries : Nat}
    (hretries : client.strategy.maxRetries? = some retries)
    (h : UnderWay α client request prepared w policy w₁)
    (hattempt : client.attempt request.path (client.horizon w) prepared policy w₁ =
      ((.again next, w') : Progress α × World σ)) :
    policy.attempt < client.strategy.attemptLimit := by
  have hturn := turn_attempt (α := α) client request.path (client.horizon w) prepared policy w₁
  rw [hattempt] at hturn
  cases hturn with
  | goesOn hfails hstate hdelays =>
    have hretried := ((Policy.recorded hfails.recordFailure_eq).of_backingOff hstate).1
    have hleft : ¬ retries < policy.attempt := by
      intro hover
      refine hretried (Or.inr (Or.inr ?_))
      rw [h.inFlight.strategy]
      exact (Strategy.nominal?_eq_none_iff hretries h.one_le_attempt).mpr hover
    unfold Strategy.attemptLimit
    rw [hretries]
    exact Nat.lt_succ_of_le (Nat.le_of_not_lt hleft)

/-- A call whose strategy knows how many retries there are ends with one of its attempts. -/
theorem UnderWay.exists_ended {request : Request} {retries fuel : Nat}
    (hretries : client.strategy.maxRetries? = some retries)
    (h : UnderWay α client request prepared w policy w₁)
    (hfuel : policy.attempt + fuel = client.strategy.attemptLimit)
    {result : Except Halt (Response α)}
    (hresult : client.attempts request.path (client.horizon w) prepared (fuel + 1) policy w₁ =
      (result, w')) :
    exists last w₂, UnderWay α client request prepared w last w₂ ∧
      client.attempt request.path (client.horizon w) prepared last w₂ = (.ended result, w') := by
  induction fuel generalizing policy w₁ with
  | zero =>
    unfold attempts at hresult
    rcases hattempt : (client.attempt request.path (client.horizon w) prepared policy w₁ :
      Progress α × World σ) with ⟨ended | next, w₂⟩
    · rw [hattempt] at hresult
      cases hresult
      exact ⟨policy, w₁, h, hattempt⟩
    · exact absurd hfuel (Nat.ne_of_lt (h.attempt_lt_of_again hretries hattempt))
  | succ fuel ih =>
    unfold attempts at hresult
    rcases hattempt : (client.attempt request.path (client.horizon w) prepared policy w₁ :
      Progress α × World σ) with ⟨ended | next, w₂⟩
    · rw [hattempt] at hresult
      cases hresult
      exact ⟨policy, w₁, h, hattempt⟩
    · rw [hattempt] at hresult
      have hnext := inFlight_of_again h.inFlight hattempt
      refine ih (.again h (h.attempt_lt_of_again hretries hattempt) hattempt) ?_ hresult
      rw [hnext.attempt_eq, ← hfuel, Nat.add_right_comm, Nat.add_assoc]

theorem exists_ended_of_callUntil {request : Request} {body : Option Payload} {retries : Nat}
    (hretries : client.strategy.maxRetries? = some retries)
    (hprepare : client.prepare request body = .ok prepared) {result : Except Halt (Response α)}
    (hresult : client.callUntil (client.horizon w) request body w = (result, w')) :
    exists last w₂, UnderWay α client request prepared w last w₂ ∧
      client.attempt request.path (client.horizon w) prepared last w₂ = (.ended result, w') := by
  have hlimit : client.strategy.attemptLimit = retries + 1 := by
    unfold Strategy.attemptLimit
    rw [hretries]
  rw [callUntil_of_ok hprepare, hlimit] at hresult
  refine UnderWay.exists_ended hretries .first ?_ hresult
  rw [(inFlight_policy client request).attempt_eq, hlimit, Nat.add_comm]

end Client
end RestClient
