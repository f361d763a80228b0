import RestClient.Proofs.Creation

/-!
# What a call sends

Every request that a call sends is the one that it has prepared, however often it is repeated, and
nothing else that a call does reaches the other side of the network.
-/

namespace RestClient

variable {σ α : Type}

namespace World

variable {w w₁ w' : World σ}

/-- From the first world to the second one nothing was sent. -/
structure SendsNothing (w w' : World σ) : Prop where
  requests : w'.requests = w.requests
  transport : w'.transport = w.transport

theorem SendsNothing.trans (h : SendsNothing w w₁) (h' : SendsNothing w₁ w') :
    SendsNothing w w' :=
  ⟨h'.requests.trans h.requests, h'.transport.trans h.transport⟩

theorem Drifts.sendsNothing (h : Drifts w w') : SendsNothing w w' :=
  ⟨h.sameTraffic.requests, h.sameTraffic.transport⟩

theorem sendsNothing_report (w : World σ) (event : Event) : SendsNothing w (w.report event) :=
  ⟨by simp [report, requests, note, List.filterMap_append, Entry.request?], rfl⟩

theorem sendsNothing_paused (w : World σ) (delay : Duration) :
    SendsNothing w (w.note (.paused delay)) :=
  ⟨w.requests_paused delay, rfl⟩

end World

namespace Client

open World (SendsNothing)

variable {client : Client} {prepared : HttpRequest} {w w₁ w' : World σ}

theorem sendsNothing_pause (client : Client) (horizon : Option Nat) (delay : Duration)
    (w : World σ) : SendsNothing w (client.pause horizon delay w).2 := by
  have hpaused := w.sendsNothing_paused delay
  unfold pause
  dsimp only
  by_cases hcanceled : (w.note (.paused delay)).isCanceled client.cancel = true
  · rw [if_pos hcanceled]
    exact hpaused.trans (World.sendsNothing_report _ _)
  · rw [if_neg hcanceled]
    cases client.sleeper with
    | skip => exact hpaused
    | timer => exact hpaused.trans (client.drifts_wait horizon _ _).sendsNothing

theorem sendsNothing_afterFailure (client : Client) (path : String) (horizon : Option Nat)
    (method : Method) (policy : Policy) (e : Error) (w : World σ) :
    SendsNothing w
      (client.afterFailure path horizon method policy e w : Progress α × World σ).2 := by
  have hfailed := w.sendsNothing_report (.failed e policy.attempt method path)
  unfold afterFailure
  dsimp only
  cases policy.recordFailure _ _ e with
  | error overflow => exact hfailed
  | ok next =>
    dsimp only
    cases next.state with
    | backingOff attempt delay =>
      have hpaused := (hfailed.trans (World.sendsNothing_report _
        (.retrying delay policy.attempt e.rateLimit?.isSome))).trans
          (client.sendsNothing_pause horizon delay _)
      dsimp only
      rcases hpause : client.pause horizon delay _ with ⟨halt | _, w'⟩
      · rw [hpause] at hpaused
        exact hpaused
      · rw [hpause] at hpaused
        exact hpaused
    | failedExhausted made => exact hfailed.trans (World.sendsNothing_report _ _)
    | attempting attempt => exact hfailed
    | succeeded attempts => exact hfailed
    | failedTerminal attempts => exact hfailed

variable [Transport σ]

/-- From the first world to the second one, nothing but this request was sent. -/
def SendsOnly (prepared : HttpRequest) (w w' : World σ) : Prop :=
  exists sent : List HttpRequest, w'.requests = w.requests ++ sent ∧
    w'.transport =
      sent.foldl (fun transport request => (Transport.send transport request).2) w.transport ∧
    forall request, request ∈ sent -> request = prepared

theorem SendsOnly.of_sendsNothing (h : SendsNothing w w') : SendsOnly prepared w w' :=
  ⟨[], by rw [h.requests, List.append_nil], h.transport, by simp⟩

theorem SendsOnly.trans (h : SendsOnly prepared w w₁) (h' : SendsOnly prepared w₁ w') :
    SendsOnly prepared w w' := by
  rcases h with ⟨sent, hsent, htransport, hall⟩
  rcases h' with ⟨more, hmore, htransport', hall'⟩
  refine ⟨sent ++ more, ?_, ?_, ?_⟩
  · rw [hmore, hsent, List.append_assoc]
  · rw [htransport', htransport, List.foldl_append]
  · intro request hrequest
    exact (List.mem_append.mp hrequest).elim (hall request) (hall' request)

theorem sendsOnly_exchange (client : Client) (horizon : Option Nat) (prepared : HttpRequest)
    (n : Nat) (w : World σ) :
    SendsOnly prepared w (client.exchange horizon prepared n w).2 := by
  cases hcanceled : w.isCanceled client.cancel with
  | true =>
    rcases requests_exchange_of_canceled hcanceled horizon prepared n with
      ⟨hrequests, _, htransport⟩
    exact SendsOnly.of_sendsNothing ⟨hrequests, htransport⟩
  | false =>
    rcases requests_exchange_of_open hcanceled horizon prepared n with
      ⟨hrequests, _, htransport⟩
    refine ⟨[prepared], hrequests, htransport, ?_⟩
    exact fun request hrequest => List.mem_singleton.mp hrequest

variable [Json.Decode α]

theorem sendsOnly_attempt (client : Client) (path : String) (horizon : Option Nat)
    (prepared : HttpRequest) (policy : Policy) (w : World σ) :
    SendsOnly prepared w
      (client.attempt path horizon prepared policy w : Progress α × World σ).2 := by
  have hsends := client.sendsOnly_exchange horizon prepared policy.attempt w
  rcases hexchange : client.exchange horizon prepared policy.attempt w with ⟨halt | outcome, w₁⟩
  · rw [hexchange] at hsends
    rw [attempt_of_halt hexchange]
    exact hsends
  · rw [hexchange] at hsends
    cases hjudge : (judge w₁.clock policy.attempt outcome : Except Overflow (Verdict α)) with
    | error overflow =>
      rw [attempt_of_overflow hexchange hjudge]
      exact hsends
    | ok verdict =>
      have hreported := (drifts_verdict hjudge w₁).sendsNothing
      rw [attempt_of_verdict hexchange hjudge]
      refine hsends.trans (SendsOnly.of_sendsNothing ?_)
      unfold conclude
      cases verdict.result with
      | ok response => exact hreported
      | error e =>
        exact hreported.trans
          (client.sendsNothing_afterFailure path horizon prepared.method policy e _)

theorem sendsOnly_attempts (client : Client) (path : String) (horizon : Option Nat)
    (prepared : HttpRequest) (fuel : Nat) (policy : Policy) (w : World σ) :
    SendsOnly prepared w
      (client.attempts path horizon prepared fuel policy w :
        Except Halt (Response α) × World σ).2 := by
  induction fuel generalizing policy w with
  | zero => exact SendsOnly.of_sendsNothing ⟨rfl, rfl⟩
  | succ fuel ih =>
    have hsends := client.sendsOnly_attempt (α := α) path horizon prepared policy w
    unfold attempts
    rcases hattempt : (client.attempt path horizon prepared policy w : Progress α × World σ)
      with ⟨result | next, w'⟩
    · rw [hattempt] at hsends
      exact hsends
    · rw [hattempt] at hsends
      exact hsends.trans (ih next w')

theorem exists_requests_call (client : Client) (request : Request) (body : Option Payload)
    (w : World σ) :
    exists sent, (client.call request body w : Except Halt (Response α) × World σ).2.requests =
        w.requests ++ sent ∧
      forall prepared, prepared ∈ sent -> client.prepare request body = .ok prepared := by
  rw [(client.drifts_call (α := α) request body w).sameTraffic.requests]
  cases hprepare : client.prepare request body with
  | error e =>
    rw [callUntil_of_error hprepare]
    exact ⟨[], (List.append_nil _).symm, by simp⟩
  | ok prepared =>
    rw [callUntil_of_ok hprepare]
    rcases client.sendsOnly_attempts (α := α) request.path (client.horizon w) prepared
      client.strategy.attemptLimit (client.policy request) w with ⟨sent, hsent, _, hall⟩
    exact ⟨sent, hsent, fun other hother => congrArg Except.ok (hall other hother).symm⟩

end Client
end RestClient
