import RestClient.Proofs.Sending
import RestClient.Proofs.Supplying

/-!
# Last replies

A call that returns a value was told so by the last reply that it was given.
-/

namespace RestClient

variable {σ α : Type} [Transport σ]

/-- The replies to requests that are sent one after another. -/
def Transport.replies (transport : σ) : List HttpRequest -> List Reply
  | [] => []
  | request :: rest =>
    (Transport.send transport request).1 ::
      replies (Transport.send transport request).2 rest

theorem Transport.replies_append (transport : σ) (sent more : List HttpRequest) :
    replies transport (sent ++ more) =
      replies transport sent ++
        replies (sent.foldl (fun transport request => (Transport.send transport request).2)
          transport) more := by
  induction sent generalizing transport with
  | nil => rfl
  | cons request rest ih => exact congrArg (_ :: ·) (ih _)

def Reply.Succeeds (reply : Reply) : Prop :=
  exists response, reply.outcome = some (.ok response) ∧ response.status.isSuccess = true

/-- What was sent from the first world to the second one was answered last with a 2xx response. -/
def World.EndsInSuccess (w w' : World σ) : Prop :=
  exists sent, w'.requests = w.requests ++ sent ∧
    exists reply, (Transport.replies w.transport sent).getLast? = some reply ∧ reply.Succeeds

theorem World.SendsNothing.endsInSuccess {w w₁ w' : World σ} (h : SendsNothing w w₁)
    (hends : w₁.EndsInSuccess w') : w.EndsInSuccess w' := by
  unfold EndsInSuccess at hends ⊢
  rw [← h.requests, ← h.transport]
  exact hends

namespace Client

variable {client : Client} {prepared : HttpRequest} {horizon : Option Nat} {w w₁ w' : World σ}

theorem SendsOnly.endsInSuccess (h : SendsOnly prepared w w₁) (hends : w₁.EndsInSuccess w') :
    w.EndsInSuccess w' := by
  rcases h with ⟨sent, hsent, htransport, _⟩
  rcases hends with ⟨more, hmore, reply, hlast, hsucceeds⟩
  refine ⟨sent ++ more, ?_, reply, ?_, hsucceeds⟩
  · rw [hmore, hsent, List.append_assoc]
  · rw [Transport.replies_append, ← htransport, List.getLast?_append, hlast]
    rfl

theorem outcome_of_exchange {n : Nat} {response : HttpResponse}
    (h : client.exchange horizon prepared n w = (.ok (.ok response), w₁)) :
    (Transport.send w.transport prepared).1.outcome = some (.ok response) ∧
      w₁.requests = w.requests ++ [prepared] := by
  have hopen : w.isCanceled client.cancel = false := by
    rw [Bool.eq_false_iff]
    intro hcanceled
    rw [exchange_of_canceled hcanceled] at h
    cases h
  have htraffic := requests_exchange_of_open hopen horizon prepared n
  have hreceive := congrArg Prod.fst h
  rw [exchange_of_open hopen] at hreceive
  rw [h] at htraffic
  refine ⟨?_, htraffic.1⟩
  rcases outcome_of_receive hreceive with hfault | houtcome
  · cases hfault
  · exact houtcome

variable [Json.Decode α]

theorem endsInSuccess_attempt {path : String} {policy : Policy} {received : Response α}
    (h : client.attempt path horizon prepared policy w = (.ended (.ok received), w')) :
    w.EndsInSuccess w' := by
  rcases hexchange : client.exchange horizon prepared policy.attempt w with ⟨halt | outcome, w₁⟩
  · rw [attempt_of_halt hexchange] at h
    cases h
  · cases hjudge : (judge w₁.clock policy.attempt outcome : Except Overflow (Verdict α)) with
    | error overflow =>
      rw [attempt_of_overflow hexchange hjudge] at h
      cases h
    | ok verdict =>
      have hreported := (drifts_verdict hjudge w₁).sendsNothing
      rw [attempt_of_verdict hexchange hjudge] at h
      unfold conclude at h
      cases hresult : verdict.result with
      | error e =>
        rw [hresult] at h
        exact absurd (congrArg Prod.fst h) (client.afterFailure_ne_ok _ _ _ _ _ _ received)
      | ok response =>
        rw [hresult] at h
        cases h
        rcases judge_cases hjudge with ⟨_, _, rfl⟩ | ⟨response, rfl, hsuccess, _⟩ |
          ⟨_, _, _, _, _, rfl⟩
        · cases hresult
        · rcases outcome_of_exchange hexchange with ⟨houtcome, hrequests⟩
          refine ⟨[prepared], ?_, _, rfl, response, houtcome, hsuccess⟩
          rw [hreported.requests, hrequests]
        · cases hresult

theorem endsInSuccess_attempts {path : String} {fuel : Nat} {policy : Policy}
    {received : Response α}
    (h : client.attempts path horizon prepared fuel policy w = (.ok received, w')) :
    w.EndsInSuccess w' := by
  induction fuel generalizing policy w with
  | zero => cases h
  | succ fuel ih =>
    have hsends := client.sendsOnly_attempt (α := α) path horizon prepared policy w
    unfold attempts at h
    rcases hattempt : (client.attempt path horizon prepared policy w : Progress α × World σ)
      with ⟨result | next, w₁⟩
    · rw [hattempt] at h
      cases h
      exact endsInSuccess_attempt hattempt
    · rw [hattempt] at h hsends
      exact hsends.endsInSuccess (ih h)

theorem endsInSuccess_call {request : Request} {body : Option Payload} {received : Response α}
    (h : client.call request body w = (.ok received, w')) : w.EndsInSuccess w' := by
  have huntil := callUntil_of_call h
  cases hprepare : client.prepare request body with
  | error e =>
    rw [callUntil_of_error hprepare] at huntil
    cases huntil
  | ok prepared =>
    rw [callUntil_of_ok hprepare] at huntil
    exact endsInSuccess_attempts huntil

end Client
end RestClient
