import RestClient.Proofs.Retrying
import RestClient.Sample

/-!
# Creations

A request that must not be repeated is sent once at most: whatever becomes of its attempt, the
call is over.  If the creation may be repeated, its first request is still the same.
-/

namespace RestClient

open World (Drifts Moves)

variable {σ α : Type}

/-!
## The first request of a call
-/

theorem World.Moves.requests {token : Option Token} {w w' : World σ} (h : Moves token w w') :
    exists more, w'.requests = w.requests ++ more := by
  rcases h.later.history with ⟨new, hhistory, _⟩
  refine ⟨new.filterMap Entry.request?, ?_⟩
  unfold World.requests
  rw [hhistory, List.filterMap_append]

namespace Client

/-- The request with which a call begins, unless it ends before it sends anything. -/
def firstRequest? (client : Client) (request : Request) (body : Option Payload) (w : World σ) :
    Option HttpRequest :=
  if w.isCanceled client.cancel then none else (client.prepare request body).toOption

theorem prepare_withIdempotent (client : Client) (request : Request) (body : Option Payload)
    (idempotent : Bool) :
    client.prepare (request.withIdempotent idempotent) body = client.prepare request body :=
  rfl

variable [Transport σ]

theorem requests_exchange_of_open {client : Client} {w : World σ}
    (hopen : w.isCanceled client.cancel = false) (horizon : Option Nat) (prepared : HttpRequest)
    (attempt : Nat) :
    (client.exchange horizon prepared attempt w).2.requests = w.requests ++ [prepared] ∧
      (client.exchange horizon prepared attempt w).2.delays = w.delays ∧
      (client.exchange horizon prepared attempt w).2.transport =
        (Transport.send w.transport prepared).2 := by
  have hexecuting := (World.drifts_report w (.executing prepared.method prepared.url attempt)
    (by simp [Event.failure?])).sameTraffic
  have hreceived := (client.drifts_receive horizon (Transport.send w.transport prepared).1
    ((w.report (.executing prepared.method prepared.url attempt)).send prepared).2).sameTraffic
  rw [exchange_of_open hopen]
  refine ⟨?_, ?_, ?_⟩
  · rw [hreceived.requests, World.requests_send, hexecuting.requests]
  · rw [hreceived.delays, World.delays_send, hexecuting.delays]
  · rw [hreceived.transport]
    rfl

theorem requests_exchange_of_canceled {client : Client} {w : World σ}
    (hcanceled : w.isCanceled client.cancel = true) (horizon : Option Nat)
    (prepared : HttpRequest) (attempt : Nat) :
    (client.exchange horizon prepared attempt w).2.requests = w.requests ∧
      (client.exchange horizon prepared attempt w).2.delays = w.delays ∧
      (client.exchange horizon prepared attempt w).2.transport = w.transport := by
  have hreported := (drifts_canceled w).sameTraffic
  rw [exchange_of_canceled hcanceled]
  exact ⟨hreported.requests, hreported.delays, hreported.transport⟩

variable [Json.Decode α]

theorem moves_call_of_exchange {client : Client} {request : Request} {body : Option Payload}
    {prepared : HttpRequest} (hprepare : client.prepare request body = .ok prepared)
    (w : World σ) :
    Moves client.cancel (client.exchange (client.horizon w) prepared 1 w).2
      (client.call request body w : Except Halt (Response α) × World σ).2 := by
  refine Relation.ReflTransGen.trans ?_ (client.drifts_call request body w).moves
  rcases client.strategy.attemptLimit_eq_succ with ⟨retries, hlimit⟩
  rw [callUntil_of_ok hprepare, hlimit]
  exact client.moves_attempts_of_exchange request.path (client.horizon w) prepared retries
    (client.policy request) w

theorem requests_call_of_canceled {client : Client} {w : World σ}
    (hcanceled : w.isCanceled client.cancel = true) (request : Request) (body : Option Payload) :
    (client.call request body w : Except Halt (Response α) × World σ).2.requests =
      w.requests := by
  have hsame := (client.drifts_call (α := α) request body w).sameTraffic
  rw [hsame.requests]
  cases hprepare : client.prepare request body with
  | error e => rw [callUntil_of_error hprepare]
  | ok prepared =>
    rcases client.strategy.attemptLimit_eq_succ with ⟨retries, hlimit⟩
    rw [callUntil_of_ok hprepare, hlimit]
    unfold attempts
    rw [attempt_of_halt (exchange_of_canceled hcanceled (client.horizon w) prepared _)
      request.path]
    exact (drifts_canceled w).sameTraffic.requests

theorem getElem?_requests_call (client : Client) (request : Request) (body : Option Payload)
    (w : World σ) :
    (client.call request body w : Except Halt (Response α) × World σ).2.requests[
        w.requests.length]? = client.firstRequest? request body w := by
  unfold firstRequest?
  cases hcanceled : w.isCanceled client.cancel with
  | true =>
    rw [requests_call_of_canceled hcanceled, if_pos rfl]
    exact List.getElem?_eq_none (Nat.le_refl _)
  | false =>
    rw [if_neg Bool.false_ne_true]
    cases hprepare : client.prepare request body with
    | error e =>
      have hsame := (client.drifts_call (α := α) request body w).sameTraffic
      rw [hsame.requests, callUntil_of_error hprepare]
      exact List.getElem?_eq_none (Nat.le_refl _)
    | ok prepared =>
      rcases (moves_call_of_exchange (α := α) hprepare w).requests with ⟨more, hmore⟩
      rw [hmore, (requests_exchange_of_open hcanceled (client.horizon w) prepared 1).1,
        List.append_assoc, List.getElem?_append_right (Nat.le_refl _), Nat.sub_self]
      rfl

/-!
## Calls that must not be repeated
-/

theorem attempt_of_not_idempotent {client : Client} {request : Request} {policy : Policy}
    {n : Nat} (hpolicy : client.InFlight request n policy) (hrequest : request.idempotent = false)
    (path : String) (horizon : Option Nat) (prepared : HttpRequest) (w : World σ) :
    exists result w', Drifts (client.exchange horizon prepared n w).2 w' ∧
      client.attempt path horizon prepared policy w =
        ((.ended result, w') : Progress α × World σ) := by
  rw [← hpolicy.attempt_eq]
  rcases hexchange : client.exchange horizon prepared policy.attempt w with ⟨result, w₁⟩
  cases result with
  | error halt => exact ⟨_, w₁, Relation.ReflTransGen.refl, attempt_of_halt hexchange path⟩
  | ok outcome =>
    cases hjudge : (judge w₁.clock policy.attempt outcome : Except Overflow (Verdict α)) with
    | error overflow =>
      exact ⟨_, w₁, Relation.ReflTransGen.refl, attempt_of_overflow hexchange hjudge path⟩
    | ok verdict =>
      have hreported := drifts_verdict hjudge w₁
      have hne := judge_ne_canceled hjudge
      rw [attempt_of_verdict hexchange hjudge]
      unfold conclude
      cases hresult : verdict.result with
      | ok response => exact ⟨_, _, hreported, rfl⟩
      | error e =>
        have he : e ≠ .canceled := fun hcanceled => hne (hcanceled ▸ hresult)
        rcases afterFailure_of_isFinal (α := α) hpolicy (Or.inl hrequest) he path horizon
          prepared.method (w₁.reportAll verdict.events) with ⟨w₂, hw₂, hafter⟩
        exact ⟨_, w₂, hreported.trans hw₂, hafter⟩

theorem drifts_call_of_not_idempotent {client : Client} {request : Request}
    {body : Option Payload} {prepared : HttpRequest}
    (hprepare : client.prepare request body = .ok prepared)
    (hrequest : request.idempotent = false) (w : World σ) :
    Drifts (client.exchange (client.horizon w) prepared 1 w).2
      (client.call request body w : Except Halt (Response α) × World σ).2 := by
  refine Relation.ReflTransGen.trans ?_ (client.drifts_call request body w)
  rcases client.strategy.attemptLimit_eq_succ with ⟨retries, hlimit⟩
  rcases attempt_of_not_idempotent (α := α) (inFlight_policy client request) hrequest
    request.path (client.horizon w) prepared w with ⟨result, w', hw', hattempt⟩
  rw [callUntil_of_ok hprepare, hlimit]
  unfold attempts
  rw [hattempt]
  exact hw'

end Client

/-- From the first world to the second one no request was sent or a single one, each request took
one reply, and no delay was handed to the sleeper. -/
structure SentAtMostOnce (w w' : World Script) : Prop where
  requests : exists sent, sent.length ≤ 1 ∧ w'.requests = w.requests ++ sent ∧
    w'.transport.replies = w.transport.replies.drop sent.length
  delays : w'.delays = w.delays

theorem SentAtMostOnce.of_drifts {w w' w'' : World Script} (h : SentAtMostOnce w w')
    (hdrifts : Drifts w' w'') : SentAtMostOnce w w'' := by
  have hsame := hdrifts.sameTraffic
  constructor
  · rw [hsame.requests, hsame.transport]
    exact h.requests
  · rw [hsame.delays, h.delays]

theorem Script.replies_send (script : Script) (prepared : HttpRequest) :
    (Transport.send script prepared).2.replies = script.replies.drop 1 := by
  show script.next.2.replies = _
  unfold next
  cases hreplies : script.replies with
  | nil => exact hreplies
  | cons reply rest => rfl

theorem Client.sentAtMostOnce_exchange (client : Client) (horizon : Option Nat)
    (prepared : HttpRequest) (attempt : Nat) (w : World Script) :
    SentAtMostOnce w (client.exchange horizon prepared attempt w).2 := by
  cases hcanceled : w.isCanceled client.cancel with
  | true =>
    rcases requests_exchange_of_canceled hcanceled horizon prepared attempt
      with ⟨hrequests, hdelays, htransport⟩
    refine ⟨⟨[], Nat.zero_le 1, ?_, ?_⟩, hdelays⟩
    · rw [hrequests, List.append_nil]
    · rw [htransport]
      rfl
  | false =>
    rcases requests_exchange_of_open hcanceled horizon prepared attempt
      with ⟨hrequests, hdelays, htransport⟩
    refine ⟨⟨[prepared], Nat.le_refl 1, hrequests, ?_⟩, hdelays⟩
    rw [htransport, Script.replies_send]
    rfl

theorem Client.sentAtMostOnce_call [Json.Decode α] {request : Request}
    (hrequest : request.idempotent = false) (client : Client) (body : Option Payload)
    (w : World Script) :
    SentAtMostOnce w (client.call request body w : Except Halt (Response α) × World Script).2 := by
  cases hprepare : client.prepare request body with
  | error e =>
    have hnothing : SentAtMostOnce w w :=
      ⟨⟨[], Nat.zero_le 1, (List.append_nil _).symm, rfl⟩, rfl⟩
    have hdrifts := client.drifts_call (α := α) request body w
    rw [callUntil_of_error hprepare] at hdrifts
    exact hnothing.of_drifts hdrifts
  | ok prepared =>
    exact (client.sentAtMostOnce_exchange (client.horizon w) prepared 1 w).of_drifts
      (drifts_call_of_not_idempotent hprepare hrequest w)

/-!
## Creations
-/

namespace Collection

variable {Item Create Update : Type} [Json.Decode Item]

omit [Json.Decode Item] in
theorem exists_request_eq (c : Collection Create Update) (method : Method) (path : String) :
    exists pathParams, c.request method path = { Request.new method path with pathParams } := by
  have hfold : forall (params : List (String × String)) (request : Request), exists pathParams,
      params.foldl (fun request param => request.withPathParam param.1 param.2) request =
        { request with pathParams } := by
    intro params
    induction params with
    | nil =>
      intro request
      exact ⟨request.pathParams, rfl⟩
    | cons param rest ih =>
      intro request
      exact ih (request.withPathParam param.1 param.2)
  exact hfold c.pathParams (.new method path)

omit [Json.Decode Item] in
theorem idempotent_request (c : Collection Create Update) (method : Method) (path : String) :
    (c.request method path).idempotent = decide (method ≠ .post) := by
  rcases c.exists_request_eq method path with ⟨pathParams, hrequest⟩
  rw [hrequest]
  rfl

omit [Json.Decode Item] in
theorem world_data {σ : Type} (answer : Except Halt (Response Item) × World σ) :
    (data answer).2 = answer.2 := by
  rcases answer with ⟨halt | response, w⟩
  · rfl
  · rfl

/-- A creation is never duplicated, nor is any other call that must not be repeated, and an
idempotent creation begins with the same request. -/
theorem create_sends_at_most_once :
    (forall (c : Collection Create Update) (options : Create) (w : World Script),
      SentAtMostOnce w (c.create options w : Except Halt Item × World Script).2 ∧
        (c.createIdempotent options w : Except Halt Item × World Script).2.requests[
            w.requests.length]? =
          (c.create options w : Except Halt Item × World Script).2.requests[
            w.requests.length]?) ∧
      forall (client : Client) (request : Request) (body : Option Payload) (w : World Script),
        request.idempotent = false ->
          SentAtMostOnce w
            (client.call request body w : Except Halt (Response Item) × World Script).2 := by
  constructor
  · intro c options w
    constructor
    · unfold create
      rw [world_data]
      exact Client.sentAtMostOnce_call (c.idempotent_request .post _) c.client _ w
    · unfold createIdempotent create
      rw [world_data, world_data, Client.getElem?_requests_call, Client.getElem?_requests_call]
      unfold Client.firstRequest?
      rw [Client.prepare_withIdempotent]
  · intro client request body w hrequest
    exact Client.sentAtMostOnce_call hrequest client body w

end Collection

namespace Sample

/-- The sample client would repeat the attempt, but for the method. -/
theorem unavailable_post_is_not_repeated :
    SentAtMostOnce (world [reply 3 (some (.ok unavailable)), reply 3 (some (.ok done))])
      (client.call (.new .post "p") none
        (world [reply 3 (some (.ok unavailable)), reply 3 (some (.ok done))]) :
          Except Halt (Response Unit) × World Script).2 := by
  have hpost : (Request.new .post "p").idempotent = false := by decide
  exact (@Collection.create_sends_at_most_once Unit Unit Unit _).2 client (.new .post "p") none _
    hpost

end Sample
end RestClient
