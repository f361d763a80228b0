import RestClient.Proofs.Sending
import RestClient.Proofs.Serving

/-!
# Scripts of values

Calls whose next reply carries their value, and calls that find their script spent.  The first ones
end with their first request, the second ones fail however often they repeat it.
-/

namespace RestClient

theorem Script.replies_foldl_of_spent {script : Script} (h : script.replies = [])
    (sent : List HttpRequest) :
    (sent.foldl (fun script request => (Transport.send script request).2) script).replies = [] := by
  induction sent generalizing script with
  | nil => exact h
  | cons request rest ih =>
    apply ih
    rw [replies_send, h]
    rfl

/-!
## Waiting without a cancellation
-/

namespace World

variable {σ : Type} {token : Option Token} {w : World σ}

/-- The token is not canceled, and no cancellation of it is scheduled. -/
structure Undisturbed (w : World σ) (token : Option Token) : Prop where
  isOpen : w.isCanceled token = false
  scheduled : forall entry, entry ∈ w.scheduled -> token ≠ some entry.2

theorem Undisturbed.cancelTime?_eq_none (h : w.Undisturbed token) :
    w.cancelTime? token = none := by
  have hnone : (w.scheduled.filter fun entry => some entry.2 = token) = [] := by
    apply List.filter_eq_nil_iff.mpr
    intro entry hentry htoken
    exact h.scheduled entry hentry (decide_eq_true_eq.mp htoken).symm
  unfold cancelTime?
  rw [h.isOpen, if_neg Bool.false_ne_true, hnone]
  rfl

theorem Undisturbed.advance (h : w.Undisturbed token) (time : Nat) :
    (w.advance time).Undisturbed token := by
  constructor
  · cases token with
    | none => rfl
    | some t =>
      show Tokens.isCanceled (List.foldl _ w.tokens _) t = false
      have hopen : w.tokens.isCanceled t = false := h.isOpen
      rw [isCanceled_foldl, hopen, Bool.or_false, List.any_eq_false]
      intro entry hentry htoken
      have hmem := (List.mem_filter.mp hentry).1
      exact h.scheduled entry hmem (congrArg some (beq_iff_eq.mp htoken))
  · intro entry hentry
    exact h.scheduled entry (List.mem_filter.mp hentry).1

theorem Undisturbed.arrive {reply : Reply} (h : w.Undisturbed token)
    (hcancels : forall other, other ∈ reply.cancels -> token ≠ some other) :
    (w.arrive reply).Undisturbed token := by
  unfold World.arrive
  cases hreply : reply.cancels with
  | none => exact h
  | some other =>
    refine ⟨?_, h.scheduled⟩
    have hne := hcancels other hreply
    cases token with
    | none => rfl
    | some t =>
      have hiff := (isCanceled_cancel w other t).not
      rw [Bool.not_eq_true] at hiff
      rw [hiff, h.isOpen]
      simpa [eq_comm] using hne

end World

namespace Client

open World (Drifts)

variable {σ α : Type} {client : Client} {request : Request} {body : Option Payload}
  {prepared : HttpRequest} {horizon : Option Nat} {reply : Reply}

theorem wait_of_undisturbed {w : World σ} (h : w.Undisturbed client.cancel) {target : Nat}
    (hhorizon : horizon.all (target ≤ ·) = true) :
    exists w', Drifts w w' ∧ w'.Undisturbed client.cancel ∧
      client.wait horizon (some target) w = (.ok (), w') := by
  have hsettle : World.wait.settle w horizon (some target) = (.reached, w.advance target) := by
    unfold World.wait.settle
    cases horizon with
    | none => rfl
    | some horizon => exact if_pos (by simpa using hhorizon)
  unfold wait World.wait
  rw [h.cancelTime?_eq_none, hsettle]
  by_cases hdue : (some target).any (· ≤ w.now) = true
  · rw [if_pos hdue]
    exact ⟨w, Relation.ReflTransGen.refl, h, rfl⟩
  · rw [if_neg hdue]
    exact ⟨w.advance target, Relation.ReflTransGen.single (World.Drift.advance w target),
      h.advance target, rfl⟩

/-!
## Replies with a value
-/

/-- The reply carries a value, in time for the attempt and for the call, and does not cancel it. -/
structure Supplies [Json.Decode α] (client : Client) (reply : Reply) (value : α) : Prop where
  inTime : client.timeout.all (reply.wait.ticks ≤ ·.ticks) = true
  beforeDeadline : client.deadline.all (reply.wait.ticks ≤ ·.ticks) = true
  cancels : forall token, token ∈ reply.cancels -> client.cancel ≠ some token
  outcome : exists response, reply.outcome = some (.ok response) ∧ response.value? = some value

theorem receive_of_undisturbed {w : World σ} (h : w.Undisturbed client.cancel)
    (hlimit : client.timeout.all (reply.wait.ticks ≤ ·.ticks) = true)
    (hhorizon : horizon.all (w.now + reply.wait.ticks ≤ ·) = true)
    (hcancels : forall token, token ∈ reply.cancels -> client.cancel ≠ some token)
    {outcome : Except TransportFault HttpResponse} (houtcome : reply.outcome = some outcome) :
    exists w', Drifts w w' ∧ w'.Undisturbed client.cancel ∧
      client.receive horizon reply w = (.ok outcome, w') := by
  have hintime : (client.limit w).all (w.now + reply.wait.ticks ≤ ·) = true := by
    unfold limit
    cases htimeout : client.timeout with
    | none => rfl
    | some timeout =>
      rw [htimeout] at hlimit
      simpa using hlimit
  rcases wait_of_undisturbed h hhorizon with ⟨w₁, hw₁, hundisturbed, hwait⟩
  refine ⟨w₁.arrive reply, hw₁.trans (World.drifts_arrive w₁ reply),
    hundisturbed.arrive hcancels, ?_⟩
  unfold receive
  dsimp only
  rw [if_pos hintime, hwait]
  unfold deliver
  rw [houtcome]

theorem exchange_of_reply [Transport σ] {w : World σ} (h : w.Undisturbed client.cancel)
    (hreply : (Transport.send w.transport prepared).1 = reply)
    (hlimit : client.timeout.all (reply.wait.ticks ≤ ·.ticks) = true)
    (hdeadline : client.deadline.all (reply.wait.ticks ≤ ·.ticks) = true)
    (hcancels : forall token, token ∈ reply.cancels -> client.cancel ≠ some token)
    {outcome : Except TransportFault HttpResponse} (houtcome : reply.outcome = some outcome)
    (n : Nat) :
    exists w', client.exchange (client.horizon w) prepared n w = (.ok outcome, w') ∧
      w'.requests = w.requests ++ [prepared] ∧
      w'.transport = (Transport.send w.transport prepared).2 ∧ w'.Undisturbed client.cancel := by
  have hhorizon : (client.horizon w).all (w.now + reply.wait.ticks ≤ ·) = true := by
    unfold Client.horizon
    cases hcase : client.deadline with
    | none => rfl
    | some deadline =>
      rw [hcase] at hdeadline
      simpa using hdeadline
  have hsent : ((w.report (.executing prepared.method prepared.url n)).send
      prepared).2.Undisturbed client.cancel := ⟨h.isOpen, h.scheduled⟩
  rcases receive_of_undisturbed hsent hlimit hhorizon hcancels houtcome with
    ⟨w₁, _, hundisturbed, hreceive⟩
  have hexchange : client.exchange (client.horizon w) prepared n w = (.ok outcome, w₁) := by
    rw [exchange_of_open h.isOpen, hreply]
    exact hreceive
  have htraffic := requests_exchange_of_open h.isOpen (client.horizon w) prepared n
  rw [hexchange] at htraffic
  exact ⟨w₁, hexchange, htraffic.1, htraffic.2.2, hundisturbed⟩

variable [Json.Decode α]

theorem call_of_reply [Transport σ] {value : α}
    (hprepare : client.prepare request body = .ok prepared) {w : World σ}
    (h : w.Undisturbed client.cancel)
    (hsupplies : client.Supplies (Transport.send w.transport prepared).1 value) :
    exists (received : Response α) (w' : World σ),
      client.call request body w = (.ok received, w') ∧ received.data = value ∧
        w'.requests = w.requests ++ [prepared] ∧
        w'.transport = (Transport.send w.transport prepared).2 ∧
        w'.Undisturbed client.cancel := by
  rcases hsupplies.outcome with ⟨response, houtcome, hvalue⟩
  rcases exchange_of_reply h rfl hsupplies.inTime hsupplies.beforeDeadline hsupplies.cancels
    houtcome (client.policy request).attempt with
    ⟨w₁, hexchange, hrequests, htransport, hundisturbed⟩
  rcases call_of_exchange hprepare hexchange hvalue with
    ⟨received, events, hcall, hdata, hdrifts⟩
  have hreported := hdrifts.sendsNothing
  refine ⟨received, w₁.reportAll events, hcall, hdata, ?_, ?_, ?_⟩
  · rw [hreported.requests, hrequests]
  · rw [hreported.transport, htransport]
  · exact ⟨hundisturbed.isOpen, hundisturbed.scheduled⟩

theorem call_of_supplies {value : α} (hprepare : client.prepare request body = .ok prepared)
    {w : World Script} (h : w.Undisturbed client.cancel) {rest : List Reply}
    (hreplies : w.transport.replies = reply :: rest) (hsupplies : client.Supplies reply value) :
    exists (received : Response α) (w' : World Script),
      client.call request body w = (.ok received, w') ∧ received.data = value ∧
        w'.requests = w.requests ++ [prepared] ∧ w'.transport.replies = rest ∧
        w'.Undisturbed client.cancel := by
  have hnext : Transport.send w.transport prepared = (reply, ⟨rest⟩) := by
    show w.transport.next = _
    unfold Script.next
    rw [hreplies]
  have hreply : client.Supplies (Transport.send w.transport prepared).1 value := by
    rw [hnext]
    exact hsupplies
  rcases call_of_reply hprepare h hreply with
    ⟨received, w', hcall, hdata, hrequests, htransport, hundisturbed⟩
  rw [hnext] at htransport
  exact ⟨received, w', hcall, hdata, hrequests, congrArg Script.replies htransport, hundisturbed⟩

/-!
## Spent scripts
-/

omit [Json.Decode α] in
/-- What is received is the outcome of the reply, unless the time of the attempt is over. -/
theorem outcome_of_receive {w : World σ} {outcome : Except TransportFault HttpResponse}
    (h : (client.receive horizon reply w).1 = .ok outcome) :
    outcome = .error .timeout ∨ reply.outcome = some outcome := by
  have htimeout : forall {limit : Option Nat} {w : World σ},
      (client.awaitTimeout horizon limit w).1 = .ok outcome -> outcome = .error .timeout := by
    intro limit w hawait
    unfold awaitTimeout at hawait
    rcases hwait : client.wait horizon limit w with ⟨halt | _, w₁⟩
    · rw [hwait] at hawait
      cases hawait
    · rw [hwait] at hawait
      cases hawait
      rfl
  unfold receive at h
  dsimp only at h
  by_cases hlimit : (client.limit w).all (w.now + reply.wait.ticks ≤ ·) = true
  · rw [if_pos hlimit] at h
    rcases hwait : client.wait horizon (some (w.now + reply.wait.ticks)) w with ⟨halt | _, w₁⟩
    · rw [hwait] at h
      cases h
    · rw [hwait] at h
      unfold deliver at h
      cases hreply : reply.outcome with
      | none =>
        rw [hreply] at h
        exact .inl (htimeout h)
      | some delivered =>
        rw [hreply] at h
        cases h
        exact .inr rfl
  · rw [if_neg hlimit] at h
    exact .inl (htimeout h)

omit [Json.Decode α] in
theorem exists_fault_of_receive {w : World σ} {fault : TransportFault}
    (hreply : reply.outcome = some (.error fault))
    {outcome : Except TransportFault HttpResponse}
    (h : (client.receive horizon reply w).1 = .ok outcome) :
    exists fault', outcome = .error fault' := by
  rcases outcome_of_receive h with htimeout | houtcome
  · exact ⟨.timeout, htimeout⟩
  · rw [hreply] at houtcome
    exact ⟨fault, (Option.some.inj houtcome).symm⟩

omit [Json.Decode α] in
theorem afterFailure_ne_ok (client : Client) (path : String) (horizon : Option Nat)
    (method : Method) (policy : Policy) (e : Error) (w : World σ) (response : Response α) :
    (client.afterFailure path horizon method policy e w).1 ≠ .ended (.ok response) := by
  unfold afterFailure
  dsimp only
  cases policy.recordFailure _ _ e with
  | error overflow => simp
  | ok next =>
    dsimp only
    cases next.state with
    | backingOff attempt delay =>
      dsimp only
      rcases client.pause horizon delay _ with ⟨halt | _, w'⟩ <;> simp
    | failedExhausted made => simp
    | attempting attempt => simp
    | succeeded attempts => simp
    | failedTerminal attempts => simp

theorem attempt_ne_ok_of_spent {w : World Script} (h : w.transport.replies = []) (client : Client)
    (path : String) (horizon : Option Nat) (prepared : HttpRequest) (policy : Policy)
    (response : Response α) :
    (client.attempt path horizon prepared policy w).1 ≠ .ended (.ok response) := by
  have hnext : (Transport.send w.transport prepared).1 = Script.spent := by
    show w.transport.next.1 = _
    unfold Script.next
    rw [h]
  rcases hexchange : client.exchange horizon prepared policy.attempt w with ⟨halt | outcome, w₁⟩
  · rw [attempt_of_halt hexchange]
    simp
  · have hopen : w.isCanceled client.cancel = false := by
      rw [Bool.eq_false_iff]
      intro hcanceled
      rw [exchange_of_canceled hcanceled] at hexchange
      cases hexchange
    have hreceive := congrArg Prod.fst hexchange
    rw [exchange_of_open hopen, hnext] at hreceive
    rcases exists_fault_of_receive rfl hreceive with ⟨fault, rfl⟩
    have hjudge : (judge w₁.clock policy.attempt (.error fault) : Except Overflow (Verdict α)) =
        .ok ⟨.error (.ofTransport fault), []⟩ := rfl
    rw [attempt_of_verdict hexchange hjudge]
    exact client.afterFailure_ne_ok path horizon prepared.method policy _ _ response

theorem SendsOnly.replies_eq_nil {w w' : World Script} (hsends : SendsOnly prepared w w')
    (h : w.transport.replies = []) : w'.transport.replies = [] := by
  rcases hsends with ⟨sent, _, htransport, _⟩
  rw [htransport]
  exact Script.replies_foldl_of_spent h sent

theorem attempts_of_spent {w : World Script} (h : w.transport.replies = []) (path : String)
    (horizon : Option Nat) (prepared : HttpRequest) (fuel : Nat) (policy : Policy) :
    exists halt w', (client.attempts path horizon prepared fuel policy w :
        Except Halt (Response α) × World Script) = (.error halt, w') ∧
      w'.transport.replies = [] := by
  induction fuel generalizing policy w with
  | zero => exact ⟨_, w, rfl, h⟩
  | succ fuel ih =>
    have hstill := (client.sendsOnly_attempt (α := α) path horizon prepared policy w).replies_eq_nil
      h
    have hne := attempt_ne_ok_of_spent (α := α) h client path horizon prepared policy
    unfold attempts
    rcases hattempt : (client.attempt path horizon prepared policy w : Progress α × World Script)
      with ⟨(halt | response) | next, w'⟩
    · rw [hattempt] at hstill
      exact ⟨halt, w', rfl, hstill⟩
    · rw [hattempt] at hne
      exact absurd rfl (hne response)
    · rw [hattempt] at hstill
      exact ih hstill next

theorem call_of_spent {w : World Script} (h : w.transport.replies = []) (client : Client)
    (request : Request) (body : Option Payload) :
    exists halt w', (client.call request body w : Except Halt (Response α) × World Script) =
        (.error halt, w') ∧ w'.transport.replies = [] := by
  have huntil : forall horizon, exists halt w', (client.callUntil horizon request body w :
      Except Halt (Response α) × World Script) = (.error halt, w') ∧
        w'.transport.replies = [] := by
    intro horizon
    cases hprepare : client.prepare request body with
    | error e => exact ⟨.failed e, w, callUntil_of_error hprepare horizon w, h⟩
    | ok prepared =>
      rw [callUntil_of_ok hprepare]
      exact attempts_of_spent h request.path horizon prepared _ _
  unfold call
  cases client.deadline with
  | none => exact huntil none
  | some deadline =>
    dsimp only
    rcases huntil (some (w.now + deadline.ticks)) with ⟨halt, w', hcall, hspent⟩
    rw [hcall]
    cases halt with
    | expired => exact ⟨_, _, rfl, hspent⟩
    | failed e => exact ⟨_, w', rfl, hspent⟩
    | pending => exact ⟨_, w', rfl, hspent⟩
    | overflow cause => exact ⟨_, w', rfl, hspent⟩

end Client
end RestClient
