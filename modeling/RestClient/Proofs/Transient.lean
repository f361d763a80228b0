import RestClient.Proofs.DecidingAttempt
import RestClient.Proofs.Serving

/-!
# Transient failures

Failures that a repetition may help and that give no advice about when to repeat.  A call that has
retries left for all of its transient failures ends like a call without them, and in the meantime
it sends nothing but its own request.
-/

namespace RestClient

/-!
## What a call does in order
-/

namespace Deed

def isOutward : Deed -> Bool
  | .sent _ | .paused _ => true
  | _ => false

def request? : Deed -> Option HttpRequest
  | .sent request => some request
  | _ => none

end Deed

namespace World

variable {σ : Type} {w w' : World σ}

def outward (w : World σ) : List Deed := (w.history.map (·.deed)).filter Deed.isOutward

theorem outward_of_history_eq_append {new : List Entry} (h : w'.history = w.history ++ new) :
    w'.outward = w.outward ++ (new.map (·.deed)).filter Deed.isOutward := by
  unfold outward
  rw [h, List.map_append, List.filter_append]

theorem outward_note (w : World σ) {deed : Deed} (hdeed : deed.isOutward = true) :
    (w.note deed).outward = w.outward ++ [deed] := by
  rw [outward_of_history_eq_append (w := w) rfl, List.map_singleton,
    List.filter_singleton, hdeed]
  rfl

theorem Drift.outward (h : Drift w w') : w'.outward = w.outward := by
  cases h with
  | advance time =>
    rw [outward_of_history_eq_append rfl, List.filter_eq_nil_iff.mpr, List.append_nil]
    intro deed hdeed
    rcases List.mem_map.mp hdeed with ⟨entry, hentry, rfl⟩
    rcases List.mem_map.mp hentry with ⟨due, _, rfl⟩
    exact Bool.false_ne_true
  | cancel other =>
    rw [outward_of_history_eq_append rfl]
    exact List.append_nil _
  | report event _ =>
    rw [outward_of_history_eq_append rfl]
    exact List.append_nil _

theorem Drifts.outward (h : Drifts w w') : w'.outward = w.outward := by
  induction h with
  | refl => rfl
  | tail _ hdrift ih => exact hdrift.outward.trans ih

theorem requests_eq_outward (w : World σ) :
    w.requests = w.outward.filterMap Deed.request? := by
  unfold requests outward
  induction w.history with
  | nil => rfl
  | cons entry rest ih =>
    rcases entry with ⟨time, deed⟩
    rw [List.filterMap_cons, ih]
    cases deed <;> rfl

end World

def Deed.repeated (request : HttpRequest) (delays : List Duration) : List Deed :=
  delays.flatMap (fun delay => [.sent request, .paused delay]) ++ [.sent request]

/-- From the first world to the second one this was done, and the script moved on to these
replies. -/
structure Outing (w : World Script) (replies : List Reply) (deeds : List Deed)
    (w' : World Script) : Prop where
  clock : w'.clock = w.clock
  replies : w'.transport.replies = replies
  outward : w'.outward = w.outward ++ deeds

namespace Outing

open World (Drifts)

variable {w w₁ w' : World Script} {replies : List Reply} {deeds : List Deed}

theorem refl (w : World Script) : Outing w w.transport.replies [] w :=
  ⟨rfl, rfl, (List.append_nil _).symm⟩

theorem trans {rest : List Reply} {more : List Deed} (h : Outing w replies deeds w₁)
    (h' : Outing w₁ rest more w') : Outing w rest (deeds ++ more) w' := by
  constructor
  · exact h'.clock.trans h.clock
  · exact h'.replies
  · rw [h'.outward, h.outward, List.append_assoc]

theorem of_drifts (h : Outing w replies deeds w₁) (hdrifts : Drifts w₁ w') :
    Outing w replies deeds w' := by
  constructor
  · exact hdrifts.sameTraffic.clock.trans h.clock
  · rw [hdrifts.sameTraffic.transport, h.replies]
  · rw [hdrifts.outward, h.outward]

theorem of_drifts_left (hdrifts : Drifts w w₁) (h : Outing w₁ replies deeds w') :
    Outing w replies deeds w' := by
  constructor
  · exact h.clock.trans hdrifts.sameTraffic.clock
  · exact h.replies
  · rw [h.outward, hdrifts.outward]

theorem paused (w : World Script) (delay : Duration) :
    Outing w w.transport.replies [.paused delay] (w.note (.paused delay)) :=
  ⟨rfl, rfl, World.outward_note w rfl⟩

theorem sent {reply : Reply} (hreplies : w.transport.replies = reply :: replies)
    (request : HttpRequest) : Outing w replies [.sent request] (w.send request).2 := by
  refine ⟨rfl, ?_, World.outward_note _ rfl⟩
  show w.transport.next.2.replies = replies
  unfold Script.next
  rw [hreplies]

theorem requests (h : Outing w replies deeds w') :
    w'.requests = w.requests ++ deeds.filterMap Deed.request? := by
  rw [World.requests_eq_outward, h.outward, List.filterMap_append, World.requests_eq_outward]

end Outing

/-!
## Errors
-/

/-- The error may be cured by a repetition, and gives no advice about when. -/
structure Error.IsTransient (e : Error) : Prop where
  retryable : e.isRetryable = true
  unadvised : forall now longest, e.rateLimitDelay? now longest = none

/-- Too many requests or a failure of the server, without a header about the rate limit. -/
structure HttpResponse.IsTransient (response : HttpResponse) : Prop where
  status : response.status.code = 429 ∨ response.status.isServerError = true
  unadvised : forall name, name ∈ Header.retryAfter :: Header.remaining :: Header.resets ->
    response.headers.get? name = none

theorem Error.isTransient_ofTransport (fault : TransportFault) :
    (Error.ofTransport fault).IsTransient := by
  cases fault with
  | timeout => exact ⟨rfl, fun _ _ => rfl⟩
  | _ => exact ⟨rfl, fun _ _ => rfl⟩

theorem Error.IsTransient.ne_canceled {e : Error} (h : e.IsTransient) : e ≠ .canceled := by
  rintro rfl
  cases h.retryable

theorem HttpResponse.IsTransient.isSuccess {response : HttpResponse} (h : response.IsTransient) :
    response.status.isSuccess = false := by
  have hstatus := h.status
  unfold Status.isServerError at hstatus
  unfold Status.isSuccess
  simp only [Bool.and_eq_true, decide_eq_true_eq, Bool.and_eq_false_iff,
    decide_eq_false_iff_not] at hstatus ⊢
  omega

theorem RateLimit.ofHeaders_of_unadvised {headers : Headers}
    (h : forall name, name ∈ Header.retryAfter :: Header.remaining :: Header.resets ->
      headers.get? name = none) (now : Moment) :
    RateLimit.ofHeaders now headers = .ok ⟨none, none, none⟩ := by
  have hword : forall name, name ∈ Header.retryAfter :: Header.remaining :: Header.resets ->
      RateLimit.word? headers name = none := by
    intro name hname
    unfold RateLimit.word? Headers.read?
    rw [h name hname]
    rfl
  have hretryAfter : RateLimit.retryAfter? now headers = none := by
    unfold RateLimit.retryAfter? Headers.read?
    rw [h Header.retryAfter List.mem_cons_self]
    rfl
  have hresets : Header.resets.findSome? (RateLimit.word? headers) = none := by
    rw [List.findSome?_eq_none_iff]
    intro name hname
    exact hword name (List.mem_cons_of_mem _ (List.mem_cons_of_mem _ hname))
  unfold RateLimit.ofHeaders RateLimit.reset?
  rw [hresets, hretryAfter, hword Header.remaining (by simp)]

theorem HttpResponse.IsTransient.exists_error {response : HttpResponse} (h : response.IsTransient)
    (now : Moment) :
    exists e, ApiError.ofResponse now response = .ok e ∧ (Error.api e).IsTransient := by
  unfold ApiError.ofResponse
  rw [RateLimit.ofHeaders_of_unadvised h.unadvised]
  refine ⟨_, rfl, ?_, ?_⟩
  · show ErrorKind.isRetryable (ApiError.kind _) = true
    have hstatus := h.status
    unfold ApiError.kind
    dsimp only
    rcases hstatus with hcode | hserver
    · rw [hcode]
      rfl
    · have hcode : 500 ≤ response.status.code ∧ response.status.code < 600 := by
        simpa [Status.isServerError] using hserver
      have hbad : ¬ (response.status.code == 400 || response.status.code == 422) = true := by
        simp only [Bool.or_eq_true, beq_iff_eq]
        omega
      split
      · omega
      · omega
      · omega
      · rfl
      · rw [if_neg (by simp [hbad]), if_pos hserver]
        rfl
  · intro now longest
    unfold Error.rateLimitDelay? Error.rateLimit? Error.api?
    dsimp only [Option.bind_some]
    by_cases hlimited : (RateLimit.isLimited ⟨none, none, none⟩ ||
        response.status.code == 429) = true
    · rw [if_pos hlimited]
      rfl
    · rw [if_neg hlimited]
      rfl

/-!
## Delays
-/

theorem Jitter.of_le (jitter : Jitter) (delay : Duration) : jitter.of delay ≤ delay := by
  have hpart : (delay.nanos * jitter.units + 1 <<< 52) >>> 53 ≤ delay.nanos := by
    rw [Nat.shiftRight_eq_div_pow]
    apply Nat.le_of_lt_succ
    rw [Nat.div_lt_iff_lt_mul (by decide)]
    have hunits := Nat.mul_le_mul_left delay.nanos jitter.le_one
    omega
  unfold Jitter.of
  show (Duration.saturate _).nanos ≤ delay.nanos
  rw [Duration.nanos_saturate]
  exact (Nat.min_le_left _ _).trans hpart

namespace Strategy

variable {strategy : Strategy} {retries made : Nat}

def totalBackoff (strategy : Strategy) : Nat -> Nat
  | 0 => 0
  | made + 1 => strategy.totalBackoff made + (strategy.nominal? (made + 1)).elim 0 Duration.nanos

theorem totalBackoff_mono (strategy : Strategy) {fewer more : Nat} (h : fewer ≤ more) :
    strategy.totalBackoff fewer ≤ strategy.totalBackoff more := by
  induction h with
  | refl => exact Nat.le_refl _
  | step _ ih => exact ih.trans (Nat.le_add_right _ _)

theorem exists_nominal? (hretries : strategy.maxRetries? = some retries) (hmade : made < retries) :
    exists nominal, strategy.nominal? (made + 1) = some nominal := by
  apply Option.ne_none_iff_exists'.mp
  intro hnone
  have hspent := (nominal?_eq_none_iff hretries (Nat.le_add_left 1 made)).mp hnone
  exact Nat.not_lt_of_le (Nat.le_of_lt_succ hspent) hmade

theorem delay_le_nominal {jitter : Jitter} {retry : Nat} {delay nominal : Duration}
    (hdelay : strategy.delay? retry jitter = some delay)
    (hnominal : strategy.nominal? retry = some nominal) : delay ≤ nominal := by
  unfold delay? at hdelay
  rw [hnominal] at hdelay
  cases hdelay
  dsimp only
  by_cases hjitter : strategy.hasJitter = true
  · rw [if_pos hjitter]
    exact jitter.of_le nominal
  · rw [if_neg hjitter]
    exact Nat.le_refl nominal.nanos

end Strategy

/-!
## Attempts
-/

namespace Client

open World (Drifts)

variable {α : Type} {client : Client} {request : Request} {prepared : HttpRequest}
  {policy : Policy} {retries made : Nat} {reply : Reply} {rest : List Reply} {w : World Script}

def IsTransient (client : Client) (reply : Reply) : Prop :=
  (exists fault, client.settled? reply = some (.error fault)) ∨
    exists response, client.settled? reply = some (.ok response) ∧ response.IsTransient

def Brings [Json.Decode α] (client : Client) (reply : Reply) (value : α) : Prop :=
  exists response, client.settled? reply = some (.ok response) ∧ response.value? = some value

theorem isTransient_of_outcome (h : (exists fault, reply.outcome = some (.error fault)) ∨
    exists response, reply.outcome = some (.ok response) ∧ response.IsTransient) :
    client.IsTransient reply := by
  unfold IsTransient settled?
  cases client.timeout with
  | none => exact h
  | some timeout =>
    by_cases hintime : reply.wait.ticks ≤ timeout.ticks
    · simp only [if_pos hintime]
      rcases h with ⟨fault, houtcome⟩ | ⟨response, houtcome, hresponse⟩
      · exact Or.inl ⟨fault, by rw [houtcome]; rfl⟩
      · exact Or.inr ⟨response, by rw [houtcome]; rfl, hresponse⟩
    · -- A reply that comes too late is a timeout.
      simp only [if_neg hintime]
      exact Or.inl ⟨.timeout, rfl⟩

/-- Nothing but the number of its retries ends the calls of the client. -/
structure Persists (client : Client) (retries : Nat) : Prop where
  cancel : client.cancel = none
  deadline : client.deadline = none
  predicate : client.predicate = .retryable
  maxRetries : client.strategy.maxRetries? = some retries
  totalBackoff : client.strategy.totalBackoff retries < Duration.bound

/-- The policy belongs to a call of the client that was repeated so many times, never after more
than the nominal delay. -/
structure HasRepeated (client : Client) (request : Request) (made : Nat) (policy : Policy) :
    Prop where
  inFlight : client.InFlight request (made + 1) policy
  elapsed_le : policy.elapsed.nanos ≤ client.strategy.totalBackoff made

theorem hasRepeated_policy (client : Client) (request : Request) :
    client.HasRepeated request 0 (client.policy request) :=
  ⟨inFlight_policy client request, Nat.le_refl 0⟩

theorem not_isFinal_of_isTransient (hclient : client.Persists retries)
    (hidempotent : request.idempotent = true) (hmade : made < retries) {e : Error}
    (he : e.IsTransient) : ¬ client.IsFinal request (made + 1) e := by
  rintro (h | h | h)
  · rw [hidempotent] at h
    cases h
  · rw [hclient.predicate] at h
    exact Bool.false_ne_true (h.symm.trans he.retryable)
  · rcases Strategy.exists_nominal? hclient.maxRetries hmade with ⟨nominal, hnominal⟩
    rw [hnominal] at h
    cases h

theorem HasRepeated.recordFailure (h : client.HasRepeated request made policy)
    (hclient : client.Persists retries) (hidempotent : request.idempotent = true)
    (hmade : made < retries) {e : Error} (he : e.IsTransient) (now : Moment) (jitter : Jitter) :
    exists delay elapsed, policy.recordFailure now jitter e =
        .ok { policy with state := .backingOff (made + 1) delay, elapsed } ∧
      elapsed.nanos ≤ client.strategy.totalBackoff (made + 1) := by
  have hgoesOn : ¬ policy.GivesUp e := fun hgivesUp =>
    not_isFinal_of_isTransient hclient hidempotent hmade he (h.inFlight.givesUp_iff.mp hgivesUp)
  rcases Policy.recordFailure_of_not_givesUp hgoesOn now jitter with ⟨backoff, hbackoff, hrecord⟩
  rcases Strategy.exists_nominal? hclient.maxRetries hmade with ⟨nominal, hnominal⟩
  have hdelay : policy.delayAfter now e backoff = backoff := by
    unfold Policy.delayAfter
    rw [he.unadvised]
    exact ite_self backoff
  rw [h.inFlight.strategy, h.inFlight.attempt_eq] at hbackoff
  rw [h.inFlight.attempt_eq, hdelay] at hrecord
  have hle : backoff.nanos ≤ nominal.nanos := Strategy.delay_le_nominal hbackoff hnominal
  have htotal : client.strategy.totalBackoff (made + 1) =
      client.strategy.totalBackoff made + nominal.nanos := by
    show _ + (client.strategy.nominal? (made + 1)).elim 0 Duration.nanos = _
    rw [hnominal]
    rfl
  have hsum : policy.elapsed.nanos + backoff.nanos ≤ client.strategy.totalBackoff (made + 1) := by
    rw [htotal]
    exact Nat.add_le_add h.elapsed_le hle
  have hfits : policy.elapsed.nanos + backoff.nanos < Duration.bound :=
    (hsum.trans (client.strategy.totalBackoff_mono hmade)).trans_lt hclient.totalBackoff
  have helapsed : policy.elapsed.add? backoff = some ⟨_, hfits⟩ := Duration.add?_eq_some_iff.mpr rfl
  rw [helapsed] at hrecord
  exact ⟨backoff, _, hrecord, hsum⟩

theorem HasRepeated.afterFailure (h : client.HasRepeated request made policy)
    (hclient : client.Persists retries) (hidempotent : request.idempotent = true)
    (hmade : made < retries) {e : Error} (he : e.IsTransient) (path : String) (method : Method)
    (w : World Script) :
    exists delay next w', client.HasRepeated request (made + 1) next ∧
      Outing w w.transport.replies [.paused delay] w' ∧
      client.afterFailure path none method policy e w =
        ((.again next, w') : Progress α × World Script) := by
  have hfailed : Drifts w (w.report (.failed e policy.attempt method path)) :=
    World.drifts_report w _ (by simpa [Event.failure?] using he.ne_canceled)
  rcases h.recordFailure hclient hidempotent hmade he
    (w.report (.failed e policy.attempt method path)).clock
    ((w.report (.failed e policy.attempt method path)).jitter
      (w.report (.failed e policy.attempt method path)).delays.length)
    with ⟨delay, elapsed, hrecord, helapsed⟩
  have hretrying := hfailed.trans (World.drifts_report _
    (.retrying delay policy.attempt e.rateLimit?.isSome) (by simp [Event.failure?]))
  rcases pause_of_no_token hclient.cancel delay _ with ⟨w', hpaused, hpause⟩
  refine ⟨delay, _, w', ⟨h.inFlight.resume delay elapsed, helapsed⟩, ?_, ?_⟩
  · exact Outing.of_drifts_left hretrying ((Outing.paused _ delay).of_drifts hpaused)
  · unfold Client.afterFailure
    dsimp only
    rw [hrecord]
    dsimp only
    rw [hpause]

theorem exchange_settled (hclient : client.Persists retries)
    (hreplies : w.transport.replies = reply :: rest)
    {settled : Except TransportFault HttpResponse} (hsettled : client.settled? reply = some settled)
    (prepared : HttpRequest) (n : Nat) :
    exists w', Outing w rest [.sent prepared] w' ∧
      client.exchange none prepared n w = (.ok settled, w') := by
  have hexecuting : Drifts w (w.report (.executing prepared.method prepared.url n)) :=
    World.drifts_report w _ (by simp [Event.failure?])
  have hreply : (Transport.send w.transport prepared).1 = reply := by
    show w.transport.next.1 = reply
    unfold Script.next
    rw [hreplies]
  rcases drifts_exchange_of_settled hclient.cancel hreply hsettled n with
    ⟨w', hdrifts, hexchange⟩
  have hsent := Outing.sent (w := w.report (.executing prepared.method prepared.url n)) hreplies
    prepared
  exact ⟨w', (hsent.of_drifts hdrifts).of_drifts_left hexecuting, hexchange⟩

variable [Json.Decode α]

theorem judge_of_isTransient (h : client.IsTransient reply) (clock : Moment) (n : Nat) :
    exists settled verdict e, client.settled? reply = some settled ∧
      (judge clock n settled : Except Overflow (Verdict α)) = .ok verdict ∧
      verdict.result = .error e ∧ e.IsTransient := by
  rcases h with ⟨fault, hsettled⟩ | ⟨response, hsettled, hresponse⟩
  · exact ⟨_, _, _, hsettled, rfl, rfl, Error.isTransient_ofTransport fault⟩
  · rcases hresponse.exists_error clock with ⟨e, hdecoded, he⟩
    refine ⟨_, reject e n, _, hsettled, ?_, rfl, he⟩
    unfold judge
    dsimp only
    rw [if_neg (Bool.eq_false_iff.mp hresponse.isSuccess), hdecoded]

theorem attempt_settled (hclient : client.Persists retries)
    (hpolicy : client.HasRepeated request made policy)
    (hreplies : w.transport.replies = reply :: rest)
    {settled : Except TransportFault HttpResponse} (hsettled : client.settled? reply = some settled)
    {verdict : Verdict α} (hjudge : judge w.clock (made + 1) settled = .ok verdict)
    (path : String) (prepared : HttpRequest) :
    exists w', Outing w rest [.sent prepared] w' ∧
      client.attempt path none prepared policy w =
        match verdict.result with
        | .ok response => (.ended (.ok response), w')
        | .error e => client.afterFailure path none prepared.method policy e w' := by
  rcases exchange_settled hclient hreplies hsettled prepared (made + 1) with
    ⟨w₁, hw₁, hexchange⟩
  refine ⟨_, hw₁.of_drifts (drifts_verdict hjudge w₁), ?_⟩
  rw [← hpolicy.inFlight.attempt_eq] at hexchange hjudge
  rw [attempt_of_verdict hexchange (hw₁.clock.symm ▸ hjudge)]
  rfl

theorem attempt_of_isTransient (hclient : client.Persists retries)
    (hidempotent : request.idempotent = true) (hpolicy : client.HasRepeated request made policy)
    (hmade : made < retries) (hreplies : w.transport.replies = reply :: rest)
    (hreply : client.IsTransient reply) (path : String) (prepared : HttpRequest) :
    exists delay next w', client.HasRepeated request (made + 1) next ∧
      Outing w rest [.sent prepared, .paused delay] w' ∧
      client.attempt path none prepared policy w =
        ((.again next, w') : Progress α × World Script) := by
  rcases judge_of_isTransient (α := α) hreply w.clock (made + 1) with
    ⟨settled, verdict, e, hsettled, hjudge, hresult, he⟩
  rcases attempt_settled hclient hpolicy hreplies hsettled hjudge path prepared with
    ⟨w₁, hw₁, hattempt⟩
  rcases hpolicy.afterFailure (α := α) hclient hidempotent hmade he path prepared.method w₁ with
    ⟨delay, next, w', hnext, hpaused, hafter⟩
  rw [hw₁.replies] at hpaused
  rw [hresult] at hattempt
  exact ⟨delay, next, w', hnext, hw₁.trans hpaused, hattempt.trans hafter⟩

theorem attempts_of_isTransient (hclient : client.Persists retries)
    (hidempotent : request.idempotent = true) (path : String) (prepared : HttpRequest)
    {failures : List Reply}
    (hfailures : forall failure, failure ∈ failures -> client.IsTransient failure)
    (hpolicy : client.HasRepeated request made policy) (hmade : made + failures.length ≤ retries)
    (hreplies : w.transport.replies = failures ++ rest) (fuel : Nat) :
    exists (delays : List Duration) (next : Policy) (w' : World Script),
      delays.length = failures.length ∧
      client.HasRepeated request (made + failures.length) next ∧
      Outing w rest (delays.flatMap fun delay => [.sent prepared, .paused delay]) w' ∧
      (client.attempts path none prepared (failures.length + fuel) policy w :
          Except Halt (Response α) × World Script) =
        client.attempts path none prepared fuel next w' := by
  induction failures generalizing made policy w with
  | nil =>
    refine ⟨[], policy, w, rfl, hpolicy, ?_, ?_⟩
    · have hstill := Outing.refl w
      rw [hreplies] at hstill
      exact hstill
    · rw [List.length_nil, Nat.zero_add]
  | cons failure failures ih =>
    rw [List.length_cons] at hmade ⊢
    rcases attempt_of_isTransient (α := α) hclient hidempotent hpolicy (by omega) hreplies
      (hfailures failure List.mem_cons_self) path prepared
      with ⟨delay, next, w₁, hnext, hw₁, hattempt⟩
    rcases ih (fun later hlater => hfailures later (List.mem_cons_of_mem _ hlater)) hnext
      (by omega) hw₁.replies with ⟨delays, final, w', hlength, hfinal, hw', hattempts⟩
    refine ⟨delay :: delays, final, w', ?_, ?_, hw₁.trans hw', ?_⟩
    · rw [List.length_cons, hlength]
    · rw [show made + (failures.length + 1) = made + 1 + failures.length by omega]
      exact hfinal
    · rw [show failures.length + 1 + fuel = failures.length + fuel + 1 by omega]
      rw [attempts, hattempt]
      exact hattempts

theorem attempt_of_brings {value : α} (hclient : client.Persists retries)
    (hpolicy : client.HasRepeated request made policy)
    (hreplies : w.transport.replies = reply :: rest) (hreply : client.Brings reply value)
    (path : String) (prepared : HttpRequest) :
    exists (response : Response α) (w' : World Script), response.data = value ∧
      Outing w rest [.sent prepared] w' ∧
      client.attempt path none prepared policy w = (.ended (.ok response), w') := by
  rcases hreply with ⟨answer, hsettled, hvalue⟩
  rcases judge_of_value? hvalue w.clock (made + 1) with
    ⟨verdict, response, hjudge, hresult, hdata, _⟩
  rcases attempt_settled hclient hpolicy hreplies hsettled hjudge path prepared with
    ⟨w', hw', hattempt⟩
  rw [hresult] at hattempt
  exact ⟨response, w', hdata, hw', hattempt⟩

theorem attempt_of_exhausted (hclient : client.Persists retries)
    (hpolicy : client.HasRepeated request retries policy)
    (hreplies : w.transport.replies = reply :: rest) (hreply : client.IsTransient reply)
    (path : String) (prepared : HttpRequest) :
    exists e w', client.outcome? w.clock (retries + 1) reply =
        some (.error e : Except Error (Response α)) ∧
      Outing w rest [.sent prepared] w' ∧
      client.attempt path none prepared policy w =
        ((.ended (.error (.failed e)), w') : Progress α × World Script) := by
  rcases judge_of_isTransient (α := α) hreply w.clock (retries + 1) with
    ⟨settled, verdict, e, hsettled, hjudge, hresult, he⟩
  rcases attempt_settled hclient hpolicy hreplies hsettled hjudge path prepared with
    ⟨w₁, hw₁, hattempt⟩
  have hfinal : client.IsFinal request (retries + 1) e :=
    decides_of_maxRetries_lt (α := α) hclient.maxRetries (Nat.lt_succ_self retries) (.error e)
  rcases afterFailure_of_isFinal (α := α) hpolicy.inFlight hfinal he.ne_canceled path none
    prepared.method w₁ with ⟨w', hw', hafter⟩
  rw [hresult] at hattempt
  refine ⟨e, w', ?_, hw₁.of_drifts hw', hattempt.trans hafter⟩
  unfold outcome?
  rw [hsettled]
  dsimp only
  rw [hjudge, ← hresult]

/-!
## Calls
-/

theorem call_of_persists (hclient : client.Persists retries)
    (hprepare : client.prepare request none = .ok prepared) (w : World Script) :
    client.call request none w =
      (client.attempts request.path none prepared (retries + 1) (client.policy request) w :
        Except Halt (Response α) × World Script) := by
  unfold call
  rw [hclient.deadline]
  dsimp only
  rw [callUntil_of_ok hprepare]
  unfold Strategy.attemptLimit
  rw [hclient.maxRetries]

/-- A call that has a retry for each of its transient failures gets its value. -/
theorem call_overcomes {value : α} (hclient : client.Persists retries)
    (hidempotent : request.idempotent = true)
    (hprepare : client.prepare request none = .ok prepared) {failures : List Reply}
    (hfailures : forall failure, failure ∈ failures -> client.IsTransient failure)
    (hlength : failures.length ≤ retries) (hreply : client.Brings reply value)
    (hreplies : w.transport.replies = failures ++ reply :: rest) :
    exists (response : Response α) (delays : List Duration) (w' : World Script),
      response.data = value ∧ delays.length = failures.length ∧
      Outing w rest (Deed.repeated prepared delays) w' ∧
      client.call request none w = (.ok response, w') := by
  rcases attempts_of_isTransient (α := α) hclient hidempotent request.path prepared hfailures
    (hasRepeated_policy client request) (by omega) hreplies (retries - failures.length + 1)
    with ⟨delays, policy, w₁, hdelays, hpolicy, hw₁, hattempts⟩
  rcases attempt_of_brings hclient hpolicy hw₁.replies hreply request.path prepared with
    ⟨response, w', hvalue, hw', hattempt⟩
  refine ⟨response, delays, w', hvalue, hdelays, hw₁.trans hw', ?_⟩
  rw [call_of_persists hclient hprepare,
    show retries + 1 = failures.length + (retries - failures.length + 1) by omega, hattempts]
  unfold attempts
  rw [hattempt]

/-- A call whose transient failures outnumber its retries fails with the last one that it sees. -/
theorem call_exhausts (hclient : client.Persists retries)
    (hidempotent : request.idempotent = true)
    (hprepare : client.prepare request none = .ok prepared) {failures : List Reply}
    (hfailures : forall failure, failure ∈ failures -> client.IsTransient failure)
    (hlength : failures.length = retries) (hlast : client.IsTransient reply)
    (hreplies : w.transport.replies = failures ++ reply :: rest) :
    exists e delays w', client.outcome? w.clock (retries + 1) reply =
        some (.error e : Except Error (Response α)) ∧ delays.length = retries ∧
      Outing w rest (Deed.repeated prepared delays) w' ∧
      client.call request none w =
        ((.error (.failed e), w') : Except Halt (Response α) × World Script) := by
  rcases attempts_of_isTransient (α := α) hclient hidempotent request.path prepared hfailures
    (hasRepeated_policy client request) (by omega) hreplies 1
    with ⟨delays, policy, w₁, hdelays, hpolicy, hw₁, hattempts⟩
  rw [hlength] at hdelays hattempts
  rw [Nat.zero_add, hlength] at hpolicy
  rcases attempt_of_exhausted (α := α) hclient hpolicy hw₁.replies hlast request.path prepared
    with ⟨e, w', he, hw', hattempt⟩
  refine ⟨e, delays, w', hw₁.clock ▸ he, hdelays, hw₁.trans hw', ?_⟩
  rw [call_of_persists hclient hprepare, hattempts]
  unfold attempts
  rw [hattempt]

end Client
end RestClient
