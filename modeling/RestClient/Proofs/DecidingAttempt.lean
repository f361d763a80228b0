import RestClient.Proofs.Retrying
import RestClient.Sample
import Mathlib.Order.Bounds.Basic
import Mathlib.Tactic.IntervalCases

/-!
# The attempt that decides a call

Without a token and a deadline, a call is its sequence of attempts: each sends the same request,
and the first one that succeeds or fails for good gives the call its result.
-/

namespace RestClient
namespace Client

open World (Drifts)

variable {σ α : Type} {client : Client} {request : Request} {policy : Policy} {n : Nat}

/-!
## Outcomes of attempts
-/

/-- How the exchange with this reply ends, unless it never does. -/
def settled? (client : Client) (reply : Reply) : Option (Except TransportFault HttpResponse) :=
  match client.timeout with
  | none => reply.outcome
  | some timeout =>
    if reply.wait.ticks ≤ timeout.ticks then some (reply.outcome.getD (.error .timeout))
    else some (.error .timeout)

/-- The value or the error of attempt `n` if its request gets this reply. -/
def outcome? [Json.Decode α] (client : Client) (clock : Moment) (n : Nat) (reply : Reply) :
    Option (Except Error (Response α)) :=
  match client.settled? reply with
  | none => none
  | some settled =>
    match (judge clock n settled : Except Overflow (Verdict α)) with
    | .ok verdict => some verdict.result
    | .error _ => none

/-!
## Waiting without a token
-/

theorem wait_of_no_token (hcancel : client.cancel = none) (time : Nat) (w : World σ) :
    exists w', Drifts w w' ∧ client.wait none (some time) w = (.ok (), w') := by
  unfold wait World.wait
  rw [hcancel]
  by_cases hdue : (some time).any (· ≤ w.now) = true
  · rw [if_pos hdue]
    exact ⟨w, Relation.ReflTransGen.refl, rfl⟩
  · have hnever : w.cancelTime? none = none := by
      simp [World.cancelTime?, World.isCanceled]
    rw [if_neg hdue, hnever]
    exact ⟨w.advance time, Relation.ReflTransGen.single (World.Drift.advance w time), rfl⟩

theorem deliver_of_no_token (hcancel : client.cancel = none) (limit : Option Nat)
    {reply : Reply} {settled : Except TransportFault HttpResponse}
    (hsettled : reply.outcome = some settled ∨
      reply.outcome = none ∧ limit.isSome ∧ settled = .error .timeout) (w : World σ) :
    exists w', Drifts w w' ∧ client.deliver none limit reply w = (.ok settled, w') := by
  unfold deliver
  rcases hsettled with houtcome | ⟨houtcome, hlimit, rfl⟩
  · rw [houtcome]
    exact ⟨w, Relation.ReflTransGen.refl, rfl⟩
  · rcases Option.isSome_iff_exists.mp hlimit with ⟨time, rfl⟩
    rcases wait_of_no_token hcancel time w with ⟨w', hw', hwait⟩
    rw [houtcome]
    unfold awaitTimeout
    rw [hwait]
    exact ⟨w', hw', rfl⟩

theorem receive_of_settled (hcancel : client.cancel = none) {reply : Reply}
    {settled : Except TransportFault HttpResponse} (h : client.settled? reply = some settled)
    (w : World σ) :
    exists w', Drifts w w' ∧ client.receive none reply w = (.ok settled, w') := by
  rcases wait_of_no_token hcancel (w.now + reply.wait.ticks) w with ⟨w₁, hw₁, harrival⟩
  unfold receive limit
  unfold settled? at h
  dsimp only
  cases htimeout : client.timeout with
  | none =>
    rw [htimeout] at h
    rcases deliver_of_no_token hcancel none (Or.inl h) (w₁.arrive reply)
      with ⟨w₂, hw₂, hdeliver⟩
    refine ⟨w₂, (hw₁.trans (World.drifts_arrive w₁ reply)).trans hw₂, ?_⟩
    rw [Option.map_none, Option.all_none, if_pos rfl, harrival]
    exact hdeliver
  | some timeout =>
    rw [htimeout] at h
    dsimp only at h
    rw [Option.map_some]
    by_cases hle : reply.wait.ticks ≤ timeout.ticks
    · rw [if_pos hle] at h
      have hsettled : reply.outcome = some settled ∨ reply.outcome = none ∧
          (some (w.now + timeout.ticks)).isSome ∧ settled = .error .timeout := by
        cases houtcome : reply.outcome with
        | some outcome => exact Or.inl (by simpa [houtcome] using h)
        | none => exact Or.inr ⟨rfl, rfl, by simpa [houtcome] using h.symm⟩
      rcases deliver_of_no_token hcancel _ hsettled (w₁.arrive reply) with ⟨w₂, hw₂, hdeliver⟩
      refine ⟨w₂, (hw₁.trans (World.drifts_arrive w₁ reply)).trans hw₂, ?_⟩
      rw [if_pos (by simpa using hle), harrival]
      exact hdeliver
    · rw [if_neg hle] at h
      rcases wait_of_no_token hcancel (w.now + timeout.ticks) w with ⟨w₂, hw₂, hlimit⟩
      refine ⟨w₂, hw₂, ?_⟩
      rw [if_neg (by simpa using hle)]
      unfold awaitTimeout
      rw [hlimit]
      cases h
      rfl

theorem pause_of_no_token (hcancel : client.cancel = none) (delay : Duration) (w : World σ) :
    exists w', Drifts (w.note (.paused delay)) w' ∧ client.pause none delay w = (.ok (), w') := by
  unfold pause
  dsimp only
  rw [hcancel, if_neg (by simp [World.isCanceled])]
  cases client.sleeper with
  | skip => exact ⟨_, Relation.ReflTransGen.refl, rfl⟩
  | timer => exact wait_of_no_token hcancel _ _

/-!
## One attempt
-/

/-- From the first world to the second one, these requests were sent and these delays were handed
out, and the script moved on to the given replies. -/
structure Traffic (w : World Script) (replies : List Reply) (requests : List HttpRequest)
    (delays : List Duration) (w' : World Script) : Prop where
  clock : w'.clock = w.clock
  replies : w'.transport.replies = replies
  requests : w'.requests = w.requests ++ requests
  delays : w'.delays = w.delays ++ delays

theorem Traffic.of_drifts {w w₁ w' : World Script} {replies : List Reply}
    {requests : List HttpRequest} {delays : List Duration}
    (h : Traffic w replies requests delays w₁) (hdrifts : Drifts w₁ w') :
    Traffic w replies requests delays w' := by
  have hsame := hdrifts.sameTraffic
  constructor
  · exact hsame.clock.trans h.clock
  · rw [hsame.transport, h.replies]
  · rw [hsame.requests, h.requests]
  · rw [hsame.delays, h.delays]

theorem Traffic.of_drifts_left {w w₁ w' : World Script} {replies : List Reply}
    {requests : List HttpRequest} {delays : List Duration} (hdrifts : Drifts w w₁)
    (h : Traffic w₁ replies requests delays w') : Traffic w replies requests delays w' := by
  have hsame := hdrifts.sameTraffic
  constructor
  · exact h.clock.trans hsame.clock
  · exact h.replies
  · rw [h.requests, hsame.requests]
  · rw [h.delays, hsame.delays]

theorem Traffic.trans {w w₁ w' : World Script} {replies replies' : List Reply}
    {requests requests' : List HttpRequest} {delays delays' : List Duration}
    (h : Traffic w replies requests delays w₁) (h' : Traffic w₁ replies' requests' delays' w') :
    Traffic w replies' (requests ++ requests') (delays ++ delays') w' := by
  constructor
  · exact h'.clock.trans h.clock
  · exact h'.replies
  · rw [h'.requests, h.requests, List.append_assoc]
  · rw [h'.delays, h.delays, List.append_assoc]

theorem traffic_paused (w : World Script) (delay : Duration) :
    Traffic w w.transport.replies [] [delay] (w.note (.paused delay)) :=
  ⟨rfl, rfl, by rw [World.requests_paused, List.append_nil], World.delays_paused w delay⟩

theorem traffic_send {w : World Script} {reply : Reply} {rest : List Reply}
    (hreplies : w.transport.replies = reply :: rest) (prepared : HttpRequest) :
    (Transport.send w.transport prepared).1 = reply ∧
      Traffic w rest [prepared] [] (w.send prepared).2 := by
  have hsend : Transport.send w.transport prepared = (reply, ⟨rest⟩) := by
    show w.transport.next = _
    unfold Script.next
    rw [hreplies]
  refine ⟨by rw [hsend], rfl, ?_, World.requests_send w prepared, ?_⟩
  · show (Transport.send w.transport prepared).2.replies = rest
    rw [hsend]
  · rw [World.delays_send, List.append_nil]

theorem drifts_exchange_of_settled [Transport σ] (hcancel : client.cancel = none)
    {prepared : HttpRequest} {reply : Reply} {w : World σ}
    (hreply : (Transport.send w.transport prepared).1 = reply)
    {settled : Except TransportFault HttpResponse} (hsettled : client.settled? reply = some settled)
    (n : Nat) :
    exists w', Drifts ((w.report (.executing prepared.method prepared.url n)).send prepared).2 w' ∧
      client.exchange none prepared n w = (.ok settled, w') := by
  have hopen : w.isCanceled client.cancel = false := by
    rw [hcancel]
    rfl
  rw [exchange_of_open hopen, hreply]
  exact receive_of_settled hcancel hsettled _

theorem exchange_of_settled (hcancel : client.cancel = none) {w : World Script} {reply : Reply}
    {rest : List Reply} (hreplies : w.transport.replies = reply :: rest)
    {settled : Except TransportFault HttpResponse} (hsettled : client.settled? reply = some settled)
    (prepared : HttpRequest) (n : Nat) :
    exists w', Traffic w rest [prepared] [] w' ∧
      client.exchange none prepared n w = (.ok settled, w') := by
  have hexecuting : Drifts w (w.report (.executing prepared.method prepared.url n)) :=
    World.drifts_report w _ (by simp [Event.failure?])
  rcases traffic_send (w := w.report (.executing prepared.method prepared.url n)) hreplies prepared
    with ⟨hreply, hsent⟩
  have hgiven : (Transport.send w.transport prepared).1 = reply := hreply
  rcases drifts_exchange_of_settled hcancel hgiven hsettled n with ⟨w', hdrifts, hexchange⟩
  exact ⟨w', (hsent.of_drifts_left hexecuting).of_drifts hdrifts, hexchange⟩

variable [Json.Decode α]

theorem attempt_of_outcome (hcancel : client.cancel = none)
    (hpolicy : client.InFlight request n policy) {w : World Script} {reply : Reply}
    {rest : List Reply} (hreplies : w.transport.replies = reply :: rest)
    {o : Except Error (Response α)} (ho : client.outcome? w.clock n reply = some o)
    (path : String) (prepared : HttpRequest) :
    exists w', (client.Decides request n o ∧ Traffic w rest [prepared] [] w' ∧
        client.attempt path none prepared policy w = (.ended (o.mapError .failed), w')) ∨
      (¬ client.Decides request n o ∧
        client.attempt path none prepared policy w =
          ((.ended (.error (.overflow .totalBackoff)), w') : Progress α × World Script)) ∨
      (¬ client.Decides request n o ∧ exists delay next, client.InFlight request (n + 1) next ∧
        Traffic w rest [prepared] [delay] w' ∧
        client.attempt path none prepared policy w =
          ((.again next, w') : Progress α × World Script)) := by
  unfold outcome? at ho
  cases hsettled : client.settled? reply with
  | none =>
    rw [hsettled] at ho
    cases ho
  | some settled =>
    rw [hsettled] at ho
    dsimp only at ho
    rcases exchange_of_settled hcancel hreplies hsettled prepared n with ⟨w₁, hw₁, hexchange⟩
    cases hjudge : (judge w.clock n settled : Except Overflow (Verdict α)) with
    | error overflow =>
      rw [hjudge] at ho
      cases ho
    | ok verdict =>
      rw [hjudge] at ho
      cases ho
      have hreported := hw₁.of_drifts (drifts_verdict hjudge w₁)
      have hne := judge_ne_canceled hjudge
      rw [← hpolicy.attempt_eq] at hexchange hjudge
      rw [attempt_of_verdict hexchange (hw₁.clock.symm ▸ hjudge)]
      unfold conclude
      cases hresult : verdict.result with
      | ok response => exact ⟨_, Or.inl ⟨trivial, hreported, rfl⟩⟩
      | error e =>
        have he : e ≠ .canceled := fun hcanceled => hne (hcanceled ▸ hresult)
        by_cases hfinal : client.IsFinal request n e
        · rcases afterFailure_of_isFinal (α := α) hpolicy hfinal he path none prepared.method
            (w₁.reportAll verdict.events) with ⟨w₂, hw₂, hafter⟩
          exact ⟨w₂, Or.inl ⟨hfinal, hreported.of_drifts hw₂, hafter⟩⟩
        · rcases afterFailure_of_not_isFinal (α := α) hpolicy hfinal he path none prepared.method
            (w₁.reportAll verdict.events) with ⟨w₂, hw₂, hafter | ⟨delay, next, hnext, hafter⟩⟩
          · exact ⟨w₂, Or.inr (Or.inl ⟨hfinal, hafter⟩)⟩
          · have hbefore := hreported.of_drifts hw₂
            have hpaused := traffic_paused w₂ delay
            rw [hbefore.replies] at hpaused
            rcases pause_of_no_token hcancel delay w₂ with ⟨w₃, hw₃, hpause⟩
            rw [hpause] at hafter
            exact ⟨w₃, Or.inr (Or.inr ⟨hfinal, delay, next, hnext,
              (hbefore.trans hpaused).of_drifts hw₃, hafter⟩)⟩

/-!
## The whole call
-/

theorem attempts_of_outcomes (hcancel : client.cancel = none) (path : String)
    (prepared : HttpRequest) {k : Nat} {o : Nat -> Except Error (Response α)}
    (hdecides : client.Decides request k (o k)) {fuel : Nat} {w : World Script}
    (hpolicy : client.InFlight request n policy) (hle : n ≤ k) (hfuel : k < n + fuel)
    (hbefore : forall i, n ≤ i -> i < k -> ¬ client.Decides request i (o i))
    (houtcome : forall i, n ≤ i -> i ≤ k -> exists reply, w.transport.replies[i - n]? = some reply ∧
      client.outcome? w.clock i reply = some (o i))
    (hoverflow : (client.attempts path none prepared fuel policy w :
      Except Halt (Response α) × World Script).1 ≠ .error (.overflow .totalBackoff)) :
    exists rest delays, delays.length = k - n ∧
      (client.attempts path none prepared fuel policy w).1 = (o k).mapError .failed ∧
      Traffic w rest (List.replicate (k + 1 - n) prepared) delays
        (client.attempts path none prepared fuel policy w :
          Except Halt (Response α) × World Script).2 := by
  induction fuel generalizing n policy w with
  | zero => exact absurd hfuel (Nat.not_lt_of_le hle)
  | succ fuel ih =>
    rcases houtcome n (Nat.le_refl n) hle with ⟨reply, hreply, ho⟩
    rw [Nat.sub_self] at hreply
    rcases hreplies : w.transport.replies with _ | ⟨first, rest⟩
    · rw [hreplies] at hreply
      cases hreply
    rw [hreplies] at hreply
    cases hreply
    unfold attempts at hoverflow ⊢
    rcases attempt_of_outcome hcancel hpolicy hreplies ho path prepared with
      ⟨w₁, ⟨hnow, htraffic, hattempt⟩ | ⟨_, hattempt⟩ |
        ⟨hnot, delay, next, hnext, htraffic, hattempt⟩⟩
    · -- The attempt decides, so it is the first one that does.
      have hkn : n = k := by
        by_contra hne
        exact hbefore n (Nat.le_refl n) (Nat.lt_of_le_of_ne hle hne) hnow
      subst hkn
      rw [hattempt]
      refine ⟨rest, [], (Nat.sub_self n).symm, rfl, ?_⟩
      rw [Nat.add_sub_cancel_left]
      exact htraffic
    · rw [hattempt] at hoverflow
      exact absurd rfl hoverflow
    · have hlt : n < k := by
        refine Nat.lt_of_le_of_ne hle ?_
        rintro rfl
        exact hnot hdecides
      rw [hattempt] at hoverflow ⊢
      have hlater : forall i, n + 1 ≤ i -> i ≤ k -> exists reply,
          w₁.transport.replies[i - (n + 1)]? = some reply ∧
            client.outcome? w₁.clock i reply = some (o i) := by
        intro i hi hik
        rcases houtcome i (Nat.le_of_succ_le hi) hik with ⟨reply, hreply, ho⟩
        refine ⟨reply, ?_, htraffic.clock ▸ ho⟩
        rw [htraffic.replies, ← hreply, hreplies, show i - n = i - (n + 1) + 1 by omega,
          List.getElem?_cons_succ]
      have hleft : k < n + 1 + fuel := by omega
      rcases ih hnext hlt hleft (fun i hi => hbefore i (Nat.le_of_succ_le hi)) hlater hoverflow
        with ⟨rest', delays, hlength, hresult, htraffic'⟩
      refine ⟨rest', delay :: delays, ?_, hresult, ?_⟩
      · rw [List.length_cons, hlength]
        omega
      · have hall := htraffic.trans htraffic'
        rw [List.singleton_append, ← List.replicate_succ] at hall
        rw [show k + 1 - n = k + 1 - (n + 1) + 1 by omega]
        exact hall

theorem attempts_eq_of_outcome? {clock : Moment} {reply : Reply} {response : Response α}
    (h : client.outcome? clock n reply = some (.ok response)) : response.attempts = n := by
  unfold outcome? at h
  cases hsettled : client.settled? reply with
  | none =>
    rw [hsettled] at h
    cases h
  | some settled =>
    rw [hsettled] at h
    dsimp only at h
    cases hjudge : (judge clock n settled : Except Overflow (Verdict α)) with
    | error overflow =>
      rw [hjudge] at h
      cases h
    | ok verdict =>
      rw [hjudge] at h
      injection h with hresult
      rcases judge_cases hjudge with ⟨_, _, rfl⟩ | ⟨received, _, _, rfl⟩ | ⟨_, _, _, _, _, rfl⟩
      · cases hresult
      · unfold accept at hresult
        dsimp only at hresult
        cases hdecoded : (Json.decode _ : Except Json.Error α) with
        | error e =>
          rw [hdecoded] at hresult
          cases hresult
        | ok data =>
          rw [hdecoded] at hresult
          cases hresult
          rfl
      · cases hresult

omit [Json.Decode α] in
theorem decides_of_maxRetries_lt {retries : Nat}
    (hretries : client.strategy.maxRetries? = some retries) (h : retries < n)
    (o : Except Error (Response α)) : client.Decides request n o := by
  have hnone : client.strategy.nominal? n = none :=
    (Strategy.nominal?_eq_none_iff hretries (Nat.one_le_of_lt h)).mpr h
  cases o with
  | ok response => trivial
  | error e => exact Or.inr (Or.inr hnone)

omit [Json.Decode α] in
theorem le_succ_of_isLeast {retries k : Nat} {o : Nat -> Except Error (Response α)}
    (hretries : client.strategy.maxRetries? = some retries)
    (hk : IsLeast {i | 1 ≤ i ∧ client.Decides request i (o i)} k) : k ≤ retries + 1 :=
  hk.2 ⟨Nat.le_add_left 1 retries,
    decides_of_maxRetries_lt hretries (Nat.lt_succ_self retries) _⟩

omit [Json.Decode α] in
/-- The attempts that are allowed for suffice for the one that decides. -/
theorem le_attemptLimit_of_isLeast {k : Nat} {o : Nat -> Except Error (Response α)}
    (hk : IsLeast {i | 1 ≤ i ∧ client.Decides request i (o i)} k)
    (hword : client.strategy.maxRetries? = none -> k < UInt64.size) :
    k ≤ client.strategy.attemptLimit := by
  unfold Strategy.attemptLimit
  cases hretries : client.strategy.maxRetries? with
  | none => exact Nat.le_of_lt (hword hretries)
  | some retries => exact le_succ_of_isLeast hretries hk

/-- Let `o i` be the outcome of attempt `i` and `k` the first attempt that decides.  The call sends
the prepared request `k` times, pauses between the attempts, and returns `o k`, unless its delays
add up to more than a duration can hold.  A strategy that does not say how many retries there are
must not come to more attempts than a word can count. -/
theorem call_ends_with_deciding_attempt (hcancel : client.cancel = none)
    (hdeadline : client.deadline = none) {body : Option Payload} {prepared : HttpRequest}
    (hprepare : client.prepare request body = .ok prepared) {w : World Script} {k : Nat}
    {o : Nat -> Except Error (Response α)}
    (hk : IsLeast {i | 1 ≤ i ∧ client.Decides request i (o i)} k)
    (houtcome : forall i, 1 ≤ i -> i ≤ k -> exists reply, w.transport.replies[i - 1]? = some reply ∧
      client.outcome? w.clock i reply = some (o i))
    (hword : client.strategy.maxRetries? = none -> k < UInt64.size)
    (hoverflow : (client.call request body w :
      Except Halt (Response α) × World Script).1 ≠ .error (.overflow .totalBackoff)) :
    (client.call request body w).1 = (o k).mapError .failed ∧
      (forall response, o k = .ok response -> response.attempts = k) ∧
      (client.call request body w : Except Halt (Response α) × World Script).2.requests =
        w.requests ++ List.replicate k prepared ∧
      (exists delays, delays.length = k - 1 ∧
        (client.call request body w : Except Halt (Response α) × World Script).2.delays =
          w.delays ++ delays) ∧
      forall retries, client.strategy.maxRetries? = some retries -> k ≤ retries + 1 := by
  have hcall : (client.call request body w : Except Halt (Response α) × World Script) =
      client.attempts request.path none prepared client.strategy.attemptLimit
        (client.policy request) w := by
    unfold call callUntil
    rw [hdeadline]
    dsimp only
    rw [hprepare]
  have hbefore : forall i, 1 ≤ i -> i < k -> ¬ client.Decides request i (o i) :=
    fun i hi hlt hdecides => Nat.not_le_of_lt hlt (hk.2 ⟨hi, hdecides⟩)
  rw [hcall] at hoverflow ⊢
  have hfuel : k < 1 + client.strategy.attemptLimit := by
    have hlimit := le_attemptLimit_of_isLeast hk hword
    omega
  rcases attempts_of_outcomes hcancel request.path prepared hk.1.2
    (inFlight_policy client request) hk.1.1 hfuel hbefore houtcome hoverflow
    with ⟨rest, delays, hlength, hresult, htraffic⟩
  refine ⟨hresult, ?_, htraffic.requests, ⟨delays, hlength, htraffic.delays⟩, ?_⟩
  · intro response hresponse
    rcases houtcome k hk.1.1 (Nat.le_refl k) with ⟨reply, _, ho⟩
    rw [hresponse] at ho
    exact attempts_eq_of_outcome? ho
  · intro retries hretries
    exact le_succ_of_isLeast hretries hk

end Client

/-!
## A call of three attempts
-/

namespace Sample

def threeReplies : List Reply :=
  [reply 3 (some (.ok unavailable)), reply 300 (some (.ok done)), reply 7 (some (.ok done))]

def threeOutcomes : Nat -> Except Error (Response Unit)
  | 1 => .error (.api ⟨unavailable.status, [⟨none, "Service Unavailable"⟩], "", .empty, none⟩)
  | 2 => .error .timeout
  | n => .ok ⟨(), "", done.status, .empty, n⟩

theorem isLeast_decides_threeOutcomes :
    IsLeast {i | 1 ≤ i ∧ client.Decides request i (threeOutcomes i)} 3 := by
  constructor
  · exact ⟨by decide, trivial⟩
  · rintro i ⟨hi, hdecides⟩
    by_contra hlt
    have hretried : forall e, client.predicate e i = true -> ¬ client.IsFinal request i e := by
      rintro e he (h | h | h)
      · cases h
      · rw [he] at h
        cases h
      · have hdelay : client.strategy.nominal? i = some (.ofMillis 5) := if_neg (by omega)
        rw [hdelay] at h
        cases h
    interval_cases i
    · exact hretried _ rfl hdecides
    · exact hretried _ rfl hdecides

theorem call_ends_with_third_attempt :
    (client.call request none (world threeReplies) : Except Halt (Response Unit) × World Script).1 =
        .ok ⟨(), "", done.status, .empty, 3⟩ ∧
      (client.call request none (world threeReplies) :
        Except Halt (Response Unit) × World Script).2.requests =
          [prepared, prepared, prepared] := by
  have hprepare : client.prepare request none = .ok prepared := by decide +kernel
  have houtcome : forall i, 1 ≤ i -> i ≤ 3 -> exists reply,
      (world threeReplies).transport.replies[i - 1]? = some reply ∧
        client.outcome? (world threeReplies).clock i reply = some (threeOutcomes i) := by
    intro i hi hle
    interval_cases i
    · exact ⟨_, rfl, by decide +kernel⟩
    · exact ⟨_, rfl, by decide +kernel⟩
    · exact ⟨_, rfl, by decide +kernel⟩
  have hword : client.strategy.maxRetries? = none -> 3 < UInt64.size := fun _ => by decide
  have hoverflow : (client.call request none (world threeReplies) :
      Except Halt (Response Unit) × World Script).1 ≠ .error (.overflow .totalBackoff) := by
    decide +kernel
  have hcall := Client.call_ends_with_deciding_attempt rfl rfl hprepare
    isLeast_decides_threeOutcomes houtcome hword hoverflow
  exact ⟨hcall.1, hcall.2.2.1⟩

end Sample
end RestClient
