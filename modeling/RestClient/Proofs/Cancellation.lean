import RestClient.Proofs.Collecting
import RestClient.Proofs.Forgetting
import RestClient.Proofs.Serving
import RestClient.Proofs.UnderWay
import RestClient.Sample

/-!
# Cancellation

Once its token is canceled a client sends no more requests.  A call that is waiting then ends
with the cancellation; a reply that arrives together with it still counts if it is the last one.
-/

namespace RestClient
namespace Client

open World (Drifts before)

variable {σ α : Type} {client : Client} {t : Token} {request : Request} {prepared : HttpRequest}
  {policy : Policy} {horizon : Option Nat} {reply : Reply} {w : World σ}

/-!
## Waiting with a token
-/

theorem wait_of_canceled {target : Option Nat} (htoken : client.cancel = some t)
    (hcanceled : w.isCanceled (some t) = true) (htarget : before w.now target = true)
    (hhorizon : before w.now horizon = true) :
    exists w', client.wait horizon target w = (.error (.failed .canceled), w') := by
  have hdue : ¬ target.any (· ≤ w.now) = true := by
    cases target with
    | none => simp
    | some time => simpa [before] using htarget
  unfold wait World.wait
  rw [htoken, if_neg hdue]
  unfold World.cancelTime?
  rw [if_pos hcanceled, Option.map_some, Nat.max_self]
  dsimp only
  rw [htarget, hhorizon, if_pos (by rfl)]
  exact ⟨_, rfl⟩

theorem wait_arrival (htoken : client.cancel = some t) {arrival : Nat} (hnow : w.now ≤ arrival)
    (hhorizon : horizon.all (arrival ≤ ·) = true) :
    (exists w', Drifts w w' ∧ w'.now = arrival ∧
        client.wait horizon (some arrival) w = (.ok (), w')) ∨
      (exists time, w.cancelTime? (some t) = some time ∧ max w.now time < arrival) ∧
        exists w', client.wait horizon (some arrival) w = (.error (.failed .canceled), w') := by
  have hsettle : World.wait.settle w horizon (some arrival) = (.reached, w.advance arrival) := by
    unfold World.wait.settle
    cases horizon with
    | none => rfl
    | some horizon => exact if_pos (by simpa using hhorizon)
  have hadvance : Drifts w (w.advance arrival) :=
    Relation.ReflTransGen.single (World.Drift.advance w arrival)
  unfold wait World.wait
  rw [htoken, hsettle]
  by_cases hdue : (some arrival).any (· ≤ w.now) = true
  · rw [if_pos hdue]
    have hle : arrival ≤ w.now := by simpa using hdue
    exact Or.inl ⟨w, Relation.ReflTransGen.refl, Nat.le_antisymm hnow hle, rfl⟩
  · rw [if_neg hdue]
    cases hcancel : w.cancelTime? (some t) with
    | none => exact Or.inl ⟨w.advance arrival, hadvance, Nat.max_eq_right hnow, rfl⟩
    | some time =>
      rw [Option.map_some]
      dsimp only
      by_cases hfirst :
          (before (max w.now time) (some arrival) && before (max w.now time) horizon) = true
      · rw [if_pos hfirst]
        have hlt : max w.now time < arrival := by
          have hbefore := (Bool.and_eq_true_iff.mp hfirst).1
          simpa only [before, Option.all_some, decide_eq_true_eq] using hbefore
        exact Or.inr ⟨⟨time, rfl, hlt⟩, _, rfl⟩
      · rw [if_neg hfirst]
        exact Or.inl ⟨w.advance arrival, hadvance, Nat.max_eq_right hnow, rfl⟩

theorem le_cancelTime? {arrival time : Nat} (hopen : w.isCanceled (some t) = false)
    (hscheduled : forall entry, entry ∈ w.scheduled -> entry.2 = t -> arrival ≤ entry.1)
    (h : w.cancelTime? (some t) = some time) : arrival ≤ time := by
  unfold World.cancelTime? at h
  rw [hopen, if_neg Bool.false_ne_true] at h
  rcases List.mem_map.mp (List.min?_mem h) with ⟨entry, hentry, rfl⟩
  rcases List.mem_filter.mp hentry with ⟨hmem, htoken⟩
  exact hscheduled entry hmem (by simpa using htoken)

/-!
## Replies that cancel the token
-/

theorem receive_of_pending (htoken : client.cancel = some t) (hcancels : reply.cancels = some t)
    (houtcome : reply.outcome = none)
    (hlimit : before (w.now + reply.wait.ticks) (client.limit w) = true)
    (hhorizon : before (w.now + reply.wait.ticks) horizon = true) :
    exists w', client.receive horizon reply w = (.error (.failed .canceled), w') := by
  have hintime : (client.limit w).all (w.now + reply.wait.ticks ≤ ·) = true := by
    cases hcases : client.limit w with
    | none => rfl
    | some time =>
      rw [hcases] at hlimit
      have hlt : w.now + reply.wait.ticks < time := by simpa [before] using hlimit
      simpa using Nat.le_of_lt hlt
  have hreached : horizon.all (w.now + reply.wait.ticks ≤ ·) = true := by
    cases horizon with
    | none => rfl
    | some time =>
      have hlt : w.now + reply.wait.ticks < time := by simpa [before] using hhorizon
      simpa using Nat.le_of_lt hlt
  unfold receive
  dsimp only
  rw [if_pos hintime]
  rcases wait_arrival htoken (Nat.le_add_right _ _) hreached
    with ⟨w₁, _, hnow, harrival⟩ | ⟨_, w₁, hcanceled⟩
  · rw [harrival]
    rcases wait_of_canceled htoken (World.isCanceled_cancel_self w₁ t)
      (show before w₁.now (client.limit w) = true by rw [hnow, hlimit])
      (show before w₁.now horizon = true by rw [hnow, hhorizon]) with ⟨w₂, hwait⟩
    refine ⟨w₂, ?_⟩
    dsimp only
    unfold deliver World.arrive
    rw [hcancels, houtcome]
    dsimp only
    unfold awaitTimeout
    rw [hwait]
  · exact ⟨w₁, by rw [hcanceled]⟩

/-- The reply arrives before the attempt or the call is over, and nothing else cancels the token
until then. -/
structure Arrives (client : Client) (t : Token) (horizon : Option Nat) (reply : Reply)
    (w : World σ) : Prop where
  limit : (client.limit w).all (w.now + reply.wait.ticks ≤ ·) = true
  horizon : horizon.all (w.now + reply.wait.ticks ≤ ·) = true
  isOpen : w.isCanceled (some t) = false
  scheduled : forall entry, entry ∈ w.scheduled -> entry.2 = t -> w.now + reply.wait.ticks ≤ entry.1

theorem exists_arrival (htoken : client.cancel = some t)
    (harrives : client.Arrives t horizon reply w) (hcancels : reply.cancels = some t) :
    exists w', Drifts w w' ∧ w'.isCanceled (some t) = true ∧ w'.now = w.now + reply.wait.ticks ∧
      client.receive horizon reply w = client.deliver horizon (client.limit w) reply w' := by
  unfold receive
  dsimp only
  rw [if_pos harrives.limit]
  rcases wait_arrival htoken (Nat.le_add_right _ _) harrives.horizon
    with ⟨w₁, hw₁, hnow, harrival⟩ | ⟨⟨time, htime, hlt⟩, _⟩
  · refine ⟨w₁.cancel t, hw₁.tail (World.Drift.cancel w₁ t),
      World.isCanceled_cancel_self w₁ t, hnow, ?_⟩
    rw [harrival]
    dsimp only
    unfold World.arrive
    rw [hcancels]
  · have hle := le_cancelTime? harrives.isOpen harrives.scheduled htime
    omega

/-- The client takes this for the outcome of a reply when it arrives.  A reply that never completes
is a timeout if the time of the attempt is over at that very moment. -/
inductive Takes (client : Client) (reply : Reply) (w : World σ) :
    Except TransportFault HttpResponse -> Prop where
  | outcome {outcome : Except TransportFault HttpResponse} (h : reply.outcome = some outcome) :
      Takes client reply w outcome
  | tied (hnone : reply.outcome = none)
      (hlimit : client.limit w = some (w.now + reply.wait.ticks)) :
      Takes client reply w (.error .timeout)

theorem receive_of_arrives (htoken : client.cancel = some t)
    (harrives : client.Arrives t horizon reply w) (hcancels : reply.cancels = some t)
    {outcome : Except TransportFault HttpResponse} (htakes : client.Takes reply w outcome) :
    exists w', Drifts w w' ∧ w'.isCanceled (some t) = true ∧
      client.receive horizon reply w = (.ok outcome, w') := by
  rcases exists_arrival htoken harrives hcancels with ⟨w', hw', hcanceled, hnow, hreceive⟩
  refine ⟨w', hw', hcanceled, ?_⟩
  rw [hreceive]
  unfold deliver
  cases htakes with
  | outcome houtcome => rw [houtcome]
  | tied hnone hlimit =>
    have hdue : (some (w.now + reply.wait.ticks)).any (· ≤ w'.now) = true := by
      simp [hnow]
    rw [hnone, hlimit]
    dsimp only
    unfold awaitTimeout wait World.wait
    rw [if_pos hdue]

/-!
## Attempts
-/

theorem pause_of_canceled (hcanceled : w.isCanceled client.cancel = true) (horizon : Option Nat)
    (delay : Duration) :
    client.pause horizon delay w =
      (.error (.failed .canceled), (w.note (.paused delay)).report .canceled) := by
  unfold pause
  exact if_pos hcanceled

theorem afterFailure_of_canceled (hcanceled : w.isCanceled client.cancel = true) {e : Error}
    (hbacksOff : policy.BacksOff w.clock (w.jitter w.delays.length) e) (path : String)
    (horizon : Option Nat) (method : Method) :
    exists w', client.afterFailure path horizon method policy e w =
      ((.ended (.error (.failed .canceled)), w') : Progress α × World σ) := by
  rcases hbacksOff with ⟨next, delay, hrecord, hnext⟩
  have hdelays : (w.report (.failed e policy.attempt method path)).delays = w.delays := by
    simp [World.delays, World.report, World.note, List.filterMap_append, Entry.delay?]
  have hstill : ((w.report (.failed e policy.attempt method path)).report
      (.retrying delay policy.attempt e.rateLimit?.isSome)).isCanceled client.cancel = true :=
    hcanceled
  unfold afterFailure
  dsimp only
  rw [hdelays, show (w.report (.failed e policy.attempt method path)).clock = w.clock from rfl,
    show (w.report (.failed e policy.attempt method path)).jitter = w.jitter from rfl, hrecord]
  dsimp only
  rw [hnext]
  dsimp only
  rw [pause_of_canceled hstill]
  exact ⟨_, rfl⟩

variable [Transport σ] [Json.Decode α]

/-- The reply arrives together with the cancellation and gives the attempt this outcome. -/
structure Delivers (client : Client) (t : Token) (horizon : Option Nat) (reply : Reply)
    (attempt : Nat) (w : World σ) (o : Except Error (Response α)) : Prop where
  arrives : client.Arrives t horizon reply w
  cancels : reply.cancels = some t
  judged : exists outcome verdict, reply.outcome = some outcome ∧
    judge w.clock attempt outcome = .ok verdict ∧ verdict.result = o

/-- How a call ends if its token is canceled when an attempt begins, or by the reply to it. -/
structure EndsPromptly (client : Client) (t : Token) (request : Request) (horizon : Option Nat)
    (policy : Policy) (w : World σ) (reply : Reply) (result : Except Halt (Response α)) :
    Prop where
  canceled : w.isCanceled (some t) = true -> result = .error (.failed .canceled)
  pending : w.isCanceled (some t) = false -> reply.cancels = some t -> reply.outcome = none ->
    before (w.now + reply.wait.ticks) (client.limit w) = true ->
    before (w.now + reply.wait.ticks) horizon = true -> result = .error (.failed .canceled)
  final : forall o : Except Error (Response α),
    client.Delivers t horizon reply policy.attempt w o ->
    client.Decides request policy.attempt o -> result = o.mapError .failed
  retried : forall e, client.Delivers t horizon reply policy.attempt w
      (.error e : Except Error (Response α)) ->
    policy.BacksOff w.clock (w.jitter w.delays.length) e -> result = .error (.failed .canceled)
  /-- When the time of the attempt is over at the moment of the cancellation, the attempt has failed
  with a timeout before the cancellation is noticed. -/
  tied : client.Arrives t horizon reply w -> reply.cancels = some t -> reply.outcome = none ->
    client.limit w = some (w.now + reply.wait.ticks) ->
    (client.IsFinal request policy.attempt .timeout -> result = .error (.failed .timeout)) ∧
    (policy.BacksOff w.clock (w.jitter w.delays.length) .timeout ->
      result = .error (.failed .canceled))

theorem attempt_of_takes (htoken : client.cancel = some t)
    (harrives : client.Arrives t horizon (Transport.send w.transport prepared).1 w)
    (hcancels : (Transport.send w.transport prepared).1.cancels = some t)
    {outcome : Except TransportFault HttpResponse}
    (htakes : client.Takes (Transport.send w.transport prepared).1 w outcome)
    {verdict : Verdict α} (hjudge : judge w.clock policy.attempt outcome = .ok verdict)
    {o : Except Error (Response α)} (hresult : verdict.result = o) (path : String) :
    exists w', w'.isCanceled client.cancel = true ∧ w'.clock = w.clock ∧ w'.jitter = w.jitter ∧
      w'.delays = w.delays ∧ o ≠ .error .canceled ∧
      client.attempt path horizon prepared policy w =
        match o with
        | .ok response => (.ended (.ok response), w')
        | .error e => client.afterFailure path horizon prepared.method policy e w' := by
  subst hresult
  have hexecuting := (World.drifts_report w
    (.executing prepared.method prepared.url policy.attempt) (by simp [Event.failure?])).sameTraffic
  have htakes' : client.Takes (Transport.send w.transport prepared).1 ((w.report
      (.executing prepared.method prepared.url policy.attempt)).send prepared).2 outcome := by
    cases htakes with
    | outcome houtcome => exact .outcome houtcome
    | tied hnone hlimit => exact .tied hnone hlimit
  rcases receive_of_arrives (w := ((w.report
    (.executing prepared.method prepared.url policy.attempt)).send prepared).2) htoken
    ⟨harrives.limit, harrives.horizon, harrives.isOpen, harrives.scheduled⟩ hcancels htakes'
    with ⟨w₁, hw₁, hcanceled, hreceive⟩
  have hsame := hw₁.sameTraffic
  have hclock : w₁.clock = w.clock := hsame.clock
  have hreported := (drifts_verdict hjudge w₁).sameTraffic
  rw [← exchange_of_open (htoken.symm ▸ harrives.isOpen) horizon prepared policy.attempt]
    at hreceive
  refine ⟨w₁.reportAll verdict.events, ?_, ?_, ?_, ?_, judge_ne_canceled hjudge, ?_⟩
  · rw [htoken]
    exact hcanceled
  · exact hclock
  · exact hsame.jitter
  · rw [hreported.delays, hsame.delays, World.delays_send, hexecuting.delays]
  · rw [attempt_of_verdict hreceive (hclock.symm ▸ hjudge)]
    unfold conclude
    rfl

theorem UnderWay.call_of_attempt {w₁ w₂ : World σ} {body : Option Payload}
    (hprepare : client.prepare request body = .ok prepared)
    (h : UnderWay α client request prepared w policy w₁) {result : Except Halt (Response α)}
    (hresult : result ≠ .error .expired)
    (hattempt : client.attempt request.path (client.horizon w) prepared policy w₁ =
      (.ended result, w₂)) :
    (client.call request body w : Except Halt (Response α) × World σ).1 = result := by
  rw [h.call_eq hprepare hresult hattempt]

theorem UnderWay.call_of_takes {w₁ : World σ} (htoken : client.cancel = some t)
    {body : Option Payload} (hprepare : client.prepare request body = .ok prepared)
    (h : UnderWay α client request prepared w policy w₁)
    (harrives : client.Arrives t (client.horizon w) (Transport.send w₁.transport prepared).1 w₁)
    (hcancels : (Transport.send w₁.transport prepared).1.cancels = some t)
    {outcome : Except TransportFault HttpResponse}
    (htakes : client.Takes (Transport.send w₁.transport prepared).1 w₁ outcome)
    {verdict : Verdict α} (hjudge : judge w₁.clock policy.attempt outcome = .ok verdict)
    {o : Except Error (Response α)} (hverdict : verdict.result = o) :
    (client.Decides request policy.attempt o ->
      (client.call request body w).1 = o.mapError .failed) ∧
    forall e, o = .error e -> policy.BacksOff w₁.clock (w₁.jitter w₁.delays.length) e ->
      (client.call request body w : Except Halt (Response α) × World σ).1 =
        .error (.failed .canceled) := by
  rcases attempt_of_takes htoken harrives hcancels htakes hjudge hverdict request.path
    with ⟨w₂, hcanceled, hclock, hjitter, hdelays, hne, hattempt⟩
  constructor
  · intro hdecides
    cases o with
    | ok response => exact h.call_of_attempt hprepare (by simp [Except.mapError]) hattempt
    | error e =>
      rcases afterFailure_of_isFinal (α := α) h.inFlight hdecides (fun he => hne (he ▸ rfl))
        request.path (client.horizon w) prepared.method w₂ with ⟨w₃, _, hafter⟩
      exact h.call_of_attempt hprepare (by simp [Except.mapError]) (hattempt.trans hafter)
  · rintro e rfl hbacksOff
    rcases afterFailure_of_canceled (α := α) hcanceled
      (by rw [hclock, hjitter, hdelays]; exact hbacksOff) request.path (client.horizon w)
      prepared.method with ⟨w₃, hafter⟩
    exact h.call_of_attempt hprepare (by simp) (hattempt.trans hafter)

theorem UnderWay.endsPromptly {w₁ : World σ} (htoken : client.cancel = some t)
    {body : Option Payload} (hprepare : client.prepare request body = .ok prepared)
    (h : UnderWay α client request prepared w policy w₁) :
    client.EndsPromptly t request (client.horizon w) policy w₁
      (Transport.send w₁.transport prepared).1
      (client.call request body w : Except Halt (Response α) × World σ).1 := by
  constructor
  · intro hcanceled
    have hexchange := exchange_of_canceled (show w₁.isCanceled client.cancel = true by
      rw [htoken, hcanceled]) (client.horizon w) prepared policy.attempt
    exact h.call_of_attempt hprepare (by simp) (attempt_of_halt hexchange request.path)
  · intro hopen hcancels houtcome hlimit hhorizon
    rcases receive_of_pending (w := ((w₁.report
      (.executing prepared.method prepared.url policy.attempt)).send prepared).2) htoken hcancels
      houtcome hlimit hhorizon with ⟨w₂, hreceive⟩
    rw [← exchange_of_open (htoken.symm ▸ hopen) (client.horizon w) prepared policy.attempt]
      at hreceive
    exact h.call_of_attempt hprepare (by simp) (attempt_of_halt hreceive request.path)
  · intro o hdelivers hdecides
    rcases hdelivers.judged with ⟨outcome, verdict, houtcome, hjudge, hverdict⟩
    exact (h.call_of_takes htoken hprepare hdelivers.arrives hdelivers.cancels
      (.outcome houtcome) hjudge hverdict).1 hdecides
  · intro e hdelivers hbacksOff
    rcases hdelivers.judged with ⟨outcome, verdict, houtcome, hjudge, hverdict⟩
    exact (h.call_of_takes htoken hprepare hdelivers.arrives hdelivers.cancels
      (.outcome houtcome) hjudge hverdict).2 e rfl hbacksOff
  · intro harrives hcancels hnone hlimit
    have hjudge : (judge w₁.clock policy.attempt (.error .timeout) :
      Except Overflow (Verdict α)) = .ok ⟨.error .timeout, []⟩ := rfl
    rcases h.call_of_takes htoken hprepare harrives hcancels (.tied hnone hlimit) hjudge rfl
      with ⟨hfinal, hretried⟩
    exact ⟨hfinal, hretried .timeout rfl⟩

theorem exists_prepare_forPage {page page' size : UInt32}
    (h : client.prepare (request.forPage page size) none = .ok prepared) :
    exists prepared', client.prepare (request.forPage page' size) none = .ok prepared' := by
  rcases Request.exists_prepare_of_path (url_of_prepare h) (request.forPage page' size) rfl with
    ⟨_, prepared', hprepare, _⟩
  exact ⟨prepared', hprepare⟩

end Client

/-!
## Listings
-/

namespace Listing

variable {σ α : Type} [Transport σ] [Json.Decode α]

theorem collect_of_canceled {listing : Listing α} {t : Token} {w : World σ}
    (htoken : listing.client.cancel = some t) (hcanceled : w.isCanceled (some t) = true)
    (hvalid : forall page, exists prepared, listing.client.prepare
      (listing.request.forPage page listing.paginator.pageSize) none = .ok prepared) :
    (listing.collect w).1 =
      if listing.paginator.nextPage.isSome then .error (.failed .canceled)
      else .ok listing.buffer := by
  cases hpage : listing.paginator.nextPage with
  | none =>
    rw [collect_of_ended hpage]
    rfl
  | some page =>
    rcases hvalid page with ⟨prepared, hprepare⟩
    have hfirst : Client.UnderWay (Page α) listing.client
      (listing.request.forPage page listing.paginator.pageSize) prepared w _ w := .first
    have hcall := (hfirst.endsPromptly htoken hprepare).canceled hcanceled
    rw [collect_of_page hpage]
    unfold fetch
    dsimp only
    rcases hanswer : (listing.client.call
      (listing.request.forPage page listing.paginator.pageSize) none w :
        Except Halt (Response (Page α)) × World σ) with ⟨result, w'⟩
    rw [hanswer] at hcall
    subst hcall
    rfl

end Listing

/-!
## All operations
-/

/-- No operation sends a request after its token was canceled or repeats an attempt because of it.
A call that has to be waited for ends with the cancellation, and so does a listing that needs
another page.  Clients without the token do not notice. -/
theorem cancellation_is_prompt_and_final {Item Create Update : Type} [Json.Decode Item]
    {client : Client} {t : Token} (htoken : client.cancel = some t) :
    (forall (c : Collection Create Update) (operation : Operation Create Update) (w : World Script),
      c.client = client ->
        World.Heeds t w (operation.run c w : Outcome Item × World Script).2) ∧
    (forall (request : Request) (body : Option Payload) (prepared : HttpRequest) (policy : Policy)
        (w w₁ : World Script), client.prepare request body = .ok prepared ->
      client.UnderWay Item request prepared w policy w₁ ->
        client.EndsPromptly t request (client.horizon w) policy w₁
          (Transport.send w₁.transport prepared).1
          (client.call request body w : Except Halt (Response Item) × World Script).1) ∧
    (forall (c : Collection Create Update) (options : ListOptions) (listing reached : Listing Item)
        (prepared : HttpRequest) (w w₁ : World Script), c.client = client ->
      c.stream options = .ok listing ->
      client.prepare (listing.request.forPage 1 listing.paginator.pageSize) none = .ok prepared ->
      listing.Walks w reached w₁ -> w₁.isCanceled (some t) = true ->
        (c.list options w).1 =
          if reached.paginator.nextPage.isSome then .error (.failed .canceled)
          else .ok reached.buffer) ∧
    forall (c : Collection Create Update) (operation : Operation Create Update) (w : World Script),
      c.client.cancel ≠ some t ->
        operation.run c (w.without t) =
          ((operation.run c w).map id (·.without t) : Outcome Item × World Script) := by
  refine ⟨?_, ?_, ?_, ?_⟩
  · rintro c operation w rfl
    have hmoves : World.Moves c.client.cancel w
        (operation.run c w : Outcome Item × World Script).2 := operation.moves_run c w
    rw [htoken] at hmoves
    exact hmoves.heeds
  · intro request body prepared policy w w₁ hprepare hunderWay
    exact hunderWay.endsPromptly htoken hprepare
  · rintro c options listing reached prepared w w₁ rfl hstream hprepare hwalks hcanceled
    have hclient := Operation.client_of_stream hstream
    rcases hwalks.same with ⟨hsame, hrequest, hsize⟩
    unfold Collection.list
    rw [hstream]
    dsimp only
    rw [hwalks.collect_eq]
    apply Listing.collect_of_canceled _ hcanceled
    · intro page
      rw [hsame, hrequest, hsize, hclient]
      exact Client.exists_prepare_forPage hprepare
    · rw [hsame, hclient, htoken]
  · intro c operation w hcancel
    exact Operation.run_of_forgotten hcancel operation w

namespace Sample

/-- A reply that never completes is given up, and one that arrives is returned. -/
theorem canceled_calls_end :
    (cancelable.call request none (world [canceling (reply 7 none)]) :
        Except Halt (Response Unit) × World Script).1 = .error (.failed .canceled) ∧
      (cancelable.call request none (world [canceling (reply 7 (some (.ok done)))]) :
        Except Halt (Response Unit) × World Script).1 = .ok ⟨(), "", done.status, .empty, 1⟩ := by
  have hprepare : cancelable.prepare request none = .ok prepared := by decide +kernel
  have hcalls := (@cancellation_is_prompt_and_final Unit Unit Unit _ cancelable token rfl).2.1
    request none prepared (cancelable.policy request)
  have hpending := hcalls (world [canceling (reply 7 none)]) _ hprepare .first
  have harrives := hcalls (world [canceling (reply 7 (some (.ok done)))]) _ hprepare .first
  constructor
  · exact hpending.pending (by decide) rfl rfl (by decide) (by decide)
  · refine harrives.final (.ok ⟨(), "", done.status, .empty, 1⟩) ?_ trivial
    refine ⟨⟨by decide, by decide, by decide, ?_⟩, rfl, _, _, rfl, rfl, ?_⟩
    · intro entry hentry
      cases hentry
    · decide +kernel

/-- If the time of the attempt is over at that very moment, the attempt has failed before the
cancellation is noticed. -/
theorem timeout_precedes_cancellation :
    ¬ forall (client : Client) (t : Token) (request : Request) (prepared : HttpRequest)
        (w : World Script), client.cancel = some t ->
      client.prepare request none = .ok prepared -> w.isCanceled (some t) = false ->
      (Transport.send w.transport prepared).1.cancels = some t ->
      (Transport.send w.transport prepared).1.outcome = none ->
        (client.call request none w : Except Halt (Response Unit) × World Script).1 =
          .error (.failed .canceled) := by
  intro h
  have hcanceled := h { cancelable with strategy := .never, timeout := some .zero } token request
    { prepared with timeout := some .zero } (world [canceling (reply 0 none)]) rfl
    (by decide +kernel) (by decide) rfl rfl
  have htimeout : (({ cancelable with strategy := .never, timeout := some .zero } : Client).call
      request none (world [canceling (reply 0 none)]) :
        Except Halt (Response Unit) × World Script).1 = .error (.failed .timeout) := by
    decide +kernel
  rw [htimeout] at hcanceled
  cases hcanceled

end Sample
end RestClient
