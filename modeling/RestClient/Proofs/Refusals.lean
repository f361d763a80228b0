import RestClient.Proofs.Streaming
import RestClient.Proofs.PageSize

/-!
# Refused arguments

Arguments are looked at before anything is sent.  An operation that refuses them leaves the world
as it was, apart from what it reports; and an identifier, a parameter, a page number or a page
size that the provider could not accept is always refused.
-/

namespace RestClient

variable {σ α β : Type}

/-- Something about a call is not acceptable, whatever the provider would say about it. -/
def Error.isRefusal : Error -> Bool
  | .serializationFailed _ | .invalidArgument _ | .configuration _ | .invalidUrl _ => true
  | _ => false

def Halt.isRefusal : Halt -> Bool
  | .failed e => e.isRefusal
  | _ => false

def Halt.of? : Except Halt β -> Option Halt
  | .error halt => some halt
  | .ok _ => none

def Unrefused (result : Except Halt β) : Prop :=
  forall halt, result = .error halt -> halt.isRefusal = false

theorem unrefused_ok (value : β) : Unrefused (.ok value) := by
  intro halt h
  cases h

theorem unrefused_error {halt : Halt} (h : halt.isRefusal = false) :
    Unrefused (.error halt : Except Halt β) := by
  intro other hother
  cases hother
  exact h

/-- From this world, either nothing was sent or awaited, or nothing was refused. -/
def RefusesEarly (w : World σ) (answer : Except Halt β × World σ) : Prop :=
  World.SameTraffic w answer.2 ∨ Unrefused answer.1

theorem World.sameTraffic_refl (w : World σ) : World.SameTraffic w w :=
  ⟨rfl, rfl, rfl, rfl, rfl⟩

theorem refusesEarly_error (w : World σ) (halt : Halt) :
    RefusesEarly w ((.error halt, w) : Except Halt β × World σ) :=
  Or.inl w.sameTraffic_refl

/-!
## Attempts

Once the request of a call is prepared nothing about it is refused any more.
-/

namespace Client

theorem unrefused_wait (client : Client) (horizon target : Option Nat) (w : World σ) :
    Unrefused (client.wait horizon target w).1 := by
  unfold wait
  rcases w.wait client.cancel horizon target with ⟨waking, w'⟩
  cases waking with
  | reached => exact unrefused_ok ()
  | canceled => exact unrefused_error rfl
  | expired => exact unrefused_error rfl
  | never => exact unrefused_error rfl

theorem unrefused_awaitTimeout (client : Client) (horizon limit : Option Nat) (w : World σ) :
    Unrefused (client.awaitTimeout horizon limit w).1 := by
  have hwait := client.unrefused_wait horizon limit w
  unfold awaitTimeout
  rcases hwaited : client.wait horizon limit w with ⟨halt | _, w'⟩
  · rw [hwaited] at hwait
    exact unrefused_error (hwait halt rfl)
  · exact unrefused_ok _

theorem unrefused_receive (client : Client) (horizon : Option Nat) (reply : Reply)
    (w : World σ) : Unrefused (client.receive horizon reply w).1 := by
  unfold receive
  dsimp only
  by_cases hlimit : (client.limit w).all (w.now + reply.wait.ticks ≤ ·) = true
  · have hwait := client.unrefused_wait horizon (some (w.now + reply.wait.ticks)) w
    rw [if_pos hlimit]
    rcases hwaited : client.wait horizon (some (w.now + reply.wait.ticks)) w with ⟨halt | _, w'⟩
    · rw [hwaited] at hwait
      exact unrefused_error (hwait halt rfl)
    · dsimp only
      unfold deliver
      cases reply.outcome with
      | some outcome => exact unrefused_ok outcome
      | none => exact client.unrefused_awaitTimeout horizon _ _
  · rw [if_neg hlimit]
    exact client.unrefused_awaitTimeout horizon _ w

theorem unrefused_exchange [Transport σ] (client : Client) (horizon : Option Nat)
    (prepared : HttpRequest) (n : Nat) (w : World σ) :
    Unrefused (client.exchange horizon prepared n w).1 := by
  cases hcanceled : w.isCanceled client.cancel with
  | true =>
    rw [exchange_of_canceled hcanceled]
    exact unrefused_error rfl
  | false =>
    rw [exchange_of_open hcanceled]
    exact client.unrefused_receive horizon _ _

theorem unrefused_pause (client : Client) (horizon : Option Nat) (delay : Duration)
    (w : World σ) : Unrefused (client.pause horizon delay w).1 := by
  unfold pause
  dsimp only
  by_cases hcanceled : (w.note (.paused delay)).isCanceled client.cancel = true
  · rw [if_pos hcanceled]
    exact unrefused_error rfl
  · rw [if_neg hcanceled]
    cases client.sleeper with
    | skip => exact unrefused_ok ()
    | timer => exact client.unrefused_wait horizon _ _

def Progress.Unrefused : Progress α -> Prop
  | .ended result => RestClient.Unrefused result
  | .again _ => True

theorem unrefused_afterFailure (client : Client) (path : String) (horizon : Option Nat)
    (method : Method) (policy : Policy) {e : Error} (he : e.isRefusal = false) (w : World σ) :
    (client.afterFailure path horizon method policy e w : Progress α × World σ).1.Unrefused := by
  have hfailed : Progress.Unrefused (.ended (.error (.failed e)) : Progress α) :=
    unrefused_error he
  unfold afterFailure
  dsimp only
  cases policy.recordFailure _ _ e with
  | error overflow => exact unrefused_error rfl
  | ok next =>
    dsimp only
    cases next.state with
    | backingOff attempt delay =>
      dsimp only
      generalize (w.report (.failed e policy.attempt method path)).report
        (.retrying delay policy.attempt e.rateLimit?.isSome) = w₁
      have hpause := client.unrefused_pause horizon delay w₁
      rcases hpaused : client.pause horizon delay w₁ with ⟨halt | _, w'⟩
      · rw [hpaused] at hpause
        exact unrefused_error (hpause halt rfl)
      · exact trivial
    | failedExhausted made => exact hfailed
    | attempting attempt => exact hfailed
    | succeeded attempts => exact hfailed
    | failedTerminal attempts => exact hfailed

variable [Json.Decode α]

theorem isRefusal_of_judge {clock : Moment} {attempt : Nat}
    {outcome : Except TransportFault HttpResponse} {verdict : Verdict α} {e : Error}
    (h : judge clock attempt outcome = .ok verdict) (he : verdict.result = .error e) :
    e.isRefusal = false := by
  rcases judge_cases h with ⟨fault, _, rfl⟩ | ⟨response, _, _, rfl⟩ | ⟨_, api, _, _, _, rfl⟩
  · cases he
    cases fault <;> rfl
  · unfold accept at he
    dsimp only at he
    cases hdecoded : (Json.decode _ : Except Json.Error α) with
    | error fault =>
      rw [hdecoded] at he
      cases he
      rfl
    | ok data =>
      rw [hdecoded] at he
      cases he
  · cases he
    rfl

variable [Transport σ]

theorem unrefused_attempt (client : Client) (path : String) (horizon : Option Nat)
    (prepared : HttpRequest) (policy : Policy) (w : World σ) :
    (client.attempt path horizon prepared policy w : Progress α × World σ).1.Unrefused := by
  have hexchanged := client.unrefused_exchange horizon prepared policy.attempt w
  rcases hexchange : client.exchange horizon prepared policy.attempt w with ⟨halt | outcome, w₁⟩
  · rw [hexchange] at hexchanged
    rw [attempt_of_halt hexchange]
    exact unrefused_error (hexchanged halt rfl)
  · cases hjudge : (judge w₁.clock policy.attempt outcome : Except Overflow (Verdict α)) with
    | error overflow =>
      rw [attempt_of_overflow hexchange hjudge]
      exact unrefused_error rfl
    | ok verdict =>
      rw [attempt_of_verdict hexchange hjudge]
      unfold conclude
      cases hresult : verdict.result with
      | ok response => exact unrefused_ok response
      | error e =>
        exact client.unrefused_afterFailure path horizon prepared.method policy
          (isRefusal_of_judge hjudge hresult) _

theorem unrefused_attempts (client : Client) (path : String) (horizon : Option Nat)
    (prepared : HttpRequest) (fuel : Nat) (policy : Policy) (w : World σ) :
    Unrefused (client.attempts path horizon prepared fuel policy w :
      Except Halt (Response α) × World σ).1 := by
  induction fuel generalizing policy w with
  | zero => exact unrefused_error rfl
  | succ fuel ih =>
    have hattempted := client.unrefused_attempt (α := α) path horizon prepared policy w
    unfold attempts
    rcases hattempt : (client.attempt path horizon prepared policy w : Progress α × World σ)
      with ⟨result | next, w'⟩
    · rw [hattempt] at hattempted
      exact hattempted
    · exact ih next w'

/-!
## Calls
-/

variable {client : Client} {request : Request} {body : Option Payload}

theorem call_of_refused {e : Error} (h : client.prepare request body = .error e) (w : World σ) :
    client.call request body w =
      ((.error (.failed e), w) : Except Halt (Response α) × World σ) := by
  apply call_of_callUntil (callUntil_of_error h (client.horizon w) w)
  intro hexpired
  cases hexpired

theorem unrefused_call {prepared : HttpRequest} (h : client.prepare request body = .ok prepared)
    (w : World σ) :
    Unrefused (client.call request body w : Except Halt (Response α) × World σ).1 := by
  have huntil : forall horizon, Unrefused (client.callUntil horizon request body w :
      Except Halt (Response α) × World σ).1 := by
    intro horizon
    rw [callUntil_of_ok h]
    exact client.unrefused_attempts request.path horizon prepared _ _ w
  unfold call
  cases client.deadline with
  | none => exact huntil none
  | some deadline =>
    dsimp only
    have hcalled := huntil (some (w.now + deadline.ticks))
    rcases hcall : (client.callUntil (some (w.now + deadline.ticks)) request body w :
      Except Halt (Response α) × World σ) with ⟨halt | response, w'⟩
    · rw [hcall] at hcalled
      cases halt with
      | expired => exact unrefused_error rfl
      | failed e => exact hcalled
      | pending => exact hcalled
      | overflow cause => exact hcalled
    · exact unrefused_ok response

theorem refusesEarly_call (client : Client) (request : Request) (body : Option Payload)
    (w : World σ) :
    RefusesEarly w (client.call request body w : Except Halt (Response α) × World σ) := by
  cases hprepare : client.prepare request body with
  | error e =>
    rw [call_of_refused hprepare]
    exact refusesEarly_error w _
  | ok prepared => exact Or.inr (unrefused_call hprepare w)

omit [Json.Decode α] [Transport σ] in
theorem prepare_forPage_cases (client : Client) (request : Request) (size : UInt32) :
    (exists e, forall page, client.prepare (request.forPage page size) none = .error e) ∨
      forall page, exists prepared,
        client.prepare (request.forPage page size) none = .ok prepared := by
  have hrender : forall page, (request.forPage page size).renderPath = request.renderPath :=
    fun _ => rfl
  unfold prepare Request.url
  cases hpath : request.renderPath with
  | error e =>
    left
    exists e
    intro page
    rw [hrender, hpath]
  | ok path =>
    cases hjoin : client.root.join (path.dropWhile (· == '/')) with
    | error fault =>
      left
      exists .invalidUrl fault
      intro page
      rw [hrender, hpath]
      dsimp only
      rw [hjoin]
    | ok url =>
      right
      intro page
      rw [hrender, hpath]
      dsimp only
      rw [hjoin]
      exact ⟨_, rfl⟩

end Client

/-!
## Listings
-/

namespace Listing

variable [Transport σ] [Json.Decode α] {listing : Listing α} {e : Error}

def Refuses (listing : Listing α) (e : Error) : Prop :=
  forall page,
    listing.client.prepare (listing.request.forPage page listing.paginator.pageSize) none =
    .error e

def Admits (listing : Listing α) : Prop :=
  forall page, exists prepared, listing.client.prepare
    (listing.request.forPage page listing.paginator.pageSize) none = .ok prepared

omit [Transport σ] [Json.Decode α] in
theorem refuses_or_admits (listing : Listing α) : (exists e, listing.Refuses e) ∨ listing.Admits :=
  Client.prepare_forPage_cases listing.client listing.request listing.paginator.pageSize

theorem Refuses.fetch (h : listing.Refuses e) (page : UInt32) (w : World σ) :
    listing.fetch page w = (.error (.failed e), w) :=
  fetch_of_error (Client.call_of_refused (h page) w)

theorem Refuses.next (h : listing.Refuses e) (w : World σ) :
    (listing.next w).2.1.Refuses e ∧ (listing.next w).2.2 = w := by
  cases hbuffer : listing.buffer with
  | cons item rest =>
    rw [next_of_buffer hbuffer]
    exact ⟨h, rfl⟩
  | nil =>
    cases hpage : listing.paginator.nextPage with
    | none =>
      rw [next_of_ended hbuffer hpage]
      exact ⟨h, rfl⟩
    | some page =>
      rw [next_of_page hbuffer hpage, h.fetch]
      exact ⟨h, rfl⟩

theorem Refuses.nexts (h : listing.Refuses e) (n : Nat) (w : World σ) :
    (listing.nexts n w).2.1.Refuses e ∧ (listing.nexts n w).2.2 = w := by
  induction n generalizing listing w with
  | zero => exact ⟨h, rfl⟩
  | succ n ih =>
    rcases h.next w with ⟨hnext, hfirst⟩
    rcases ih hnext (listing.next w).2.2 with ⟨hlast, hrest⟩
    exact ⟨hlast, hrest.trans hfirst⟩

theorem Refuses.collect (h : listing.Refuses e) (w : World σ) : (listing.collect w).2 = w := by
  cases hpage : listing.paginator.nextPage with
  | none => rw [collect_of_ended hpage]
  | some page => rw [collect_of_page hpage, h.fetch]

theorem Admits.ask (h : listing.Admits) (page : UInt32) (w : World σ) :
    Unrefused (listing.ask page w).1 := by
  rcases h page with ⟨prepared, hprepare⟩
  exact Client.unrefused_call hprepare w

theorem Admits.next (h : listing.Admits) (w : World σ) :
    (listing.next w).2.1.Admits ∧ Unrefused (listing.next w).1 := by
  rcases listing.exists_seeks w with ⟨received, hseeks⟩
  generalize listing.next w = answer at hseeks ⊢
  induction hseeks with
  | item _ => exact ⟨h, unrefused_ok _⟩
  | ended _ _ => exact ⟨h, unrefused_ok _⟩
  | @failed listing w w' page halt _ _ hask =>
    have hasked := h.ask page w
    rw [hask] at hasked
    exact ⟨h, unrefused_error (hasked halt rfl)⟩
  | page _ _ _ _ ih => exact ih h

theorem Admits.nexts (h : listing.Admits) (n : Nat) (w : World σ) :
    (listing.nexts n w).2.1.Admits ∧
      forall result, result ∈ (listing.nexts n w).1 -> Unrefused result := by
  induction n generalizing listing w with
  | zero =>
    refine ⟨h, ?_⟩
    intro result hresult
    cases hresult
  | succ n ih =>
    rcases h.next w with ⟨hnext, hfirst⟩
    rcases ih hnext (listing.next w).2.2 with ⟨hlast, hrest⟩
    refine ⟨hlast, ?_⟩
    intro result hresult
    rcases List.mem_cons.mp hresult with rfl | hmem
    · exact hfirst
    · exact hrest result hmem

theorem Admits.collectWithin (h : listing.Admits) (fuel : Nat) (w : World σ) :
    Unrefused (collectWithin fuel listing w).1 := by
  induction fuel generalizing listing w with
  | zero =>
    unfold Listing.collectWithin
    cases listing.paginator.nextPage with
    | none => exact unrefused_ok _
    | some page => exact unrefused_error rfl
  | succ fuel ih =>
    unfold Listing.collectWithin
    cases listing.paginator.nextPage with
    | none => exact unrefused_ok _
    | some page =>
      have hasked := h.ask page w
      dsimp only
      rcases hask : listing.ask page w with ⟨halt | response, w'⟩
      · rw [hask] at hasked
        rw [fetch_of_error hask]
        exact unrefused_error (hasked halt rfl)
      · rw [fetch_of_ok hask]
        have habsorbed : (listing.absorb page response.data).Admits := h
        exact ih habsorbed _

end Listing

/-!
## Operations
-/

namespace Outcome

variable {Item : Type}

def halts : Outcome Item -> List Halt
  | .response result => (Halt.of? result).toList
  | .item result => (Halt.of? result).toList
  | .items result => (Halt.of? result).toList
  | .page result => (Halt.of? result).toList
  | .done result => (Halt.of? result).toList
  | .steps results rest => results.filterMap Halt.of? ++ (rest.bind Halt.of?).toList

end Outcome

theorem Unrefused.of_mem_toList {result : Except Halt β} (h : Unrefused result) {halt : Halt}
    (hhalt : halt ∈ (Halt.of? result).toList) : halt.isRefusal = false := by
  rcases result with failure | value
  · apply h
    rw [List.mem_singleton.mp hhalt]
  · cases hhalt

namespace Collection

variable {Create Update : Type}

theorem refusesEarly_data {w : World σ} {answer : Except Halt (Response α) × World σ}
    (h : RefusesEarly w answer) : RefusesEarly w (data answer) := by
  rcases answer with ⟨halt | response, w'⟩
  · rcases h with htraffic | hunrefused
    · exact Or.inl htraffic
    · exact Or.inr (unrefused_error (hunrefused halt rfl))
  · exact Or.inr (unrefused_ok response.data)

variable [Transport σ] [Json.Decode α]

theorem refusesEarly_get (c : Collection Create Update) (id' : String) (w : World σ) :
    RefusesEarly w (c.get id' w : Except Halt α × World σ) := by
  unfold get
  cases c.itemRequest .get id' with
  | error e => exact refusesEarly_error w _
  | ok request => exact refusesEarly_data (c.client.refusesEarly_call request none w)

theorem refusesEarly_update (c : Collection Create Update) (id' : String) (options : Update)
    (w : World σ) : RefusesEarly w (c.update id' options w : Except Halt α × World σ) := by
  unfold update
  cases c.itemRequest .put id' with
  | error e => exact refusesEarly_error w _
  | ok request => exact refusesEarly_data (c.client.refusesEarly_call request _ w)

omit [Json.Decode α] in
theorem refusesEarly_delete (c : Collection Create Update) (id' : String) (w : World σ) :
    RefusesEarly w (c.delete id' w) := by
  unfold delete
  cases c.itemRequest .delete id' with
  | error e => exact refusesEarly_error w _
  | ok request =>
    have hdeleting := (World.drifts_report w (.deleting c.resource.name id')
      (by simp [Event.failure?])).sameTraffic
    have hcalled := c.client.refusesEarly_call (α := Json.Ignored) request none
      (w.report (.deleting c.resource.name id'))
    dsimp only
    rcases hcall : (c.client.call request none (w.report (.deleting c.resource.name id')) :
      Except Halt (Response Json.Ignored) × World σ) with ⟨halt | response, w'⟩
    · rw [hcall] at hcalled
      rcases hcalled with htraffic | hunrefused
      · exact Or.inl (hdeleting.trans htraffic)
      · exact Or.inr (unrefused_error (hunrefused halt rfl))
    · exact Or.inr (unrefused_ok ())

theorem refusesEarly_list (c : Collection Create Update) (options : ListOptions) (w : World σ) :
    RefusesEarly w (c.list options w : Except Halt (List α) × World σ) := by
  unfold list
  cases (c.stream options : Except Error (Listing α)) with
  | error e => exact refusesEarly_error w _
  | ok listing =>
    dsimp only
    rcases listing.refuses_or_admits with ⟨e, hrefuses⟩ | hadmits
    · left
      rw [hrefuses.collect]
      exact w.sameTraffic_refl
    · exact Or.inr (hadmits.collectWithin listing.pagesLeft w)

theorem refusesEarly_listPage (c : Collection Create Update) (page : UInt32)
    (options : ListOptions) (w : World σ) :
    RefusesEarly w (c.listPage page options w : Except Halt (Page α) × World σ) := by
  unfold listPage
  by_cases hpage : page = 0
  · rw [if_pos hpage]
    exact refusesEarly_error w _
  · rw [if_neg hpage]
    cases options.apply (c.collectionRequest .get) c.client.pageSize with
    | error e => exact refusesEarly_error w _
    | ok applied => exact refusesEarly_data (c.client.refusesEarly_call _ none w)

end Collection

namespace Operation

variable {α Create Update : Type} [Transport σ] [Json.Decode α]

theorem walk_cases (listing : Listing α) (steps : Nat) (rest : Bool) (w : World σ) :
    (walk listing steps rest w).2 = w ∨
      forall halt, halt ∈ (walk listing steps rest w).1.halts -> halt.isRefusal = false := by
  unfold walk
  rcases listing.refuses_or_admits with ⟨e, hrefuses⟩ | hadmits
  · left
    rcases hrefuses.nexts steps w with ⟨hlast, hsame⟩
    cases rest with
    | false => exact hsame
    | true => exact (hlast.collect _).trans hsame
  · right
    rcases hadmits.nexts steps w with ⟨hlast, hresults⟩
    have hmade : forall halt, halt ∈ (listing.nexts steps w).1.filterMap Halt.of? ->
        halt.isRefusal = false := by
      intro halt hhalt
      rcases List.mem_filterMap.mp hhalt with ⟨result, hresult, hof⟩
      apply (hresults result hresult).of_mem_toList
      rw [hof]
      exact List.mem_singleton_self halt
    intro halt hhalt
    cases rest with
    | false =>
      rcases List.mem_append.mp hhalt with hstep | hrest
      · exact hmade halt hstep
      · cases hrest
    | true =>
      rcases List.mem_append.mp hhalt with hstep | hrest
      · exact hmade halt hstep
      · exact (hlast.collectWithin _ _).of_mem_toList hrest

theorem run_cases (c : Collection Create Update) (operation : Operation Create Update)
    (w : World σ) :
    World.SameTraffic w (operation.run c w : Outcome α × World σ).2 ∨
      forall halt, halt ∈ (operation.run c w : Outcome α × World σ).1.halts ->
        halt.isRefusal = false := by
  have hanswer : forall {γ : Type} {answer : Except Halt γ × World σ}, RefusesEarly w answer ->
      World.SameTraffic w answer.2 ∨
        forall halt, halt ∈ (Halt.of? answer.1).toList -> halt.isRefusal = false := by
    intro γ answer h
    exact h.imp_right fun hunrefused _ hhalt => hunrefused.of_mem_toList hhalt
  cases operation with
  | call request body => exact hanswer (c.client.refusesEarly_call (α := α) request body w)
  | find path => exact hanswer (c.client.refusesEarly_call (α := α) (.new .get path) none w)
  | get id' => exact hanswer (c.refusesEarly_get (α := α) id' w)
  | list options => exact hanswer (c.refusesEarly_list (α := α) options w)
  | listPage page options => exact hanswer (c.refusesEarly_listPage (α := α) page options w)
  | create options =>
    exact hanswer (Collection.refusesEarly_data (c.client.refusesEarly_call (α := α) _ _ w))
  | createIdempotent options =>
    exact hanswer (Collection.refusesEarly_data (c.client.refusesEarly_call (α := α) _ _ w))
  | update id' options => exact hanswer (c.refusesEarly_update (α := α) id' options w)
  | delete id' => exact hanswer (c.refusesEarly_delete id' w)
  | stream options steps rest =>
    show World.SameTraffic w (begin c options steps rest w : Outcome α × World σ).2 ∨
      forall halt, halt ∈ (begin c options steps rest w : Outcome α × World σ).1.halts -> _
    unfold begin
    cases (c.stream options : Except Error (Listing α)) with
    | error e => exact Or.inl w.sameTraffic_refl
    | ok listing =>
      rcases walk_cases listing steps rest w with hsame | hunrefused
      · left
        dsimp only
        rw [hsame]
        exact w.sameTraffic_refl
      · exact Or.inr hunrefused

end Operation
end RestClient
