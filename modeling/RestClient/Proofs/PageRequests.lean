import RestClient.Proofs.FaultyArguments
import RestClient.Proofs.SinglePages

/-!
# Requests for pages

What is sent by the operations that ask for pages.  All requests are of the kind of their options,
a single page is asked for by the one request for it, and a walk begins with the first page.
-/

namespace RestClient

variable {σ α : Type}

namespace World

variable {kind : HttpRequest -> Prop} {token : Option Token} {prepared : HttpRequest}
  {w w₁ w' : World σ}

/-!
## Requests of one kind
-/

/-- From the first world to the second one, all requests that were sent are of this kind. -/
def SendsAll (kind : HttpRequest -> Prop) (w w' : World σ) : Prop :=
  exists sent, w'.requests = w.requests ++ sent ∧ forall request, request ∈ sent -> kind request

theorem SendsAll.of_sendsNothing (h : SendsNothing w w') : SendsAll kind w w' :=
  ⟨[], by rw [h.requests, List.append_nil], by simp⟩

theorem SendsAll.trans (h : SendsAll kind w w₁) (h' : SendsAll kind w₁ w') :
    SendsAll kind w w' := by
  rcases h with ⟨sent, hsent, hall⟩
  rcases h' with ⟨more, hmore, hall'⟩
  refine ⟨sent ++ more, by rw [hmore, hsent, List.append_assoc], ?_⟩
  intro request hrequest
  exact (List.mem_append.mp hrequest).elim (hall request) (hall' request)

theorem SendsAll.congr (h : SendsAll kind w w₁) (hsame : w'.requests = w₁.requests) :
    SendsAll kind w w' := by
  rcases h with ⟨sent, hsent, hall⟩
  exact ⟨sent, hsame.trans hsent, hall⟩

theorem sendsAll_self (w : World σ) : SendsAll kind w w := .of_sendsNothing ⟨rfl, rfl⟩

/-!
## First requests
-/

/-- From the first world to the second one, the first request that was sent is this one, unless it
could not be prepared or the token was canceled before: then none was sent. -/
def SendsFirst (asked : Except Error HttpRequest) (token : Option Token) (w w' : World σ) :
    Prop :=
  w'.requests[w.requests.length]? = if w.isCanceled token then none else asked.toOption

theorem sendsFirst_error {e : Error} (h : w'.requests = w.requests) :
    SendsFirst (.error e) token w w' := by
  unfold SendsFirst
  rw [h, List.getElem?_eq_none (Nat.le_refl _)]
  exact (ite_self _).symm

theorem Moves.requests_of_canceled (h : Moves token w w') (hcanceled : w.isCanceled token = true) :
    w'.requests = w.requests := by
  cases token with
  | none => cases hcanceled
  | some t =>
    rcases h.heeds with ⟨new, hhistory, hquiet, -⟩
    have hsilent : new.filterMap Entry.request? = [] :=
      List.filterMap_eq_nil_iff.mpr (hquiet.silent hcanceled)
    unfold World.requests
    rw [hhistory, List.filterMap_append, hsilent, List.append_nil]

/-- Whatever is sent after it, the first request stays the first. -/
theorem SendsFirst.of_more (h : SendsFirst (.ok prepared) token w w₁) (hmoves : Moves token w w')
    (hmore : exists more, w'.requests = w₁.requests ++ more) :
    SendsFirst (.ok prepared) token w w' := by
  unfold SendsFirst at h ⊢
  cases hcanceled : w.isCanceled token with
  | true =>
    rw [if_pos rfl, hmoves.requests_of_canceled hcanceled]
    exact List.getElem?_eq_none (Nat.le_refl _)
  | false =>
    rw [hcanceled] at h
    rcases hmore with ⟨more, hmore⟩
    rcases List.getElem?_eq_some_iff.mp h with ⟨hlength, -⟩
    rw [hmore, List.getElem?_append_left hlength]
    exact h

end World

open World (Moves SendsAll SendsFirst SendsThis)

theorem Client.sendsAll_call [Transport σ] [Json.Decode α] {client : Client} {request : Request}
    {body : Option Payload} {kind : HttpRequest -> Prop}
    (h : forall prepared, client.prepare request body = .ok prepared -> kind prepared)
    (w : World σ) :
    SendsAll kind w (client.call request body w : Except Halt (Response α) × World σ).2 := by
  rcases client.exists_requests_call (α := α) request body w with ⟨sent, hsent, hall⟩
  exact ⟨sent, hsent, fun prepared hprepared => h prepared (hall prepared hprepared)⟩

/-!
## Walks
-/

namespace Listing

variable {listing : Listing α} {kind : HttpRequest -> Prop} {page : UInt32}

/-- Whatever page the listing asks for, it asks with a request of this kind. -/
def AsksWith (listing : Listing α) (kind : HttpRequest -> Prop) : Prop :=
  forall page prepared, listing.asked page = .ok prepared -> kind prepared

variable [Transport σ] [Json.Decode α]

theorem AsksWith.ask (h : listing.AsksWith kind) (page : UInt32) (w : World σ) :
    SendsAll kind w (listing.ask page w).2 :=
  Client.sendsAll_call (h page) w

theorem AsksWith.seeks (h : listing.AsksWith kind) {w : World σ}
    {received : List (UInt32 × Page α)} {answer : Except Halt (Option α) × Listing α × World σ}
    (hseeks : listing.Seeks w received answer) :
    answer.2.1.AsksWith kind ∧ SendsAll kind w answer.2.2 := by
  induction hseeks with
  | item _ => exact ⟨h, World.sendsAll_self _⟩
  | ended _ _ => exact ⟨h, World.sendsAll_self _⟩
  | @failed listing w w' page halt _ _ hask =>
    have hsends := h.ask page w
    rw [hask] at hsends
    exact ⟨h, hsends⟩
  | @page listing w w' page response received answer _ _ hask _ ih =>
    have hsends := h.ask page w
    rw [hask] at hsends
    rcases ih h with ⟨hkept, hrest⟩
    exact ⟨hkept, (hsends.trans (.of_sendsNothing (World.sendsNothing_report w' _))).trans hrest⟩

theorem AsksWith.nexts (h : listing.AsksWith kind) (n : Nat) (w : World σ) :
    (listing.nexts n w).2.1.AsksWith kind ∧ SendsAll kind w (listing.nexts n w).2.2 := by
  induction n generalizing listing w with
  | zero => exact ⟨h, World.sendsAll_self w⟩
  | succ n ih =>
    rcases exists_seeks listing w with ⟨received, hseeks⟩
    rcases h.seeks hseeks with ⟨hkept, hfirst⟩
    rcases ih hkept (listing.next w).2.2 with ⟨hlast, hrest⟩
    exact ⟨hlast, hfirst.trans hrest⟩

theorem AsksWith.collect (h : listing.AsksWith kind) (w : World σ) :
    SendsAll kind w (listing.collect w).2 := by
  rcases exists_nexts_collect listing w with ⟨items, last, final, w', hnexts, hcollect, -⟩
  have hsends := (h.nexts (items.length + 1) w).2
  rw [hnexts] at hsends
  rw [hcollect]
  exact hsends

theorem AsksWith.walk (h : listing.AsksWith kind) (steps : Nat) (rest : Bool) (w : World σ) :
    SendsAll kind w (Operation.walk listing steps rest w).2 := by
  rcases h.nexts steps w with ⟨hkept, hsends⟩
  unfold Operation.walk
  cases rest with
  | false => exact hsends
  | true => exact hsends.trans (hkept.collect _)

/-- A listing that has to ask for a page sends the request for it first, unless it refuses to ask
for any. -/
theorem sendsFirst_of_fetch {w w' : World σ}
    (hrefused : forall e, listing.Refuses e -> w' = w)
    (hmoves : Moves listing.client.cancel w w')
    (hmore : exists more, w'.requests = (listing.fetch page w).2.requests ++ more) :
    SendsFirst (listing.asked page) listing.client.cancel w w' := by
  have hfetch := (listing.sendsThis_fetch page w).first
  rcases listing.refuses_or_admits with ⟨e, hrefuses⟩ | hadmits
  · have hasked : listing.asked page = .error e := hrefuses page
    rw [hasked, hrefused e hrefuses]
    exact World.sendsFirst_error rfl
  · rcases hadmits page with ⟨prepared, hprepare⟩
    have hasked : listing.asked page = .ok prepared := hprepare
    rw [hasked] at hfetch ⊢
    exact World.SendsFirst.of_more hfetch hmoves hmore

theorem exists_requests_next (hbuffer : listing.buffer = [])
    (hpage : listing.paginator.nextPage = some page) (w : World σ) :
    exists more, (listing.next w).2.2.requests = (listing.fetch page w).2.requests ++ more := by
  rw [next_of_page hbuffer hpage]
  rcases listing.fetch page w with ⟨halt | following, w'⟩
  · exact ⟨[], (List.append_nil _).symm⟩
  · exact (moves_nextWithin following.pagesLeft following w').2.requests

theorem exists_requests_collect (hpage : listing.paginator.nextPage = some page) (w : World σ) :
    exists more, (listing.collect w).2.requests = (listing.fetch page w).2.requests ++ more := by
  rw [collect_of_page hpage]
  rcases listing.fetch page w with ⟨halt | following, w'⟩
  · exact ⟨[], (List.append_nil _).symm⟩
  · exact (moves_collectWithin following.pagesLeft following w').requests

theorem sendsFirst_collect (hpage : listing.paginator.nextPage = some page) (w : World σ) :
    SendsFirst (listing.asked page) listing.client.cancel w (listing.collect w).2 := by
  apply sendsFirst_of_fetch
  · intro e hrefuses
    exact hrefuses.collect w
  · exact moves_collectWithin listing.pagesLeft listing w
  · exact exists_requests_collect hpage w

theorem world_walk_succ (listing : Listing α) (steps : Nat) (rest : Bool) (w : World σ) :
    (Operation.walk listing (steps + 1) rest w).2 =
      (Operation.walk (listing.next w).2.1 steps rest (listing.next w).2.2).2 := by
  cases rest with
  | false => rfl
  | true => rfl

theorem Refuses.world_walk {e : Error} (h : listing.Refuses e) (steps : Nat) (rest : Bool)
    (w : World σ) : (Operation.walk listing steps rest w).2 = w := by
  rcases h.nexts steps w with ⟨hkept, hworld⟩
  cases rest with
  | false => exact hworld
  | true => exact (hkept.collect _).trans hworld

theorem sendsFirst_walk (hbuffer : listing.buffer = [])
    (hpage : listing.paginator.nextPage = some page) {steps : Nat} {rest : Bool}
    (htaken : steps ≠ 0 ∨ rest = true) (w : World σ) :
    SendsFirst (listing.asked page) listing.client.cancel w
      (Operation.walk listing steps rest w).2 := by
  apply sendsFirst_of_fetch
  · intro e hrefuses
    exact hrefuses.world_walk steps rest w
  · exact Operation.moves_walk rfl steps rest w
  · cases steps with
    | zero =>
      rcases htaken with hzero | rfl
      · exact absurd rfl hzero
      · exact exists_requests_collect hpage w
    | succ steps =>
      have hrest : Moves _ (listing.next w).2.2
          (Operation.walk (listing.next w).2.1 steps rest (listing.next w).2.2).2 :=
        Operation.moves_walk rfl steps rest _
      rcases exists_requests_next hbuffer hpage w with ⟨more, hnext⟩
      rcases hrest.requests with ⟨others, hwalk⟩
      refine ⟨more ++ others, ?_⟩
      rw [world_walk_succ, hwalk, hnext, List.append_assoc]

end Listing

/-!
## Operations
-/

namespace Collection

variable {Create Update : Type} {c : Collection Create Update} {options : ListOptions}
  {begun : Listing α} {applied : Request × UInt32}

theorem stream_of_apply
    (h : options.apply (c.collectionRequest .get) c.client.pageSize = .ok applied) :
    (c.stream options : Except Error (Listing α)) =
      .ok ⟨c.client, applied.1, .start applied.2 options.maxResults, []⟩ :=
  Listing.start_eq_ok_iff.mpr ⟨applied, h, rfl⟩

/-- Whatever page is asked for with these options, it is asked for with a request of this kind. -/
def AsksWith (c : Collection Create Update) (options : ListOptions) (kind : HttpRequest -> Prop) :
    Prop :=
  forall applied, options.apply (c.collectionRequest .get) c.client.pageSize = .ok applied ->
    forall page prepared,
      c.client.prepare (applied.1.forPage page applied.2) none = .ok prepared -> kind prepared

theorem AsksWith.stream {kind : HttpRequest -> Prop} (h : c.AsksWith options kind)
    (hstream : c.stream options = .ok begun) : begun.AsksWith kind := by
  rcases stream_eq_ok hstream with ⟨happly, hclient, -⟩
  intro page prepared hprepare
  unfold Listing.asked at hprepare
  rw [hclient] at hprepare
  exact h _ happly page prepared hprepare

end Collection

namespace Operation

variable {Create Update : Type} {c : Collection Create Update} {options : ListOptions}
  {operation : Operation Create Update} {kind : HttpRequest -> Prop}

/-- With these options the operation takes items from page to page. -/
inductive Walks (options : ListOptions) : Operation Create Update -> Prop where
  | list : Walks options (.list options)
  | stream {steps : Nat} {rest : Bool} (htaken : steps ≠ 0 ∨ rest = true) :
      Walks options (.stream options steps rest)

/-- What an operation with these options sends from the first world to the second one. -/
structure SendsPages (c : Collection Create Update) (options : ListOptions)
    (operation : Operation Create Update) (kind : HttpRequest -> Prop) (w w' : World σ) :
    Prop where
  all : SendsAll kind w w'
  single : forall applied page,
    options.apply (c.collectionRequest .get) c.client.pageSize = .ok applied ->
    operation = .listPage page options -> page ≠ 0 ->
      SendsThis (c.client.prepare (applied.1.forPage page applied.2) none) c.client.cancel w w'
  /-- Where no item is wanted, there is nothing to ask for. -/
  first : forall applied,
    options.apply (c.collectionRequest .get) c.client.pageSize = .ok applied ->
    operation.Walks options -> options.maxResults ≠ some 0 ->
      SendsFirst (c.client.prepare (applied.1.forPage 1 applied.2) none) c.client.cancel w w'

variable [Transport σ] [Json.Decode α]

theorem sendsAll_run (h : c.AsksWith options kind)
    (hoptions : operation.options? = some options) (w : World σ) :
    SendsAll kind w (operation.run c w : Outcome α × World σ).2 := by
  rcases options?_cases hoptions with rfl | ⟨page, rfl⟩ | ⟨steps, rest, rfl⟩
  · show SendsAll _ w (c.list options w : Except Halt (List α) × World σ).2
    unfold Collection.list
    cases hstream : (c.stream options : Except Error (Listing α)) with
    | error e => exact World.sendsAll_self w
    | ok listing => exact (h.stream hstream).collect w
  · show SendsAll _ w (c.listPage page options w : Except Halt (Page α) × World σ).2
    unfold Collection.listPage
    by_cases hpage : page = 0
    · rw [if_pos hpage]
      exact World.sendsAll_self w
    · rw [if_neg hpage]
      cases happly : options.apply (c.collectionRequest .get) c.client.pageSize with
      | error e => exact World.sendsAll_self w
      | ok applied =>
        exact (Client.sendsAll_call (α := Page α) (h applied happly page) w).congr
          (Collection.requests_data _)
  · show SendsAll _ w (begin c options steps rest w : Outcome α × World σ).2
    unfold begin
    cases hstream : (c.stream options : Except Error (Listing α)) with
    | error e => exact World.sendsAll_self w
    | ok listing => exact (h.stream hstream).walk steps rest w

theorem Walks.sendsFirst_run (h : operation.Walks options) {applied : Request × UInt32}
    (happly : options.apply (c.collectionRequest .get) c.client.pageSize = .ok applied)
    (hmost : options.maxResults ≠ some 0) (w : World σ) :
    SendsFirst (c.client.prepare (applied.1.forPage 1 applied.2) none) c.client.cancel w
      (operation.run c w : Outcome α × World σ).2 := by
  have hstream := Collection.stream_of_apply (α := α) happly
  have hpage : (Paginator.start applied.2 options.maxResults).nextPage = some 1 := if_neg hmost
  cases h with
  | list =>
    show SendsFirst _ _ w (c.list options w : Except Halt (List α) × World σ).2
    unfold Collection.list
    rw [hstream]
    exact Listing.sendsFirst_collect hpage w
  | @stream steps rest htaken =>
    show SendsFirst _ _ w (begin c options steps rest w : Outcome α × World σ).2
    unfold begin
    rw [hstream]
    exact Listing.sendsFirst_walk rfl hpage htaken w

theorem sendsPages_run (h : c.AsksWith options kind)
    (hoptions : operation.options? = some options) (w : World σ) :
    operation.SendsPages c options kind w (operation.run c w : Outcome α × World σ).2 := by
  constructor
  · exact sendsAll_run h hoptions w
  · intro applied page happly hsingle hpage
    subst hsingle
    exact Collection.sendsThis_listPage (α := α) (Collection.stream_of_apply happly) hpage
      options.maxResults w
  · intro applied happly hwalks hmost
    exact hwalks.sendsFirst_run happly hmost w

end Operation
end RestClient
