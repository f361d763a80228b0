import RestClient.Proofs.Bounds
import RestClient.Proofs.PageSize
import RestClient.Proofs.Supplying
import RestClient.Proofs.Walked

/-!
# Single pages

Asking for a single page and walking to it are the same request.  Against a server whose answers
depend on the requests alone, a walk therefore gives the items of the single pages, each asked for
by itself, up to the first one that announces none behind it.
-/

namespace RestClient

variable {σ α : Type}

/-- From the first world to the second one this request was sent and no other, unless it could not
be prepared or the token was canceled before. -/
structure World.SendsThis (asked : Except Error HttpRequest) (token : Option Token)
    (w w' : World σ) : Prop where
  only : exists sent, w'.requests = w.requests ++ sent ∧
    forall request, request ∈ sent -> asked = .ok request
  first : w'.requests[w.requests.length]? = if w.isCanceled token then none else asked.toOption

theorem World.SendsThis.congr {asked : Except Error HttpRequest} {token : Option Token}
    {w w₁ w' : World σ} (h : World.SendsThis asked token w w₁) (hsame : w'.requests = w₁.requests) :
    World.SendsThis asked token w w' := by
  constructor
  · rw [hsame]
    exact h.only
  · rw [hsame]
    exact h.first

theorem Client.sendsThis_call [Transport σ] [Json.Decode α] (client : Client) (request : Request)
    (body : Option Payload) (w : World σ) :
    World.SendsThis (client.prepare request body) client.cancel w
      (client.call request body w : Except Halt (Response α) × World σ).2 :=
  ⟨client.exists_requests_call request body w, client.getElem?_requests_call request body w⟩

theorem Collection.requests_data (answer : Except Halt (Response α) × World σ) :
    (data answer).2.requests = answer.2.requests := by
  rcases answer with ⟨halt | response, w⟩ <;> rfl

namespace Listing

variable {begun reached listing : Listing α} {page : UInt32} {most : Option Nat} {size : UInt32}
  {received more : List (UInt32 × Page α)} {handed : List α}

/-- What a listing makes of the answer to a request for a page. -/
def takeIn (listing : Listing α) (page : UInt32) :
    Except Halt (Page α) × World σ -> Except Halt (Listing α) × World σ
  | (.error halt, w) => (.error halt, w)
  | (.ok received, w) =>
    (.ok (listing.absorb page received),
      w.report (.fetched listing.request.path received.descriptor))

variable [Transport σ] [Json.Decode α] {w : World σ}

theorem fetch_eq_takeIn (listing : Listing α) (page : UInt32) (w : World σ) :
    listing.fetch page w = listing.takeIn page (Collection.data (listing.ask page w)) := by
  rcases hask : listing.ask page w with ⟨halt | response, w'⟩
  · exact fetch_of_error hask
  · exact fetch_of_ok hask

omit [Transport σ] [Json.Decode α] in
theorem requests_takeIn (listing : Listing α) (page : UInt32)
    (answer : Except Halt (Page α) × World σ) :
    (listing.takeIn page answer).2.requests = answer.2.requests := by
  rcases answer with ⟨halt | received, w⟩
  · rfl
  · exact (World.sendsNothing_report w _).requests

def asked (begun : Listing α) (page : UInt32) : Except Error HttpRequest :=
  begun.client.prepare (begun.request.forPage page begun.paginator.pageSize) none

theorem sendsThis_fetch (listing : Listing α) (page : UInt32) (w : World σ) :
    World.SendsThis (listing.asked page) listing.client.cancel w (listing.fetch page w).2 := by
  apply (listing.client.sendsThis_call (α := Page α)
    (listing.request.forPage page listing.paginator.pageSize) none w).congr
  rw [fetch_eq_takeIn, requests_takeIn, Collection.requests_data]
  rfl

omit [Transport σ] [Json.Decode α] in
theorem Standing.pageSize_eq (h : Standing begun received handed reached) :
    reached.paginator.pageSize = begun.paginator.pageSize := by
  rw [h.paginator, Paginator.pageSize_acceptAll]

theorem Standing.ask_eq (h : Standing begun received handed reached) (page : UInt32)
    (w : World σ) : reached.ask page w = begun.ask page w := by
  unfold ask
  rw [h.client, h.request, h.pageSize_eq]

theorem Standing.sendsThis_fetch (h : Standing begun received handed reached) (page : UInt32)
    (w : World σ) :
    World.SendsThis (begun.asked page) begun.client.cancel w (reached.fetch page w).2 := by
  have hsends := reached.sendsThis_fetch page w
  unfold asked at hsends
  rw [h.client, h.request, h.pageSize_eq] at hsends
  exact hsends

/-!
## Walks against a server
-/

/-- Whenever the transport is asked for one of the pages up to the last one, it answers with that
page. -/
structure Serves (begun : Listing α) (transport : σ) (served : UInt32 -> Page α)
    (last : UInt32) : Prop where
  still : forall request, (Transport.send transport request).2 = transport
  answers :
    forall page, 1 ≤ page -> page ≤ last -> exists prepared, begun.asked page = .ok prepared ∧
    begun.client.Supplies (Transport.send transport prepared).1 (served page)

theorem ask_of_serves {served : UInt32 -> Page α} {last : UInt32}
    (h : begun.Serves w.transport served last) (hundisturbed : w.Undisturbed begun.client.cancel)
    (hleast : 1 ≤ page) (hgreatest : page ≤ last) :
    exists (response : Response (Page α)) (w' : World σ), begun.ask page w = (.ok response, w') ∧
      response.data = served page ∧ w'.transport = w.transport ∧
      w'.Undisturbed begun.client.cancel := by
  rcases h.answers page hleast hgreatest with ⟨prepared, hprepare, hsupplies⟩
  rcases Client.call_of_reply hprepare hundisturbed hsupplies with
    ⟨response, w', hcall, hdata, _, htransport, hstill⟩
  rw [h.still] at htransport
  exact ⟨response, w', hcall, hdata, htransport, hstill⟩

/-- The pages that were received are the server's, and none of them comes behind the last one. -/
def Agrees (served : UInt32 -> Page α) (last : UInt32) (received : List (UInt32 × Page α)) :
    Prop :=
  forall entry, entry ∈ received -> entry.2 = served entry.1 ∧ entry.1 ≤ last

omit [Transport σ] [Json.Decode α] in
theorem Standing.one_le_page (h : Standing begun received handed listing)
    (hbegun : begun.paginator = .start size most)
    (hpage : listing.paginator.nextPage = some page) : 1 ≤ page := by
  have hfollows := h.follows
  rw [h.paginator] at hpage
  rw [hbegun] at hfollows hpage
  rw [UInt32.le_iff_toNat_le, Paginator.nextNumber_of_follows_start hfollows hpage]
  exact Nat.le_add_left 1 received.length

omit [Transport σ] [Json.Decode α] in
theorem Standing.page_le {served : UInt32 -> Page α} {last : UInt32}
    (h : Standing begun received handed listing) (hbegun : begun.paginator = .start size most)
    (hpage : listing.paginator.nextPage = some page) (hagrees : Agrees served last received)
    (hfirst : 1 ≤ last) (hend : (served last).pages ≤ last) : page ≤ last := by
  have hfollows := h.follows
  rw [h.paginator] at hpage
  rw [hbegun] at hfollows hpage
  have hnumber := Paginator.nextNumber_of_follows_start hfollows hpage
  by_contra hbehind
  rw [UInt32.le_iff_toNat_le] at hbehind hfirst hend
  -- The last page would have been received, and it announces none behind it.
  have hmem : last.toNat ∈ received.map (·.1.toNat) := by
    rw [Paginator.numbers_of_follows_start hfollows, List.mem_range'_1]
    have hone : (1 : UInt32).toNat = 1 := rfl
    omega
  rcases List.mem_map.mp hmem with ⟨entry, hentry, hlast⟩
  have hmore := Paginator.lt_pages_of_follows hfollows hpage entry hentry
  have hsame : entry.1 = last := UInt32.toNat_inj.mp hlast
  rw [(hagrees entry hentry).1, hsame] at hmore
  exact absurd hend (Nat.not_le_of_lt hmore)

theorem Gathers.served {served : UInt32 -> Page α} {last : UInt32}
    {answer : Except Halt (List α) × World σ} (h : listing.Gathers w more reached answer)
    (hbegun : begun.paginator = .start size most) (hstanding : Standing begun received [] listing)
    (hserves : begun.Serves w.transport served last)
    (hundisturbed : w.Undisturbed begun.client.cancel) (hagrees : Agrees served last received)
    (hfirst : 1 ≤ last) (hend : (served last).pages ≤ last) :
    answer.1 = .ok reached.buffer ∧ reached.paginator.nextPage = none ∧
      Agrees served last (received ++ more) := by
  induction h generalizing received with
  | ended hpage =>
    rw [List.append_nil]
    exact ⟨rfl, hpage, hagrees⟩
  | failed hpage hask =>
    have hleast := hstanding.one_le_page hbegun hpage
    have hgreatest := hstanding.page_le hbegun hpage hagrees hfirst hend
    rcases ask_of_serves hserves hundisturbed hleast hgreatest with ⟨response, w₁, hserved, _⟩
    rw [hstanding.ask_eq, hserved] at hask
    cases hask
  | @page listing reached w w' page response more answer hpage hask hrest ih =>
    have hleast := hstanding.one_le_page hbegun hpage
    have hgreatest := hstanding.page_le hbegun hpage hagrees hfirst hend
    rcases ask_of_serves hserves hundisturbed hleast hgreatest with
      ⟨served', w₁, hserved, hdata, htransport, hstill⟩
    rw [hstanding.ask_eq, hserved] at hask
    cases hask
    have hnext : Agrees served last (received ++ [(page, response.data)]) := by
      intro entry hentry
      rcases List.mem_append.mp hentry with hearlier | hnow
      · exact hagrees entry hearlier
      · cases List.mem_singleton.mp hnow
        exact ⟨hdata, hgreatest⟩
    have hstands := hstanding.absorb hpage response.data
    have hthere : begun.Serves (w'.report (.fetched listing.request.path
        response.data.descriptor)).transport served last := by
      show begun.Serves w'.transport served last
      rw [htransport]
      exact hserves
    have hgathered := ih hstands hthere ⟨hstill.isOpen, hstill.scheduled⟩ hnext
    rw [List.append_assoc] at hgathered
    exact hgathered

end Listing

/-!
## Pages of a server
-/

def firstPages (served : UInt32 -> Page α) (count : Nat) : List (Page α) :=
  (List.range' 1 count).map fun number => served (UInt32.ofNat number)

theorem walked_map_range' {page : Nat -> Page α} (first count : Nat)
    (hmore : forall number, first ≤ number -> number + 1 < first + count ->
      number < (page number).pages.toNat) :
    walked first ((List.range' first count).map page) = (List.range' first count).map page := by
  induction count generalizing first with
  | zero => rfl
  | succ count ih =>
    rw [List.range'_succ, List.map_cons, walked]
    cases count with
    | zero =>
      show page first :: (if _ then [] else []) = _
      rw [ite_self]
      rfl
    | succ count =>
      have hfirst := hmore first (Nat.le_refl first) (by omega)
      rw [if_neg (Nat.not_le_of_lt hfirst), ih (first + 1)]
      intro number hnumber hless
      exact hmore number (Nat.le_of_succ_le hnumber) (by omega)

theorem itemsWalked_firstPages {served : UInt32 -> Page α} {last : UInt32}
    (hmore : forall page, 1 ≤ page -> page < last -> page < (served page).pages) :
    itemsWalked (firstPages served last.toNat) =
      (firstPages served last.toNat).flatMap (·.data) := by
  unfold itemsWalked firstPages
  rw [walked_map_range']
  intro number hnumber hless
  have hword : number < UInt32.size := Nat.lt_trans (by omega) last.toNat_lt_size
  have hnumber' : (UInt32.ofNat number).toNat = number := UInt32.toNat_ofNat_of_lt' hword
  have hpage := hmore (UInt32.ofNat number)
  rw [UInt32.le_iff_toNat_le, UInt32.lt_iff_toNat_lt, UInt32.lt_iff_toNat_lt, hnumber'] at hpage
  exact hpage hnumber (by omega)

namespace Listing

variable {begun : Listing α} {size : UInt32} {most : Option Nat} {served : UInt32 -> Page α}
  {last : UInt32} {received : List (UInt32 × Page α)}

theorem Agrees.prefix (h : Agrees served last received)
    (hnumbers : received.map (·.1.toNat) = List.range' 1 received.length) :
    received.map (·.2) <+: firstPages served last.toNat := by
  have hpages : received.map (·.2) = firstPages served received.length := by
    unfold firstPages
    rw [← hnumbers, List.map_map]
    apply List.map_congr_left
    intro entry hentry
    show entry.2 = served (UInt32.ofNat entry.1.toNat)
    rw [UInt32.ofNat_toNat]
    exact (h entry hentry).1
  have hlength : received.length ≤ last.toNat := by
    rcases Nat.eq_zero_or_pos received.length with hzero | hpos
    · rw [hzero]
      exact Nat.zero_le _
    · have hmem : received.length ∈ received.map (·.1.toNat) := by
        rw [hnumbers, List.mem_range'_1]
        omega
      rcases List.mem_map.mp hmem with ⟨entry, hentry, hlast⟩
      rw [← hlast]
      exact UInt32.le_iff_toNat_le.mp (h entry hentry).2
  have hrange : List.range' 1 received.length <+: List.range' 1 last.toNat := by
    refine ⟨List.range' (1 + received.length) (last.toNat - received.length), ?_⟩
    rw [List.range'_append_1, Nat.add_sub_cancel' hlength]
  rw [hpages]
  exact hrange.map _

variable [Transport σ] [Json.Decode α] {w : World σ}

theorem collect_of_serves (hbuffer : begun.buffer = [])
    (hbegun : begun.paginator = .start size most)
    (hserves : begun.Serves w.transport served last)
    (hundisturbed : w.Undisturbed begun.client.cancel)
    (hlast : IsLeast {page | 1 ≤ page ∧ (served page).pages ≤ page} last) :
    (begun.collect w).1 =
      .ok (upTo most ((firstPages served last.toNat).flatMap (·.data))) := by
  have hmore : forall page, 1 ≤ page -> page < last -> page < (served page).pages := by
    intro page hpage hless
    by_contra hend
    exact absurd (hlast.2 ⟨hpage, UInt32.not_lt.mp hend⟩) (UInt32.not_le.mpr hless)
  have hbefore : Standing begun [] [] begun := ⟨rfl, rfl, rfl, (List.append_nil _).symm, trivial⟩
  rcases exists_gathers begun w with ⟨received, reached, hgathers⟩
  have hstanding := hgathers.standing hbefore
  rcases hgathers.served hbegun hbefore hserves hundisturbed (fun _ h => absurd h List.not_mem_nil)
    hlast.1.1 hlast.1.2 with ⟨hcollected, hended, hagrees⟩
  rw [List.nil_append] at hstanding hagrees
  have hfollows := hstanding.follows
  have hitems := hstanding.items
  rw [hstanding.paginator] at hended
  rw [hbegun] at hfollows hended hitems
  rw [hbuffer, Paginator.items_acceptAll, Paginator.admitted_start] at hitems
  rcases hagrees.prefix (Paginator.numbers_of_follows_start hfollows) with ⟨left, hleft⟩
  have hwalked := Paginator.upTo_itemsWalked_of_ended hfollows hended left
  rw [hleft, itemsWalked_firstPages hmore] at hwalked
  rw [hcollected, hwalked]
  exact congrArg Except.ok hitems

end Listing

/-!
## Single pages of a collection
-/

namespace Collection

variable {Create Update : Type} {c : Collection Create Update} {options : ListOptions}
  {begun : Listing α} {page size : UInt32}

theorem stream_eq_ok (h : c.stream options = .ok begun) :
    options.apply (c.collectionRequest .get) c.client.pageSize =
        .ok (begun.request, begun.paginator.pageSize) ∧
      begun.client = c.client ∧ begun.buffer = [] ∧
      begun.paginator = .start begun.paginator.pageSize options.maxResults := by
  rcases Listing.start_eq_ok_iff.mp h with ⟨applied, happly, rfl⟩
  exact ⟨happly, rfl, rfl, rfl⟩

variable [Transport σ] [Json.Decode α]

theorem listPage_of_stream (h : c.stream options = .ok begun) (hpage : page ≠ 0)
    (most : Option Nat) (w : World σ) :
    c.listPage page { options with maxResults := most } w = data (begun.ask page w) := by
  rcases stream_eq_ok h with ⟨happly, hclient, _⟩
  have hmost : ({ options with maxResults := most } : ListOptions).apply
      (c.collectionRequest .get) c.client.pageSize =
        .ok (begun.request, begun.paginator.pageSize) := happly
  unfold listPage Listing.ask
  rw [if_neg hpage, hmost, hclient]

theorem sendsThis_listPage (h : c.stream options = .ok begun) (hpage : page ≠ 0)
    (most : Option Nat) (w : World σ) :
    World.SendsThis (begun.asked page) begun.client.cancel w
      (c.listPage page { options with maxResults := most } w :
        Except Halt (Page α) × World σ).2 := by
  apply (begun.client.sendsThis_call (α := Page α)
    (begun.request.forPage page begun.paginator.pageSize) none w).congr
  rw [listPage_of_stream h hpage, requests_data]
  rfl

omit [Transport σ] in
/-- Single pages and walks agree.  A single page is asked for by the very request by which a stream
with the same options asks for it, whatever the stream has received and handed out before, and
whatever most items are wanted.  Against a server whose answers depend on the requests alone, a
single page is the server's as it is, and a list is made of their items, up to the first page that
announces none behind it. -/
theorem single_pages_agree_with_walks (hsize : options.pageSize.getD c.client.pageSize = size)
    (hleast : 25 ≤ size.toNat) (hgreatest : size.toNat ≤ 500)
    (hfilter : forall filter, options.filter = some filter ->
      (Header.Value.ofString? filter.text).isSome) :
    exists begun : Listing α, c.stream options = .ok begun ∧
      (forall (σ : Type) [Transport σ] (w : World σ) (page : UInt32) (most : Option Nat),
        page ≠ 0 ->
        World.SendsThis (begun.asked page) c.client.cancel w
            (c.listPage page { options with maxResults := most } w :
              Except Halt (Page α) × World σ).2 ∧
          forall received handed reached, Listing.Standing begun received handed reached ->
            World.SendsThis (begun.asked page) c.client.cancel w (reached.fetch page w).2 ∧
              reached.fetch page w =
                reached.takeIn page (c.listPage page { options with maxResults := most } w)) ∧
      forall (σ : Type) [Transport σ] (w : World σ) (served : UInt32 -> Page α) (last : UInt32),
        begun.Serves w.transport served last ->
        IsLeast {page | 1 ≤ page ∧ (served page).pages ≤ page} last ->
        w.Undisturbed c.client.cancel ->
          (forall (page : UInt32) (most : Option Nat) (w' : World σ), 1 ≤ page -> page ≤ last ->
            w'.transport = w.transport -> w'.Undisturbed c.client.cancel ->
              (c.listPage page { options with maxResults := most } w').1 = .ok (served page)) ∧
          (c.list options w).1 = .ok
            (upTo options.maxResults ((firstPages served last.toNat).flatMap (·.data))) := by
  obtain ⟨begun, hstream⟩ : exists begun : Listing α, c.stream options = .ok begun := by
    rcases exists_stream (α := α) hsize hleast hgreatest hfilter with ⟨headers, hstream⟩
    exact ⟨_, hstream⟩
  rcases stream_eq_ok hstream with ⟨_, hclient, hbuffer, hpaginator⟩
  refine ⟨begun, hstream, ?_, ?_⟩
  · intro σ _ w page most hpage
    rw [← hclient]
    constructor
    · exact sendsThis_listPage hstream hpage most w
    · intro received handed reached hstanding
      refine ⟨hstanding.sendsThis_fetch page w, ?_⟩
      rw [Listing.fetch_eq_takeIn, hstanding.ask_eq, listPage_of_stream hstream hpage]
  · intro σ _ w served last hserves hlast hundisturbed
    rw [← hclient] at hundisturbed ⊢
    constructor
    · intro page most w' hone hle htransport hopen
      have hpage : page ≠ 0 := by
        rintro rfl
        exact absurd hone (by decide)
      rw [← htransport] at hserves
      rcases Listing.ask_of_serves hserves hopen hone hle with ⟨response, w₁, hask, hdata, _⟩
      rw [listPage_of_stream hstream hpage, hask]
      exact congrArg Except.ok hdata
    · unfold list
      rw [hstream]
      exact Listing.collect_of_serves hbuffer hpaginator hserves hundisturbed hlast

end Collection

namespace Sample

def pageOf (page : UInt32) : Page UInt64 :=
  ⟨if page = 1 then thirty.take 25 else thirty.drop 25, page, 2, 0⟩

def pageRequest (page : UInt32) : HttpRequest :=
  { prepared with
    url := { root with path := .segments [['p']], query := some (pageParameters page 25) } }

/-- Two single pages, cut at twenty-seven numbers, are the list. -/
theorem single_pages_are_listed :
    (forall filter, options.filter = some filter -> (Header.Value.ofString? filter.text).isSome) ∧
      (numbers.listPage 1 options serving).1 = .ok (pageOf 1) ∧
      (numbers.listPage 2 options serving).1 = .ok (pageOf 2) ∧
      (numbers.list options serving).1 =
        .ok (upTo (some 27) ((pageOf 1).data ++ (pageOf 2).data)) := by
  have hfilter : forall filter, options.filter = some filter ->
      (Header.Value.ofString? filter.text).isSome := by
    intro filter hnone
    cases hnone
  rcases Collection.single_pages_agree_with_walks (α := UInt64) (c := numbers)
    (show options.pageSize.getD numbers.client.pageSize = 25 from rfl) (by decide) (by decide)
    hfilter with ⟨begun, hstream, _, hserved⟩
  have hpages : forall page : UInt32, 1 ≤ page -> page ≤ 2 -> page = 1 ∨ page = 2 := by
    intro page hone htwo
    rw [UInt32.le_iff_toNat_le] at hone htwo
    rw [← UInt32.toNat_inj, ← UInt32.toNat_inj]
    exact Nat.le_and_le_add_one_iff.mp ⟨hone, htwo⟩
  have hserves : begun.Serves serving.transport pageOf 2 := by
    cases hstream
    constructor
    · intro request
      rfl
    · intro page hone htwo
      rcases hpages page hone htwo with rfl | rfl
      · refine ⟨pageRequest 1, by decide +kernel, rfl, rfl, ?_, ?_⟩
        · intro token htoken
          cases htoken
        · exact ⟨_, rfl, by decide +kernel⟩
      · refine ⟨pageRequest 2, by decide +kernel, rfl, rfl, ?_, ?_⟩
        · intro token htoken
          cases htoken
        · exact ⟨_, rfl, by decide +kernel⟩
  have hlast : IsLeast {page | 1 ≤ page ∧ (pageOf page).pages ≤ page} 2 := by
    constructor
    · exact ⟨by decide, by decide⟩
    · intro page hpage
      exact hpage.2
  have hundisturbed : serving.Undisturbed numbers.client.cancel :=
    ⟨rfl, fun entry hentry => absurd hentry List.not_mem_nil⟩
  rcases hserved Server serving pageOf 2 hserves hlast hundisturbed with ⟨hsingle, hlist⟩
  refine ⟨hfilter, ?_, ?_, ?_⟩
  · exact hsingle 1 (some 27) serving (by decide) (by decide) rfl hundisturbed
  · exact hsingle 2 (some 27) serving (by decide) (by decide) rfl hundisturbed
  · exact hlist

end Sample
end RestClient
