import RestClient.Proofs.Creation
import RestClient.Proofs.Serving
import RestClient.Proofs.Streaming
import Mathlib.Algebra.Order.Floor.Div

/-!
# The size of pages

A listing gives the same items whatever the size of its pages, and asks for as many pages as these
items fill.
-/

namespace RestClient

variable {α : Type}

/-- The server hands out the items on this number of pages of this size. -/
def Server.Lists [Json.Decode α] (server : Server) (items : List α) (size pages : UInt32) : Prop :=
  (pages.toNat = items.length ⌈/⌉ size.toNat ∨ items = [] ∧ pages = 1) ∧
    forall (request : HttpRequest) (page : UInt32), request.AsksFor page size -> 1 ≤ page.toNat ->
      page.toNat ≤ max 1 pages.toNat ->
        exists (response : HttpResponse) (received : Page α), server.answer request = .ok response ∧
          response.value? = some received ∧ received.pages = pages ∧
          received.data = (items.drop ((page.toNat - 1) * size.toNat)).take size.toNat

/-- How many pages a listing asks for: those that its items fill, at least one unless nothing is
wanted. -/
def pagesAsked (most : Option Nat) (items : List α) (size : Nat) : Nat :=
  if most = some 0 then 0 else max 1 ((upTo most items).length ⌈/⌉ size)

/-!
## Counting pages
-/

section Counting

variable {most : Option Nat} {items : List α} {size count : Nat}

theorem length_upTo_le (most : Option Nat) (items : List α) :
    (upTo most items).length ≤ items.length := by
  cases most with
  | none => exact Nat.le_refl _
  | some most =>
    unfold upTo
    rw [List.length_take]
    exact Nat.min_le_right _ _

theorem pagesAsked_le_iff (hmost : most ≠ some 0) (hsize : 0 < size) (hcount : 1 ≤ count) :
    pagesAsked most items size ≤ count <-> (upTo most items).length ≤ count * size := by
  unfold pagesAsked
  rw [if_neg hmost, Nat.max_le, ceilDiv_le_iff_le_mul hsize, Nat.mul_comm]
  exact and_iff_right hcount

theorem isFull_or_le_iff :
    Paginator.isFull most (upTo most (items.take count)).length = true ∨ items.length ≤ count <->
      (upTo most items).length ≤ count := by
  cases most with
  | none =>
    show (false = true ∨ items.length ≤ count) <-> items.length ≤ count
    simp
  | some most =>
    unfold Paginator.isFull upTo
    rw [List.length_take, List.length_take, List.length_take, decide_eq_true_eq]
    omega

theorem upTo_take (h : (upTo most items).length ≤ count) :
    upTo most (items.take count) = upTo most items := by
  cases most with
  | none => exact List.take_of_length_le h
  | some most =>
    unfold upTo at h ⊢
    rw [List.length_take] at h
    show (items.take count).take most = items.take most
    rw [List.take_take]
    by_cases hle : most ≤ count
    · rw [Nat.min_eq_left hle]
    · rw [List.take_of_length_le (by omega), List.take_of_length_le (by omega)]

end Counting

/-!
## Page by page
-/

namespace Listing

variable [Json.Decode α] {begun reached : Listing α} {items : List α} {size pages : UInt32}
  {most : Option Nat} {count : Nat} {w w' : World Server}

/-- The listing has got its first pages, each for one request. -/
structure Visited (begun : Listing α) (most : Option Nat) (items : List α) (size : UInt32)
    (w : World Server) (count : Nat) (reached : Listing α) (w' : World Server) : Prop where
  walks : begun.Walks w reached w'
  taken : exists received, Standing begun received [] reached ∧
    received.flatMap (·.2.data) = items.take (count * size.toNat)
  nextPage : forall page, reached.paginator.nextPage = some page <->
    count < pagesAsked most items size.toNat ∧ page.toNat = count + 1
  asked : exists asked, w'.requests = w.requests ++ asked ∧ asked.length = count ∧
    forall i request, asked[i]? = some request -> exists page : UInt32, page.toNat = i + 1 ∧
      request.AsksFor page size
  transport : w'.transport = w.transport
  isOpen : w'.isCanceled begun.client.cancel = false

structure Listable (begun : Listing α) (most : Option Nat) (items : List α) (size pages : UInt32)
    (w : World Server) : Prop where
  buffer : begun.buffer = []
  paginator : begun.paginator = .start size most
  queryParams : begun.request.queryParams = []
  address : exists address, begun.request.url begun.client.root = .ok address
  size_pos : 0 < size.toNat
  isOpen : w.isCanceled begun.client.cancel = false
  lists : w.transport.Lists items size pages

theorem Listable.le_count_iff (h : begun.Listable most items size pages w) (hcount : 1 ≤ count) :
    pages.toNat ≤ count <-> items.length ≤ count * size.toNat := by
  rcases h.lists.1 with hpages | ⟨hnil, hpages⟩
  · rw [hpages, ceilDiv_le_iff_le_mul h.size_pos, Nat.mul_comm]
  · rw [hnil, hpages]
    exact ⟨fun _ => Nat.zero_le _, fun _ => hcount⟩

theorem Listable.pagesAsked_le (h : begun.Listable most items size pages w) :
    pagesAsked most items size.toNat ≤ max 1 pages.toNat := by
  by_cases hmost : most = some 0
  · unfold pagesAsked
    rw [if_pos hmost]
    exact Nat.zero_le _
  · rw [pagesAsked_le_iff hmost h.size_pos (Nat.le_max_left _ _)]
    apply (length_upTo_le most items).trans
    rw [← h.le_count_iff (Nat.le_max_left _ _)]
    exact Nat.le_max_right _ _

theorem Listable.ends_iff (h : begun.Listable most items size pages w) (hmost : most ≠ some 0)
    {page : UInt32} (hnumber : page.toNat = count + 1) :
    (Paginator.isFull most (upTo most (items.take ((count + 1) * size.toNat))).length ||
      pages ≤ page) = true <-> pagesAsked most items size.toNat ≤ count + 1 := by
  have hcount : 1 ≤ count + 1 := Nat.le_add_left 1 count
  rw [pagesAsked_le_iff hmost h.size_pos hcount, ← isFull_or_le_iff, ← h.le_count_iff hcount,
    Bool.or_eq_true, decide_eq_true_eq, UInt32.le_iff_toNat_le, hnumber]

theorem Listable.visited_zero (h : begun.Listable most items size pages w) :
    begun.Visited most items size w 0 begun w := by
  refine ⟨.start, ⟨[], ⟨rfl, rfl, rfl, (List.append_nil _).symm, trivial⟩, ?_⟩, ?_, ?_, rfl,
    h.isOpen⟩
  · rw [Nat.zero_mul]
    rfl
  · intro page
    rw [h.paginator]
    show (if most = some 0 then none else some 1) = some page <-> _
    unfold pagesAsked
    by_cases hmost : most = some 0
    · rw [if_pos hmost, if_pos hmost]
      simp
    · rw [if_neg hmost, if_neg hmost, Option.some.injEq, ← UInt32.toNat_inj]
      exact ⟨fun hone => ⟨Nat.lt_of_lt_of_le Nat.one_pos (Nat.le_max_left _ _), hone.symm⟩,
        fun hone => hone.2.symm⟩
  · exact ⟨[], (List.append_nil _).symm, rfl, by simp⟩

theorem Visited.next (hlistable : begun.Listable most items size pages w)
    (h : begun.Visited most items size w count reached w')
    (hmore : count < pagesAsked most items size.toNat) :
    exists next w'', begun.Visited most items size w (count + 1) next w'' := by
  rcases h.taken with ⟨received, hstanding, htaken⟩
  rcases h.walks.same with ⟨hclient, hrequest, hpageSize⟩
  have hsize : reached.paginator.pageSize = size := by
    rw [hpageSize, hlistable.paginator]
    rfl
  have hmost : most ≠ some 0 := by
    intro hzero
    unfold pagesAsked at hmore
    rw [if_pos hzero] at hmore
    omega
  have hbound := hlistable.pagesAsked_le
  have hword : max 1 pages.toNat < 2 ^ 32 := Nat.max_lt.mpr ⟨by decide, pages.toNat_lt⟩
  rcases hlistable.address with ⟨address, haddress⟩
  -- The page that is due.
  have hnumber : (UInt32.ofNat (count + 1)).toNat = count + 1 :=
    UInt32.toNat_ofNat_of_lt' (Nat.lt_of_le_of_lt (Nat.le_trans hmore hbound) hword)
  generalize UInt32.ofNat (count + 1) = page at hnumber
  have hpage := (h.nextPage page).mpr ⟨hmore, hnumber⟩
  rcases Request.exists_prepare_asksFor haddress hlistable.queryParams page size with
    ⟨prepared, hprepare, hasks⟩
  rcases hlistable.lists.2 prepared page hasks (by omega) (by omega) with
    ⟨response, data, hanswer, hvalue, hpages, hdata⟩
  rw [← hclient] at hprepare
  rw [← hrequest, ← hsize] at hprepare
  rw [← h.transport] at hanswer
  have hopen := h.isOpen
  rw [← hclient] at hopen
  rcases Client.call_of_answer hprepare hopen hanswer hvalue with
    ⟨answer, w'', hcall, hanswered, hrequests, htransport, hstillOpen⟩
  have hask : reached.ask page w' = (.ok answer, w'') := hcall
  have hfetch := fetch_of_ok hask
  rw [hanswered] at hfetch
  refine ⟨_, _, h.walks.page hpage hfetch, ?_, ?_, ?_, ?_, ?_⟩
  · refine ⟨received ++ [(page, data)], hstanding.absorb hpage data, ?_⟩
    rw [List.flatMap_append, htaken, List.flatMap_singleton, hdata, hnumber, Nat.add_sub_cancel,
      Nat.succ_mul, List.take_add]
  · intro following
    have hstands := hstanding.absorb hpage data
    rw [hstands.paginator, hlistable.paginator, Paginator.nextPage_concat, List.flatMap_append,
      htaken, List.flatMap_singleton, hdata, hnumber, Nat.add_sub_cancel, ← List.take_add,
      ← Nat.succ_mul, hpages]
    have hends := hlistable.ends_iff hmost hnumber
    by_cases hlast : pagesAsked most items size.toNat ≤ count + 1
    · rw [if_pos (hends.mpr hlast)]
      simp only [reduceCtorEq, false_iff, not_and]
      omega
    · rw [if_neg (fun hend => hlast (hends.mp hend)), Option.some.injEq, ← UInt32.toNat_inj,
        UInt32.toNat_add, hnumber]
      have hone : (1 : UInt32).toNat = 1 := rfl
      have hmod : (count + 1 + 1) % 2 ^ 32 = count + 1 + 1 := Nat.mod_eq_of_lt (by omega)
      rw [hone, hmod]
      omega
  · rcases h.asked with ⟨asked, hasked, hlength, hpages⟩
    refine ⟨asked ++ [prepared], ?_, ?_, ?_⟩
    · have hreported : (w''.report (.fetched reached.request.path
          data.descriptor)).requests = w''.requests :=
        (World.drifts_report w'' _ (by simp [Event.failure?])).sameTraffic.requests
      rw [hreported, hrequests, hasked, List.append_assoc]
    · rw [List.length_append, hlength]
      rfl
    · intro i request hi
      rcases Nat.lt_or_ge i asked.length with hlt | hge
      · rw [List.getElem?_append_left hlt] at hi
        exact hpages i request hi
      · rw [List.getElem?_append_right hge] at hi
        rcases List.getElem?_eq_some_iff.mp hi with ⟨hlast, hrequest⟩
        have hi : i = count := by
          rw [List.length_singleton] at hlast
          omega
        rw [List.getElem_singleton] at hrequest
        exact ⟨page, by omega, hrequest ▸ hasks⟩
  · exact htransport.trans h.transport
  · rw [hclient] at hstillOpen
    exact hstillOpen

theorem Listable.exists_visited (h : begun.Listable most items size pages w)
    (hcount : count ≤ pagesAsked most items size.toNat) :
    exists reached w', begun.Visited most items size w count reached w' := by
  induction count with
  | zero => exact ⟨begun, w, h.visited_zero⟩
  | succ count ih =>
    rcases ih (Nat.le_of_succ_le hcount) with ⟨reached, w', hvisited⟩
    exact hvisited.next h hcount

theorem Listable.collect (h : begun.Listable most items size pages w) :
    (begun.collect w).1 = .ok (upTo most items) ∧
      exists asked, (begun.collect w).2.requests = w.requests ++ asked ∧
        asked.length = pagesAsked most items size.toNat ∧
        forall i request, asked[i]? = some request -> exists page : UInt32, page.toNat = i + 1 ∧
          request.AsksFor page size := by
  rcases h.exists_visited (Nat.le_refl _) with ⟨reached, w', hvisited⟩
  have hended : reached.paginator.nextPage = none := by
    cases hpage : reached.paginator.nextPage with
    | none => rfl
    | some page => exact absurd ((hvisited.nextPage page).mp hpage).1 (Nat.lt_irrefl _)
  rcases hvisited.taken with ⟨received, hstanding, htaken⟩
  have hitems := hstanding.items
  rw [h.buffer, h.paginator, Paginator.items_acceptAll, Paginator.admitted_start, htaken]
    at hitems
  rw [hvisited.walks.collect_eq, collect_of_ended hended]
  refine ⟨?_, hvisited.asked⟩
  show Except.ok ([] ++ reached.buffer) = Except.ok (upTo most items)
  rw [hitems, List.nil_append]
  by_cases hmost : most = some 0
  · rw [hmost]
    rfl
  · have hpos : 1 ≤ pagesAsked most items size.toNat := by
      unfold pagesAsked
      rw [if_neg hmost]
      exact Nat.le_max_left _ _
    rw [upTo_take ((pagesAsked_le_iff hmost h.size_pos hpos).mp (Nat.le_refl _))]

end Listing

/-!
## Listings of a collection
-/

theorem Request.withHeader_filter {text : String} {value : Header.Value}
    (hvalue : Header.Value.ofString? text = some value) (request : Request) :
    request.withHeader ListOptions.filterHeader text =
      .ok { request with headers := request.headers.insert Header.filter value } := by
  have hname : Header.Name.ofString? ListOptions.filterHeader = some Header.filter := by decide
  unfold withHeader Header.field?
  rw [hname]
  dsimp only
  rw [hvalue]

namespace Collection

variable {Create Update : Type} {c : Collection Create Update} {options : ListOptions}
  {size : UInt32}

theorem queryParams_request (c : Collection Create Update) (method : Method) (path : String) :
    (c.request method path).queryParams = [] := by
  rcases c.exists_request_eq method path with ⟨pathParams, hrequest⟩
  rw [hrequest]
  rfl

theorem exists_stream (hsize : options.pageSize.getD c.client.pageSize = size)
    (hleast : 25 ≤ size.toNat) (hgreatest : size.toNat ≤ 500)
    (hfilter : forall filter, options.filter = some filter ->
      (Header.Value.ofString? filter.text).isSome) :
    exists (headers : Headers), (c.stream options : Except Error (Listing α)) = .ok
      { client := c.client, request := { c.collectionRequest .get with headers }
        paginator := .start size options.maxResults, buffer := [] } := by
  have hvalid : ¬ (size.toNat < leastPageSize ∨ greatestPageSize < size.toNat) := by
    show ¬ (size.toNat < 25 ∨ 500 < size.toNat)
    omega
  unfold stream Listing.start ListOptions.apply
  rw [hsize, if_neg hvalid]
  cases hoptions : options.filter with
  | none => exact ⟨(c.collectionRequest .get).headers, rfl⟩
  | some filter =>
    rcases Option.isSome_iff_exists.mp (hfilter filter hoptions) with ⟨value, hvalue⟩
    refine ⟨(c.collectionRequest .get).headers.insert Header.filter value, ?_⟩
    dsimp only
    rw [Request.withHeader_filter hvalue]

/-- Against a server that hands out the items on pages of this size, a listing returns the items
up to the most that are wanted, and asks once for each of the pages that these fill. -/
theorem list_gives_same_items_for_any_page_size [Json.Decode α] {items : List α}
    {pages : UInt32} {address : Url} {w : World Server}
    (hsize : options.pageSize.getD c.client.pageSize = size) (hleast : 25 ≤ size.toNat)
    (hgreatest : size.toNat ≤ 500)
    (hfilter : forall filter, options.filter = some filter ->
      (Header.Value.ofString? filter.text).isSome)
    (haddress : (c.collectionRequest .get).url c.client.root = .ok address)
    (hopen : w.isCanceled c.client.cancel = false) (hlists : w.transport.Lists items size pages) :
    (c.list options w).1 = .ok (upTo options.maxResults items) ∧
      exists asked, (c.list options w : Except Halt (List α) × World Server).2.requests =
          w.requests ++ asked ∧
        asked.length = pagesAsked options.maxResults items size.toNat ∧
        forall i request, asked[i]? = some request -> exists page : UInt32, page.toNat = i + 1 ∧
          request.AsksFor page size := by
  rcases exists_stream (α := α) hsize hleast hgreatest hfilter with ⟨headers, hstream⟩
  have hquery : (c.collectionRequest .get).queryParams = [] := queryParams_request c _ _
  unfold list
  rw [hstream]
  exact Listing.Listable.collect ⟨rfl, rfl, hquery, ⟨address, haddress⟩, by omega, hopen, hlists⟩

end Collection

namespace Sample

def thirty : List UInt64 := (List.range 30).map UInt64.ofNat

def pageServer : Server where
  answer request :=
    .ok (if (pageParameters 2 25).isSuffixOf (request.url.query.getD []) then
      listed (thirty.drop 25) 2 2 else listed (thirty.take 25) 1 2)

theorem pageServer_lists : pageServer.Lists thirty 25 2 := by
  refine ⟨Or.inl rfl, ?_⟩
  rintro request page ⟨before, _, hquery⟩ hleast hgreatest
  have hsuffix : pageParameters page 25 <:+ request.url.query.getD [] := by
    rw [hquery]
    exact List.suffix_append before _
  have hpage : page = 1 ∨ page = 2 := by
    have hmost : page.toNat ≤ 2 := hgreatest
    rw [← UInt32.toNat_inj, ← UInt32.toNat_inj]
    show page.toNat = 1 ∨ page.toNat = 2
    omega
  rcases hpage with rfl | rfl
  · have hother : ¬ (pageParameters 2 25).isSuffixOf (request.url.query.getD []) = true := by
      rw [List.isSuffixOf_iff_suffix]
      intro hsecond
      have hsame := (List.suffix_of_suffix_length_le hsecond hsuffix (by decide)).eq_of_length
        (by decide)
      revert hsame
      decide
    refine ⟨listed (thirty.take 25) 1 2, ⟨thirty.take 25, 1, 2, 0⟩, ?_, ?_, rfl, rfl⟩
    · exact congrArg Except.ok (if_neg hother)
    · decide +kernel
  · refine ⟨listed (thirty.drop 25) 2 2, ⟨thirty.drop 25, 2, 2, 0⟩, ?_, ?_, rfl, rfl⟩
    · exact congrArg Except.ok (if_pos (List.isSuffixOf_iff_suffix.mpr hsuffix))
    · decide +kernel

def serving : World Server := .initial pageServer ⟨0⟩ fun _ => .whole

def options : ListOptions := ⟨some 25, some 27, none⟩

theorem list_of_two_pages :
    (numbers.list options serving).1 = .ok (thirty.take 27) ∧
      exists asked,
        (numbers.list options serving : Except Halt (List UInt64) × World Server).2.requests =
          [] ++ asked ∧
        asked.length = 2 ∧
        forall i request, asked[i]? = some request -> exists page : UInt32, page.toNat = i + 1 ∧
          request.AsksFor page 25 := by
  have hsize : options.pageSize.getD numbers.client.pageSize = 25 := rfl
  have haddress : (numbers.collectionRequest .get).url numbers.client.root =
      .ok { root with path := .segments [['p']] } := by decide +kernel
  have hfilter : forall filter, options.filter = some filter ->
      (Header.Value.ofString? filter.text).isSome := by
    intro filter hnone
    cases hnone
  have hopen : serving.isCanceled numbers.client.cancel = false := rfl
  exact Collection.list_gives_same_items_for_any_page_size hsize (by decide) (by decide) hfilter
    haddress hopen pageServer_lists

end Sample
end RestClient
