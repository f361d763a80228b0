import RestClient.Proofs.Supplying
import RestClient.Proofs.Walked
import Mathlib.Data.List.Forall2
import Mathlib.Order.Bounds.Basic

/-!
# Lazy listings

A listing asks for a page only when an item is wanted that no page before it holds, and for none
behind the one that fills it.
-/

namespace RestClient

variable {α : Type}

/-!
## Taking items from a script of pages
-/

namespace Listing

variable [Json.Decode α] {begun listing : Listing α} {most : Option Nat}
  {pages : List (Page α)} {received more : List (UInt32 × Page α)} {handed : List α}
  {page : UInt32} {w₀ w w' : World Script}

/-- The listing has just begun, and its requests can be prepared. -/
structure Ready (begun : Listing α) (most : Option Nat) : Prop where
  buffer : begun.buffer = []
  paginator : exists size, begun.paginator = .start size most
  address : exists url, begun.request.url begun.client.root = .ok url

def Asks (begun : Listing α) (number : Nat) (prepared : HttpRequest) : Prop :=
  begun.client.prepare (begun.request.forPage (.ofNat number) begun.paginator.pageSize) none =
    .ok prepared

/-- The listing has received some of the pages and handed out these items, and its script supplies
the pages that are left. -/
structure Underway (begun : Listing α) (most : Option Nat) (pages : List (Page α))
    (w₀ : World Script) (received : List (UInt32 × Page α)) (handed : List α)
    (listing : Listing α) (w : World Script) : Prop where
  standing : Standing begun received handed listing
  undisturbed : w.Undisturbed begun.client.cancel
  replies : exists left, pages = received.map (·.2) ++ left ∧
    List.Forall₂ begun.client.Supplies w.transport.replies left
  asked : exists asked, w.requests = w₀.requests ++ asked ∧
    List.Forall₂ begun.Asks (received.map (·.1.toNat)) asked
  /-- The last page was asked for only when the items of the pages before it had been handed out and
  were not enough. -/
  frugal : LastIsNeeded pages received.length (handed.length + 1)
  room : forall m, most = some m -> LastIsNeeded pages received.length m

section Positions

omit [Json.Decode α]

theorem Ready.exists_start (h : begun.Ready most)
    (hstanding : Standing begun received handed listing) :
    exists size, (Paginator.start size most).Follows received ∧
      listing.paginator = ((Paginator.start size most).acceptAll received).2 := by
  rcases h.paginator with ⟨size, hpaginator⟩
  refine ⟨size, ?_, ?_⟩
  · rw [← hpaginator]
    exact hstanding.follows
  · rw [← hpaginator]
    exact hstanding.paginator

theorem Ready.items (h : begun.Ready most) (hstanding : Standing begun received handed listing) :
    handed ++ listing.buffer = upTo most (received.flatMap (·.2.data)) := by
  rcases h.paginator with ⟨size, hpaginator⟩
  rw [hstanding.items, h.buffer, hpaginator, Paginator.items_acceptAll, Paginator.admitted_start]
  rfl

theorem Ready.room (h : begun.Ready most) (hstanding : Standing begun received handed listing)
    (hpage : listing.paginator.nextPage = some page) :
    handed ++ listing.buffer = received.flatMap (·.2.data) ∧
      forall m, most = some m -> (received.flatMap (·.2.data)).length < m := by
  rcases h.exists_start hstanding with ⟨size, _, hposition⟩
  have hroom : forall m, most = some m -> (received.flatMap (·.2.data)).length < m := by
    rw [hposition] at hpage
    exact fun m hmost => Paginator.lt_most_of_nextPage hpage hmost
  refine ⟨?_, hroom⟩
  rw [h.items hstanding]
  cases most with
  | none => rfl
  | some m => exact List.take_of_length_le (Nat.le_of_lt (hroom m rfl))

theorem Ready.exists_prepare (h : begun.Ready most)
    (hstanding : Standing begun received handed listing) (page : UInt32) :
    exists prepared, begun.Asks page.toNat prepared ∧
      listing.client.prepare (listing.request.forPage page listing.paginator.pageSize) none =
        .ok prepared := by
  rcases h.address with ⟨url, haddress⟩
  rcases Request.exists_prepare_of_path haddress
    (begun.request.forPage page begun.paginator.pageSize) rfl with ⟨_, prepared, hprepare, _⟩
  refine ⟨prepared, ?_, ?_⟩
  · unfold Asks
    rw [UInt32.ofNat_toNat]
    exact hprepare
  · rw [hstanding.client, hstanding.request, hstanding.paginator, Paginator.pageSize_acceptAll]
    exact hprepare

theorem Ready.not_reachesEnd (h : begun.Ready most)
    (hstanding : Standing begun received handed listing)
    (hpage : listing.paginator.nextPage = some page) : ¬ ReachesEnd (received.map (·.2)) := by
  rcases h.exists_start hstanding with ⟨size, hfollows, hposition⟩
  rw [hposition] at hpage
  exact Paginator.not_reachesEnd_of_follows hfollows hpage

end Positions

theorem Underway.itemsOn_received (h : Underway begun most pages w₀ received handed listing w) :
    itemsOn pages received.length = (received.flatMap (·.2.data)).length := by
  rcases h.replies with ⟨left, rfl, _⟩
  unfold itemsOn
  rw [List.take_left' (List.length_map _), List.flatMap_map]

theorem Underway.ask (hready : begun.Ready most)
    (h : Underway begun most pages w₀ received handed listing w) (hbuffer : listing.buffer = [])
    (hpage : listing.paginator.nextPage = some page) :
    (exists response w', listing.ask page w = (.ok response, w') ∧
        Underway begun most pages w₀ (received ++ [(page, response.data)]) handed
          (listing.absorb page response.data)
          (w'.report (.fetched listing.request.path response.data.descriptor))) ∨
      (pages = received.map (·.2) ∧
        exists halt w', listing.ask page w = (.error halt, w') ∧ w'.transport.replies = []) := by
  rcases h.replies with ⟨left, hpages, hreplies⟩
  rcases hready.room h.standing hpage with ⟨hhanded, hroom⟩
  rw [hbuffer, List.append_nil] at hhanded
  cases hscript : w.transport.replies with
  | nil =>
    rw [hscript] at hreplies
    cases hreplies
    right
    rw [List.append_nil] at hpages
    exact ⟨hpages, Client.call_of_spent hscript _ _ _⟩
  | cons reply rest =>
    rw [hscript] at hreplies
    cases hreplies with
    | @cons _ data _ left hsupplies hrest =>
      left
      have hundisturbed := h.undisturbed
      rw [← h.standing.client] at hsupplies hundisturbed
      rcases hready.exists_prepare h.standing page with ⟨prepared, hasks, hprepare⟩
      rcases Client.call_of_supplies hprepare hundisturbed hscript hsupplies with
        ⟨response, w', hcall, rfl, hrequests, hreplies', hundisturbed'⟩
      have hfetched := w'.sendsNothing_report
        (.fetched listing.request.path response.data.descriptor)
      have hitems : forall count, count + 1 = (received ++ [(page, response.data)]).length ->
          itemsOn pages count = handed.length := by
        intro count hcount
        have hlength : count = received.length := by simpa using hcount
        rw [hlength, h.itemsOn_received, ← hhanded]
      refine ⟨response, w', hcall, h.standing.absorb hpage _, ?_, ⟨left, ?_, ?_⟩, ?_, ?_, ?_⟩
      · rw [h.standing.client] at hundisturbed'
        exact ⟨hundisturbed'.isOpen, hundisturbed'.scheduled⟩
      · rw [hpages, List.map_append, List.append_assoc]
        rfl
      · rw [hfetched.transport, hreplies']
        exact hrest
      · rcases h.asked with ⟨asked, hasked, hall⟩
        refine ⟨asked ++ [prepared], ?_, ?_⟩
        · rw [hfetched.requests, hrequests, hasked, List.append_assoc]
        · rw [List.map_append]
          exact List.rel_append hall (.cons hasks .nil)
      · intro count hcount
        rw [hitems count hcount]
        exact Nat.lt_succ_self _
      · intro m hmost count hcount
        rw [hitems count hcount, hhanded]
        exact hroom m hmost

/-- Nothing is left to hand out: the listing has ended, or its script is spent before that. -/
inductive Over (begun : Listing α) (most : Option Nat) (pages : List (Page α)) (w₀ : World Script)
    (handed : List α) (listing : Listing α) (w : World Script) : Prop where
  | ended {received : List (UInt32 × Page α)}
      (hunderway : Underway begun most pages w₀ received handed listing w)
      (hbuffer : listing.buffer = []) (hpage : listing.paginator.nextPage = none)
  | spent {received : List (UInt32 × Page α)} {page : UInt32}
      (hstanding : Standing begun received handed listing) (hall : pages = received.map (·.2))
      (hbuffer : listing.buffer = []) (hpage : listing.paginator.nextPage = some page)
      (hspent : w.transport.replies = [])

def IsLast (pages : List (Page α)) (result : Except Halt (Option α)) : Prop :=
  result = .ok none ∨ ¬ ReachesEnd pages ∧ exists halt, result = .error halt

theorem Over.next (hready : begun.Ready most) (h : Over begun most pages w₀ handed listing w) :
    IsLast pages (listing.next w).1 ∧
      Over begun most pages w₀ handed (listing.next w).2.1 (listing.next w).2.2 := by
  cases h with
  | ended hunderway hbuffer hpage =>
    rw [next_of_ended hbuffer hpage]
    exact ⟨Or.inl rfl, .ended hunderway hbuffer hpage⟩
  | spent hstanding hall hbuffer hpage hspent =>
    rcases (Client.call_of_spent hspent _ _ _ :
      exists halt w', listing.ask _ w = (.error halt, w') ∧
      w'.transport.replies = []) with ⟨halt, w', hask, hspent'⟩
    rw [next_of_page hbuffer hpage, fetch_of_error hask]
    have hends := hready.not_reachesEnd hstanding hpage
    rw [← hall] at hends
    exact ⟨Or.inr ⟨hends, halt, rfl⟩, .spent hstanding hall hbuffer hpage hspent'⟩

theorem Seeks.underway {answer : Except Halt (Option α) × Listing α × World Script}
    (hready : begun.Ready most) (h : listing.Seeks w more answer)
    (hunderway : Underway begun most pages w₀ received handed listing w) :
    (exists item, answer.1 = .ok (some item) ∧
        Underway begun most pages w₀ (received ++ more) (handed ++ [item]) answer.2.1 answer.2.2 ∧
        LastIsNeeded pages (received ++ more).length (handed.length + 1)) ∨
      IsLast pages answer.1 ∧ Over begun most pages w₀ handed answer.2.1 answer.2.2 := by
  have hstanding := h.standing hunderway.standing
  induction h generalizing received with
  | @item listing w item rest hbuffer =>
    left
    rw [List.append_nil] at hstanding ⊢
    refine ⟨item, rfl, ⟨hstanding, hunderway.undisturbed, hunderway.replies, hunderway.asked, ?_,
      hunderway.room⟩, hunderway.frugal⟩
    intro count hcount
    rw [List.length_append]
    exact Nat.lt_succ_of_lt (hunderway.frugal count hcount)
  | ended hbuffer hpage => exact Or.inr ⟨Or.inl rfl, .ended hunderway hbuffer hpage⟩
  | failed hbuffer hpage hask =>
    -- Only a spent script makes a request fail.
    right
    rcases hunderway.ask hready hbuffer hpage with ⟨response, w', hasked, _⟩ |
      ⟨hall, halt, w', hasked, hspent⟩
    · rw [hask] at hasked
      cases hasked
    · rw [hask] at hasked
      cases hasked
      have hends := hready.not_reachesEnd hunderway.standing hpage
      rw [← hall] at hends
      exact ⟨Or.inr ⟨hends, _, rfl⟩, .spent hunderway.standing hall hbuffer hpage hspent⟩
  | @page listing w w' page response more answer hbuffer hpage hask hrest ih =>
    rcases hunderway.ask hready hbuffer hpage with ⟨received', w'', hasked, habsorbed⟩ |
      ⟨_, halt, w'', hasked, _⟩
    · rw [hask] at hasked
      cases hasked
      have hnext := ih habsorbed (hrest.standing habsorbed.standing)
      rw [List.append_assoc] at hnext
      exact hnext
    · rw [hask] at hasked
      cases hasked

/-!
## Steps one after another
-/

theorem length_nexts (listing : Listing α) (n : Nat) (w : World Script) :
    (listing.nexts n w).1.length = n := by
  induction n generalizing listing w with
  | zero => rfl
  | succ n ih => exact congrArg (· + 1) (ih (listing.next w).2.1 (listing.next w).2.2)

theorem nexts_of_ended (hbuffer : listing.buffer = []) (hpage : listing.paginator.nextPage = none)
    (n : Nat) (w : World Script) : listing.nexts n w = (.replicate n (.ok none), listing, w) := by
  induction n with
  | zero => rfl
  | succ n ih =>
    unfold Listing.nexts
    rw [next_of_ended hbuffer hpage]
    dsimp only
    rw [ih]
    rfl

theorem Over.nexts (hready : begun.Ready most) (h : Over begun most pages w₀ handed listing w)
    (n : Nat) :
    (forall result, result ∈ (listing.nexts n w).1 -> IsLast pages result) ∧
      Over begun most pages w₀ handed (listing.nexts n w).2.1 (listing.nexts n w).2.2 := by
  induction n generalizing listing w with
  | zero =>
    refine ⟨?_, h⟩
    intro result hresult
    cases hresult
  | succ n ih =>
    rcases h.next hready with ⟨hlast, hover⟩
    rcases ih hover with ⟨hrest, hfinal⟩
    refine ⟨?_, hfinal⟩
    intro result hresult
    rcases List.mem_cons.mp hresult with rfl | hmem
    · exact hlast
    · exact hrest result hmem

/-- Some steps give items only, without more pages than these need, or the listing comes to its last
item in them. -/
theorem Underway.nexts (hready : begun.Ready most)
    (h : Underway begun most pages w₀ received handed listing w)
    (hneeded : LastIsNeeded pages received.length handed.length) (n : Nat) :
    (exists (items : List α) (received : List (UInt32 × Page α)),
      (listing.nexts n w).1 = items.map (fun item => .ok (some item)) ∧
        Underway begun most pages w₀ received (handed ++ items) (listing.nexts n w).2.1
          (listing.nexts n w).2.2 ∧
        LastIsNeeded pages received.length (handed ++ items).length) ∨
      exists items last rest,
        (listing.nexts n w).1 = items.map (fun item => .ok (some item)) ++ last :: rest ∧
        (forall result, result ∈ last :: rest -> IsLast pages result) ∧
        Over begun most pages w₀ (handed ++ items) (listing.nexts n w).2.1
          (listing.nexts n w).2.2 := by
  -- Within a step a page may be asked for whose items come too late for the step before it, so the
  -- need for the last page is known only between the steps.
  induction n generalizing listing received handed w with
  | zero =>
    refine Or.inl ⟨[], received, rfl, ?_, ?_⟩
    · rw [List.append_nil]
      exact h
    · rw [List.append_nil]
      exact hneeded
  | succ n ih =>
    rcases exists_seeks listing w with ⟨more, hseeks⟩
    rcases hseeks.underway hready h with ⟨item, hitem, hnext, hneeded'⟩ | ⟨hlast, hover⟩
    · have hlength : (handed ++ [item]).length = handed.length + 1 := by simp
      rw [← hlength] at hneeded'
      have hrest := ih hnext hneeded'
      have hnexts : (listing.nexts (n + 1) w).1 = .ok (some item) ::
          ((listing.next w).2.1.nexts n (listing.next w).2.2).1 := by
        rw [← hitem]
        rfl
      rcases hrest with ⟨items, received', hresults, hfinal, hfrugal⟩ |
        ⟨items, last, rest, hresults, hends, hfinal⟩
      · rw [List.append_assoc] at hfinal hfrugal
        exact Or.inl ⟨item :: items, received', by rw [hnexts, hresults]; rfl, hfinal, hfrugal⟩
      · rw [List.append_assoc] at hfinal
        exact Or.inr ⟨item :: items, last, rest, by rw [hnexts, hresults]; rfl, hends, hfinal⟩
    · rcases hover.nexts hready n with ⟨hrest, hfinal⟩
      refine Or.inr ⟨[], (listing.next w).1, _, rfl, ?_, ?_⟩
      · intro result hresult
        rcases List.mem_cons.mp hresult with rfl | hmem
        · exact hlast
        · exact hrest result hmem
      · rw [List.append_nil]
        exact hfinal

/-!
## What has been handed out
-/

omit [Json.Decode α] in
theorem IsLast.ne_item {result : Except Halt (Option α)} (h : IsLast pages result) (item : α) :
    result ≠ .ok (some item) := by
  rcases h with rfl | ⟨_, halt, rfl⟩
  · simp
  · simp

omit [Json.Decode α] in
theorem handedOut_of_isLast {results : List (Except Halt (Option α))}
    (h : forall result, result ∈ results -> IsLast pages result) : handedOut results = [] := by
  apply List.filterMap_eq_nil_iff.mpr
  intro result hresult
  rcases h result hresult with rfl | ⟨_, halt, rfl⟩
  · rfl
  · rfl

theorem Underway.handed_first (hready : begun.Ready most)
    (h : Underway begun most pages w₀ received handed listing w) :
    handed <+: upTo most (itemsWalked pages) := by
  rcases hready.exists_start h.standing with ⟨size, hfollows, _⟩
  rcases h.replies with ⟨left, rfl, _⟩
  rcases Paginator.walked_of_follows_start hfollows left with ⟨tail, hwalked, _⟩
  unfold itemsWalked
  rw [hwalked, List.flatMap_append, List.flatMap_map]
  have hfirst : handed <+: upTo most (received.flatMap (·.2.data)) :=
    ⟨listing.buffer, hready.items h.standing⟩
  exact hfirst.trans (upTo_append most _ _)

theorem Over.handed_eq (hready : begun.Ready most)
    (h : Over begun most pages w₀ handed listing w) : handed = upTo most (itemsWalked pages) := by
  cases h with
  | @ended received hunderway hbuffer hpage =>
    have hitems := hready.items hunderway.standing
    rw [hbuffer, List.append_nil] at hitems
    rcases hready.exists_start hunderway.standing with ⟨size, hfollows, hposition⟩
    rcases hunderway.replies with ⟨left, rfl, _⟩
    rw [hposition] at hpage
    rw [Paginator.upTo_itemsWalked_of_ended hfollows hpage, hitems]
  | @spent received page hstanding hall hbuffer hpage hspent =>
    have hitems := hready.items hstanding
    rw [hbuffer, List.append_nil] at hitems
    rcases hready.exists_start hstanding with ⟨size, hfollows, _⟩
    rcases Paginator.walked_of_follows_start hfollows [] with ⟨tail, hwalked, hnone, _⟩
    rw [hnone rfl, List.append_nil, ← hall] at hwalked
    unfold itemsWalked
    rw [hwalked, hall, List.flatMap_map, hitems]

theorem Ready.exists_results (hready : begun.Ready most)
    (hstart : Underway begun most pages w [] [] begun w) (n : Nat) :
    exists rest, (begun.nexts n w).1 =
        ((upTo most (itemsWalked pages)).take n).map (fun item => .ok (some item)) ++ rest ∧
      forall result, result ∈ rest -> IsLast pages result := by
  have hlength := length_nexts begun n w
  rcases hstart.nexts hready (lastIsNeeded_zero pages 0) n with
    ⟨items, received, hitems, hunderway, _⟩ | ⟨items, last, rest, hitems, hends, hover⟩
  · have hfirst := hunderway.handed_first hready
    rw [hitems, List.length_map] at hlength
    rw [List.nil_append, List.prefix_iff_eq_take, hlength] at hfirst
    refine ⟨[], ?_, by simp⟩
    rw [hitems, ← hfirst, List.append_nil]
  · have hall := hover.handed_eq hready
    rw [hitems, List.length_append, List.length_map] at hlength
    rw [List.nil_append] at hall
    refine ⟨last :: rest, ?_, hends⟩
    rw [← hall, List.take_of_length_le (by omega), hitems]

/-!
## How many pages were asked for
-/

/-- If the last page was needed, as few pages were asked for as possible. -/
theorem Underway.exists_asked_isLeast (hready : begun.Ready most)
    (h : Underway begun most pages w₀ received handed listing w)
    (hneeded : LastIsNeeded pages received.length handed.length) :
    exists asked, w.requests = w₀.requests ++ asked ∧
      IsLeast {count | handed.length ≤ itemsOn pages count} asked.length ∧
      List.Forall₂ begun.Asks (List.range' 1 asked.length) asked := by
  rcases h.asked with ⟨asked, hasked, hall⟩
  rcases hready.exists_start h.standing with ⟨_, hfollows, _⟩
  have hcount := hall.length_eq
  rw [List.length_map] at hcount
  rw [Paginator.numbers_of_follows_start hfollows, hcount] at hall
  rw [hcount] at hneeded
  refine ⟨asked, hasked, ⟨?_, ?_⟩, hall⟩
  · show handed.length ≤ itemsOn pages asked.length
    have hfirst : handed <+: upTo most (received.flatMap (·.2.data)) :=
      ⟨listing.buffer, hready.items h.standing⟩
    have hitems : upTo most (received.flatMap (·.2.data)) <+: received.flatMap (·.2.data) := by
      cases most with
      | none => exact List.prefix_refl _
      | some m => exact List.take_prefix m _
    rw [← hcount, h.itemsOn_received]
    exact (hfirst.trans hitems).length_le
  · intro count hholds
    exact hneeded.le hholds

theorem Underway.exists_asked_le
    (h : Underway begun most pages w₀ received handed listing w) {m count : Nat}
    (hmost : most = some m) (hcount : m ≤ itemsOn pages count) :
    exists asked, w.requests = w₀.requests ++ asked ∧ asked.length ≤ count := by
  rcases h.asked with ⟨asked, hasked, hall⟩
  have hlength := hall.length_eq
  rw [List.length_map] at hlength
  have hneeded := h.room m hmost
  rw [hlength] at hneeded
  exact ⟨asked, hasked, hneeded.le hcount⟩

theorem Over.exists_asked_le (hready : begun.Ready most)
    (h : Over begun most pages w₀ handed listing w) {m count : Nat} (hmost : most = some m)
    (hcount : m ≤ itemsOn pages count) :
    exists asked, w.requests = w₀.requests ++ asked ∧ asked.length ≤ count := by
  cases h with
  | ended hunderway hbuffer hpage => exact hunderway.exists_asked_le hmost hcount
  | spent hstanding hall hbuffer hpage hspent =>
    have hroom := (hready.room hstanding hpage).2 m hmost
    have hfew : itemsOn pages count ≤ (pages.flatMap (·.data)).length :=
      length_items_le (List.take_prefix count pages)
    rw [hall, List.flatMap_map, ← hall] at hfew
    omega

theorem Over.exists_asked_eq (hready : begun.Ready none)
    (h : Over begun none pages w₀ handed listing w) (hends : ReachesEnd pages) :
    exists asked, w.requests = w₀.requests ++ asked ∧ asked.length = (walked 1 pages).length := by
  cases h with
  | @ended received hunderway hbuffer hpage =>
    rcases hready.exists_start hunderway.standing with ⟨size, hfollows, hposition⟩
    rcases hunderway.replies with ⟨left, rfl, _⟩
    rcases hunderway.asked with ⟨asked, hasked, hall⟩
    have hlength := hall.length_eq
    rw [List.length_map] at hlength
    rw [hposition] at hpage
    refine ⟨asked, hasked, ?_⟩
    rw [Paginator.walked_of_ended hfollows hpage, List.length_map, hlength]
  | spent hstanding hall hbuffer hpage hspent =>
    rw [hall] at hends
    exact absurd hends (hready.not_reachesEnd hstanding hpage)

/-!
## Laziness
-/

/-- So many steps of a listing whose server has just these pages to give. -/
structure Lazy (begun : Listing α) (most : Option Nat) (pages : List (Page α)) (w : World Script)
    (n : Nat) : Prop where
  /-- First the items of the pages on the way, up to the limit, and then the end. -/
  results : exists rest, (begun.nexts n w).1 =
      ((upTo most (itemsWalked pages)).take n).map (fun item => .ok (some item)) ++ rest ∧
    forall result, result ∈ rest -> IsLast pages result
  total : forall m, most = some m -> min m (itemsWalked pages).length ≤ n ->
    (handedOut (begun.nexts n w).1).length = min m (itemsWalked pages).length
  /-- As many requests as there are pages that together hold the items, one for each of them. -/
  needed : (forall result, result ∈ (begun.nexts n w).1 -> exists item, result = .ok (some item)) ->
    exists asked, (begun.nexts n w).2.2.requests = w.requests ++ asked ∧
      IsLeast {count | n ≤ itemsOn pages count} asked.length ∧
      List.Forall₂ begun.Asks (List.range' 1 asked.length) asked
  /-- No request behind the page that fills the listing. -/
  limited : forall m count, most = some m -> m ≤ itemsOn pages count ->
    exists asked, (begun.nexts n w).2.2.requests = w.requests ++ asked ∧ asked.length ≤ count
  unlimited : most = none -> ReachesEnd pages -> (itemsWalked pages).length < n ->
    exists asked, (begun.nexts n w).2.2.requests = w.requests ++ asked ∧
      asked.length = (walked 1 pages).length
  nothing : most = some 0 -> begun.nexts n w = (.replicate n (.ok none), begun, w)

/-- A listing asks for no page before it is needed and hands out exactly what was asked for. -/
theorem listing_is_lazy {client : Client} {request : Request} {options : ListOptions}
    {address : Url} (hbegun : Listing.start client request options = .ok begun)
    (haddress : begun.request.url begun.client.root = .ok address)
    (hundisturbed : w.Undisturbed begun.client.cancel)
    (hreplies : List.Forall₂ begun.client.Supplies w.transport.replies pages) (n : Nat) :
    Lazy begun options.maxResults pages w n := by
  rcases start_cases hbegun with ⟨hbuffer, size, hpaginator⟩
  have hready : begun.Ready options.maxResults := ⟨hbuffer, ⟨size, hpaginator⟩, ⟨address, haddress⟩⟩
  have hstart : Underway begun options.maxResults pages w [] [] begun w := by
    refine ⟨⟨rfl, rfl, rfl, (List.append_nil _).symm, trivial⟩, hundisturbed,
      ⟨pages, rfl, hreplies⟩, ⟨[], (List.append_nil _).symm, .nil⟩, lastIsNeeded_zero _ _, ?_⟩
    exact fun m _ => lastIsNeeded_zero pages m
  have hresults := hready.exists_results hstart n
  have hlength := length_nexts begun n w
  have hnexts := hstart.nexts hready (lastIsNeeded_zero pages 0) n
  constructor
  · exact hresults
  · intro m hmost hn
    rcases hresults with ⟨rest, heq, hends⟩
    rw [heq, handedOut_append, handedOut_items, handedOut_of_isLast hends, List.append_nil,
      List.length_take, hmost]
    show min n (List.take m _).length = _
    rw [List.length_take, Nat.min_eq_right hn]
  · intro hitem
    rcases hnexts with ⟨items, received, hitems, hunderway, hneeded⟩ |
      ⟨items, last, rest, hitems, hends, _⟩
    · have hasked := hunderway.exists_asked_isLeast hready hneeded
      rw [hitems, List.length_map] at hlength
      rw [List.nil_append, hlength] at hasked
      exact hasked
    · rcases hitem last (by rw [hitems]; simp) with ⟨item, hlast⟩
      exact absurd hlast ((hends last List.mem_cons_self).ne_item item)
  · intro m count hmost hcount
    rcases hnexts with ⟨items, received, _, hunderway, _⟩ | ⟨items, last, rest, _, _, hover⟩
    · exact hunderway.exists_asked_le hmost hcount
    · exact hover.exists_asked_le hready hmost hcount
  · intro hmost hends hn
    rw [hmost] at hready hnexts
    rcases hnexts with ⟨items, received, hitems, hunderway, _⟩ | ⟨items, last, rest, _, _, hover⟩
    · -- So many items there are not.
      have hle := (hunderway.handed_first hready).length_le
      rw [hitems, List.length_map] at hlength
      rw [List.nil_append, hlength] at hle
      exact absurd hle (Nat.not_le_of_lt hn)
    · exact hover.exists_asked_eq hready hends
  · intro hmost
    apply nexts_of_ended hbuffer
    rw [hpaginator, hmost]
    rfl

end Listing

namespace Sample

theorem supplies_of_value? {response : HttpResponse} {data : Page UInt64}
    (h : response.value? = some data) :
    begun.client.Supplies (reply 3 (some (.ok response))) data := by
  have htime : (Duration.ofMillis 3).ticks ≤ (Duration.ofMillis 100).ticks := by decide
  refine ⟨decide_eq_true htime, rfl, ?_, response, rfl, h⟩
  intro token htoken
  cases htoken

def manyReplies : List Reply :=
  [reply 3 (some (.ok (listed [7] 1 2))), reply 3 (some (.ok (listed [] 2 4))),
    reply 3 (some (.ok (listed [8, 9, 10] 3 4))), reply 3 (some (.ok (listed [11] 4 4)))]

def manyPages : List (Page UInt64) :=
  [⟨[7], 1, 2, 0⟩, ⟨[], 2, 4, 0⟩, ⟨[8, 9, 10], 3, 4, 0⟩, ⟨[11], 4, 4, 0⟩]

theorem second_item_needs_three_pages :
    Listing.Lazy begun (some 3) manyPages (world manyReplies) 2 ∧
      (begun.nexts 2 (world manyReplies)).1 = [.ok (some 7), .ok (some 8)] := by
  have hbegun : Listing.start { client with strategy := .never } request
      ⟨some 25, some 3, none⟩ = .ok begun := rfl
  have haddress : begun.request.url begun.client.root =
      .ok { root with path := .segments [['p']] } := by decide +kernel
  have hundisturbed : (world manyReplies).Undisturbed begun.client.cancel :=
    ⟨rfl, by intro entry hentry; cases hentry⟩
  have hreplies : List.Forall₂ begun.client.Supplies manyReplies manyPages :=
    .cons (supplies_of_value? (by decide +kernel)) <|
    .cons (supplies_of_value? (by decide +kernel)) <|
    .cons (supplies_of_value? (by decide +kernel)) <|
    .cons (supplies_of_value? (by decide +kernel)) .nil
  exact ⟨Listing.listing_is_lazy hbegun haddress hundisturbed hreplies 2, by decide +kernel⟩

end Sample
end RestClient
