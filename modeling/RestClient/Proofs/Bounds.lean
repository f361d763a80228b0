import RestClient.Proofs.Streaming
import Mathlib.Data.List.Chain

/-!
# How far a listing goes

A listing asks for its pages one after another and believes each page that it is not the last one.
Whatever a server claims, page numbers are 32-bit words and grow, so that every step of a listing
comes to an end, and so does the listing.
-/

namespace RestClient

variable {σ α : Type}

/-- Pages that were asked for in turn, with the page to ask for behind them: from the first one on,
none of them left out or repeated, and none beyond those that the page before it announced. -/
structure InTurn (received : List (UInt32 × Page α)) (following : Option UInt32) : Prop where
  numbers : received.map (·.1.toNat) = List.range' 1 received.length
  announced : received.IsChain fun before after => after.1 ≤ before.2.pages
  following : forall page, page ∈ following ->
    page.toNat = received.length + 1 ∧ forall last, last ∈ received.getLast? -> page ≤ last.2.pages
  /-- At most as many pages as there are 32-bit words above zero. -/
  count : received.length < UInt32.size

namespace Paginator

variable {p : Paginator} {page following : UInt32} {received : List (UInt32 × Page α)}

theorem le_pages_of_nextPage {answer : Page α}
    (h : (p.accept page answer).2.nextPage = some following) : following ≤ answer.pages := by
  have hlt := (Listing.lt_pages_of_nextPage h).1
  have hnumber := Listing.nextPage_accept h
  rw [UInt32.le_iff_toNat_le, hnumber]
  exact hlt

theorem isChain_of_follows (h : p.Follows received) :
    received.IsChain fun before after => after.1 ≤ before.2.pages := by
  induction received generalizing p with
  | nil => exact .nil
  | cons first rest ih =>
    rcases h with ⟨_, hrest⟩
    cases rest with
    | nil => exact .singleton first
    | cons second rest => exact .cons_cons (le_pages_of_nextPage hrest.1) (ih hrest)

theorem le_pages_of_follows {last : UInt32 × Page α} (h : p.Follows received)
    (hpage : (p.acceptAll received).2.nextPage = some page) (hlast : last ∈ received.getLast?) :
    page ≤ last.2.pages := by
  have hmore : p.Follows (received ++ [(page, last.2)]) := by
    rw [follows_append]
    exact ⟨h, hpage, trivial⟩
  have hchain := isChain_of_follows hmore
  rw [List.isChain_append] at hchain
  exact hchain.2.2 last hlast (page, last.2) rfl

theorem length_lt_of_numbers (h : received.map (·.1.toNat) = List.range' 1 received.length) :
    received.length < UInt32.size := by
  rcases Nat.eq_zero_or_pos received.length with hzero | hpos
  · rw [hzero]
    decide
  · have hlast : received.length ∈ received.map (·.1.toNat) := by
      rw [h, List.mem_range'_1]
      omega
    rcases List.mem_map.mp hlast with ⟨entry, _, hentry⟩
    rw [← hentry]
    exact entry.1.toNat_lt_size

theorem inTurn_of_follows {size : UInt32} {most : Option Nat}
    (h : (start size most).Follows received) :
    InTurn received ((start size most).acceptAll received).2.nextPage := by
  have hnumbers := numbers_of_follows_start h
  constructor
  · exact hnumbers
  · exact isChain_of_follows h
  · intro page hpage
    constructor
    · exact nextNumber_of_follows_start h hpage
    · intro last hlast
      exact le_pages_of_follows h hpage hlast
  · exact length_lt_of_numbers hnumbers

end Paginator

namespace Listing

variable [Transport σ] [Json.Decode α] {listing reached begun : Listing α} {w : World σ}
  {received more : List (UInt32 × Page α)} {results : List (Except Halt (Option α))}
  {handed : List α}

/-- What collecting comes to, with the pages that are received in it and the listing behind the last
of them. -/
inductive Gathers : Listing α -> World σ -> List (UInt32 × Page α) -> Listing α ->
    Except Halt (List α) × World σ -> Prop where
  | ended {listing : Listing α} {w : World σ} (hpage : listing.paginator.nextPage = none) :
      Gathers listing w [] listing (.ok listing.buffer, w)
  | failed {listing : Listing α} {w w' : World σ} {page : UInt32} {halt : Halt}
      (hpage : listing.paginator.nextPage = some page)
      (hask : listing.ask page w = (.error halt, w')) :
      Gathers listing w [] listing (.error halt, w')
  | page {listing reached : Listing α} {w w' : World σ} {page : UInt32}
      {response : Response (Page α)} {received : List (UInt32 × Page α)}
      {answer : Except Halt (List α) × World σ} (hpage : listing.paginator.nextPage = some page)
      (hask : listing.ask page w = (.ok response, w'))
      (hrest : Gathers (listing.absorb page response.data)
        (w'.report (.fetched listing.request.path response.data.descriptor)) received reached
        answer) :
      Gathers listing w ((page, response.data) :: received) reached answer

theorem exists_gathers (listing : Listing α) (w : World σ) :
    exists received reached, listing.Gathers w received reached (listing.collect w) := by
  induction hleft : listing.pagesLeft using Nat.strongRecOn generalizing listing w with
  | ind left ih =>
    cases hpage : listing.paginator.nextPage with
    | none =>
      rw [collect_of_ended hpage]
      exact ⟨[], listing, .ended hpage⟩
    | some page =>
      rw [collect_of_page hpage]
      rcases hask : listing.ask page w with ⟨halt | response, w'⟩
      · rw [fetch_of_error hask]
        exact ⟨[], listing, .failed hpage hask⟩
      · have hfetch := fetch_of_ok hask
        have hless := pagesLeft_fetch hpage hfetch
        rcases ih _ (hleft ▸ hless) _ _ rfl with ⟨received, reached, hgathers⟩
        rw [hfetch]
        exact ⟨_, reached, .page hpage hask hgathers⟩

theorem Gathers.standing {answer : Except Halt (List α) × World σ}
    (h : listing.Gathers w more reached answer)
    (hstanding : Standing begun received handed listing) :
    Standing begun (received ++ more) handed reached := by
  induction h generalizing received with
  | ended _ | failed _ _ =>
    rw [List.append_nil]
    exact hstanding
  | page hpage _ _ ih =>
    have hrest := ih (hstanding.absorb hpage _)
    rw [List.append_assoc] at hrest
    exact hrest

omit [Transport σ] [Json.Decode α] in
theorem Standing.inTurn {client : Client} {request : Request} {options : ListOptions}
    (hbegun : Listing.start client request options = .ok begun)
    (h : Standing begun received handed listing) : InTurn received listing.paginator.nextPage := by
  rcases start_cases hbegun with ⟨_, size, hpaginator⟩
  have hfollows := h.follows
  rw [hpaginator] at hfollows
  rw [h.paginator, hpaginator]
  exact Paginator.inTurn_of_follows hfollows

omit [Transport σ] [Json.Decode α] in
theorem pagesLeft_le_size (listing : Listing α) : listing.pagesLeft ≤ UInt32.size := by
  unfold pagesLeft
  cases listing.paginator.nextPage with
  | none => exact Nat.zero_le _
  | some page => exact Nat.sub_le _ _

/-- However many pages a server claims to have, a listing that has received these ones and given
these results goes on in turn, and every operation on it comes to an end. -/
structure Bounded (σ : Type) [Transport σ] (begun : Listing α)
    (received : List (UInt32 × Page α)) (results : List (Except Halt (Option α)))
    (listing : Listing α) : Prop where
  inTurn : InTurn received listing.paginator.nextPage
  next : forall w : World σ, exists more, listing.Seeks w more (listing.next w) ∧
    InTurn (received ++ more) (listing.next w).2.1.paginator.nextPage ∧
    begun.Session σ (received ++ more) (results ++ [(listing.next w).1]) (listing.next w).2.1
  collect : forall w : World σ,
    exists more reached, listing.Gathers w more reached (listing.collect w) ∧
    InTurn (received ++ more) reached.paginator.nextPage
  /-- The steps that are allowed for suffice: more of them make no difference. -/
  enough : forall (w : World σ) (fuel : Nat), UInt32.size ≤ fuel ->
    nextWithin fuel listing w = listing.next w ∧ collectWithin fuel listing w = listing.collect w

/-- A listing ends against any server, and so does each of its steps. -/
theorem paging_ends_against_any_server {client : Client} {request : Request}
    {options : ListOptions} (hbegun : Listing.start client request options = .ok begun)
    (h : begun.Session σ received results listing) :
    Bounded σ begun received results listing := by
  constructor
  · exact h.standing.inTurn hbegun
  · intro w
    rcases exists_seeks listing w with ⟨more, hseeks⟩
    have hsession := h.step w hseeks
    exact ⟨more, hseeks, hsession.standing.inTurn hbegun, hsession⟩
  · intro w
    rcases exists_gathers listing w with ⟨more, reached, hgathers⟩
    have hreached := hgathers.standing h.standing
    exact ⟨more, reached, hgathers, hreached.inTurn hbegun⟩
  · intro w fuel hfuel
    have hleft := listing.pagesLeft_le_size
    constructor
    · exact nextWithin_congr (hleft.trans hfuel) (Nat.le_refl _) w
    · exact collectWithin_congr (hleft.trans hfuel) (Nat.le_refl _) w

end Listing

namespace Sample

def unlimited : Listing UInt64 := { begun with paginator := .start 25 none }

/-- Pages with false numbers that announce more and less of them, once as many as there can be. -/
def inconsistentReplies : List Reply :=
  [reply 3 (some (.ok (listed [] 9 3))), reply 3 (some (.ok (listed [] 0 4294967295))),
    reply 3 (some (.ok (listed [7] 1 1)))]

theorem step_ends_against_inconsistent_server :
    exists received listing, unlimited.Session Script received [.ok (some 7)] listing ∧
      Listing.Bounded Script unlimited received [.ok (some 7)] listing := by
  have hbegun : Listing.start { client with strategy := .never } request
      ⟨some 25, none, none⟩ = .ok unlimited := rfl
  have hresults : (unlimited.nexts 1 (world inconsistentReplies)).1 = [.ok (some 7)] := by
    decide +kernel
  have hnone : unlimited.Session Script [] [] unlimited := .begun
  rcases hnone.nexts 1 (world inconsistentReplies) with ⟨received, hsession⟩
  rw [hresults] at hsession
  exact ⟨received, _, hsession, Listing.paging_ends_against_any_server hbegun hsession⟩

end Sample
end RestClient
