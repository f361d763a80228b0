import RestClient.Proofs.Moves

/-!
# Collecting pages

A listing that has walked some of its pages collects what remains.  The number of the next page
only grows, so the listing never runs out of the steps it is given.
-/

namespace RestClient
namespace Listing

variable {σ α : Type} [Transport σ] [Json.Decode α] {listing next : Listing α} {page : UInt32}
  {w w' : World σ}

omit [Transport σ] [Json.Decode α] in
theorem lt_pages_of_nextPage {paginator : Paginator} {received : Page α} {following : UInt32}
    (h : (paginator.accept page received).2.nextPage = some following) :
    page.toNat < received.pages.toNat ∧ following = page + 1 := by
  have hnext : (if Paginator.isFull paginator.maxResults
      (paginator.yielded + (paginator.admitted received.data).length) || received.pages ≤ page
      then none else some (page + 1)) = some following := h
  rw [Option.ite_none_left_eq_some, Bool.or_eq_true, not_or] at hnext
  rcases hnext with ⟨⟨_, hmore⟩, hpage⟩
  injection hpage with hpage
  exact ⟨by simpa [UInt32.le_iff_toNat_le] using hmore, hpage.symm⟩

omit [Transport σ] [Json.Decode α] in
theorem nextPage_accept {paginator : Paginator} {received : Page α} {following : UInt32}
    (h : (paginator.accept page received).2.nextPage = some following) :
    following.toNat = page.toNat + 1 := by
  rcases lt_pages_of_nextPage h with ⟨hlt, rfl⟩
  have hbound := received.pages.toNat_lt
  rw [UInt32.toNat_add]
  exact Nat.mod_eq_of_lt (by simpa using Nat.lt_of_le_of_lt hlt hbound)

omit [Transport σ] [Json.Decode α] in
theorem pagesLeft_pos (hpage : listing.paginator.nextPage = some page) :
    0 < listing.pagesLeft := by
  have hbound := page.toNat_lt_size
  unfold pagesLeft
  rw [hpage]
  dsimp only
  omega

theorem pagesLeft_fetch (hpage : listing.paginator.nextPage = some page)
    (h : listing.fetch page w = (.ok next, w')) : next.pagesLeft < listing.pagesLeft := by
  rcases fetch_cases h with ⟨response, w₁, _, _, rfl⟩
  have hbound := page.toNat_lt_size
  unfold pagesLeft
  rw [hpage]
  dsimp only
  cases hfollowing : (listing.paginator.accept page response.data).2.nextPage with
  | none =>
    show 0 < UInt32.size - page.toNat
    omega
  | some following =>
    have hgrows := nextPage_accept hfollowing
    show UInt32.size - following.toNat < UInt32.size - page.toNat
    omega

/-- More steps than there are pages left make no difference. -/
theorem collectWithin_congr {fuel fuel' : Nat} (hfuel : listing.pagesLeft ≤ fuel)
    (hfuel' : listing.pagesLeft ≤ fuel') (w : World σ) :
    collectWithin fuel listing w = collectWithin fuel' listing w := by
  induction fuel generalizing fuel' listing w with
  | zero =>
    unfold collectWithin
    cases hpage : listing.paginator.nextPage with
    | none => rfl
    | some page =>
      have hleft := pagesLeft_pos hpage
      omega
  | succ fuel ih =>
    unfold collectWithin
    cases hpage : listing.paginator.nextPage with
    | none => rfl
    | some page =>
      have hleft := pagesLeft_pos hpage
      rcases fuel' with _ | fuel'
      · omega
      dsimp only
      rcases hfetch : listing.fetch page w with ⟨halt | next, w'⟩
      · rfl
      · have hless := pagesLeft_fetch hpage hfetch
        exact ih (by omega) (by omega) w'

theorem collect_of_ended (hpage : listing.paginator.nextPage = none) (w : World σ) :
    listing.collect w = (.ok listing.buffer, w) := by
  unfold collect collectWithin
  rw [hpage]

theorem collect_of_page (hpage : listing.paginator.nextPage = some page) (w : World σ) :
    listing.collect w =
      match listing.fetch page w with
      | (.error halt, w') => (.error halt, w')
      | (.ok next, w') => next.collect w' := by
  have hleft := pagesLeft_pos hpage
  rcases hfuel : listing.pagesLeft with _ | left
  · omega
  unfold collect
  rw [hfuel]
  conv => lhs; unfold collectWithin
  rw [hpage]
  dsimp only
  rcases hfetch : listing.fetch page w with ⟨halt | next, w'⟩
  · rfl
  · have hless := pagesLeft_fetch hpage hfetch
    exact collectWithin_congr (by omega) (Nat.le_refl _) w'

theorem collect_of_fetch (hpage : listing.paginator.nextPage = some page)
    (hfetch : listing.fetch page w = (.ok next, w')) : listing.collect w = next.collect w' := by
  rw [collect_of_page hpage, hfetch]

/-!
## Walking
-/

/-- The listing has walked some of its pages. -/
inductive Walks (listing : Listing α) (w : World σ) : Listing α -> World σ -> Prop where
  | start : Walks listing w listing w
  | page {reached next : Listing α} {w₁ w₂ : World σ} {page : UInt32}
      (hbefore : Walks listing w reached w₁) (hpage : reached.paginator.nextPage = some page)
      (hfetch : reached.fetch page w₁ = (.ok next, w₂)) : Walks listing w next w₂

theorem Walks.collect_eq (h : Walks listing w next w') : listing.collect w = next.collect w' := by
  induction h with
  | start => rfl
  | page _ hpage hfetch ih => exact ih.trans (collect_of_fetch hpage hfetch)

theorem Walks.same (h : Walks listing w next w') :
    next.client = listing.client ∧ next.request = listing.request ∧
      next.paginator.pageSize = listing.paginator.pageSize := by
  induction h with
  | start => exact ⟨rfl, rfl, rfl⟩
  | page _ _ hfetch ih =>
    rcases fetch_cases hfetch with ⟨response, _, _, _, rfl⟩
    exact ih

end Listing
end RestClient
