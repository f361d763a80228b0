import RestClient.Proofs.Bounds

/-!
# Limits

A paginator keeps to its limit however it is used.  Pages may be taken in under any numbers, out of
order, again or behind the end, and may hold and announce whatever they like: each of them gives
its first items, all of them together no more than are wanted, and once there are as many nothing
more is handed out or asked for.
-/

namespace RestClient
namespace Paginator

variable {α : Type} {p : Paginator} {most : Option Nat} {limit : Nat}

/-!
## One page
-/

theorem admitted_isPrefix (p : Paginator) (items : List α) : p.admitted items <+: items := by
  unfold admitted
  cases p.maxResults with
  | none => exact List.prefix_rfl
  | some most => exact List.take_prefix _ _

/-- What every page that is taken in leaves as it is: the limit is the same, it is not exceeded, and
the listing has ended where it is reached. -/
structure Obeys (most : Option Nat) (p : Paginator) : Prop where
  maxResults : p.maxResults = most
  yielded_le : forall limit, limit ∈ most -> p.yielded ≤ limit
  ended : forall limit, limit ∈ most -> limit ≤ p.yielded -> p.nextPage = none

theorem obeys_start (size : UInt32) (most : Option Nat) : (start size most).Obeys most := by
  constructor
  · rfl
  · intro limit _
    exact Nat.zero_le limit
  · intro limit hlimit hreached
    have hzero : most = some 0 := by
      rw [Option.mem_def.mp hlimit, Nat.le_zero.mp hreached]
    exact if_pos hzero

theorem Obeys.accept (h : p.Obeys most) (page : UInt32) (answer : Page α) :
    (p.accept page answer).2.Obeys most := by
  constructor
  · exact h.maxResults
  · intro limit hlimit
    have hbefore := h.yielded_le limit hlimit
    have hmost := h.maxResults.trans hlimit
    rw [yielded_accept]
    have hroom : (p.admitted answer.data).length ≤ limit - p.yielded := by
      unfold admitted
      rw [hmost]
      exact List.length_take_le _ _
    show p.yielded + (p.admitted answer.data).length ≤ limit
    omega
  · intro limit hlimit hreached
    have hfull : isFull p.maxResults (p.yielded + (p.admitted answer.data).length) = true := by
      rw [h.maxResults, Option.mem_def.mp hlimit]
      exact decide_eq_true hreached
    show (if isFull p.maxResults _ || _ then none else some (page + 1)) = none
    rw [hfull, Bool.true_or, if_pos rfl]

theorem isFull_iff {yielded : Nat} :
    isFull most yielded = true <-> exists limit, limit ∈ most ∧ limit ≤ yielded := by
  unfold isFull
  cases most with
  | none => simp
  | some most => simp

theorem Obeys.isDone_accept_iff (h : p.Obeys most) (page : UInt32) (answer : Page α) :
    (p.accept page answer).2.isDone = true <->
      (exists limit, limit ∈ most ∧ limit ≤ (p.accept page answer).2.yielded) ∨
        answer.pages ≤ page := by
  have hends : (isFull p.maxResults (p.accept page answer).2.yielded ||
      decide (answer.pages ≤ page)) = true <->
        (exists limit, limit ∈ most ∧ limit ≤ (p.accept page answer).2.yielded) ∨
          answer.pages ≤ page := by
    rw [Bool.or_eq_true, decide_eq_true_iff, h.maxResults, isFull_iff]
  rw [← hends]
  show (if isFull p.maxResults _ || answer.pages ≤ page then none
    else some (page + 1)).isNone = true <-> _
  split
  · rename_i hended
    exact iff_of_true rfl hended
  · rename_i hgoes
    exact iff_of_false Bool.false_ne_true hgoes

theorem Obeys.admitted_eq_nil (h : p.Obeys most) (hlimit : limit ∈ most)
    (hreached : limit ≤ p.yielded) (items : List α) : p.admitted items = [] := by
  unfold admitted
  rw [h.maxResults.trans hlimit]
  dsimp only
  rw [Nat.sub_eq_zero_of_le hreached, List.take_zero]

/-!
## Any number of pages
-/

theorem Obeys.acceptAll (h : p.Obeys most) (received : List (UInt32 × Page α)) :
    (p.acceptAll received).2.Obeys most := by
  induction received generalizing p with
  | nil => exact h
  | cons first rest ih => exact ih (h.accept first.1 first.2)

/-- A paginator that has taken in these pages and handed out these items keeps to its limit. -/
structure Limited (most : Option Nat) (received : List (UInt32 × Page α)) (handed : List α)
    (p : Paginator) : Prop where
  yielded : p.yielded = handed.length
  yielded_le : forall limit, limit ∈ most -> p.yielded ≤ limit
  handed : handed = upTo most (received.flatMap fun entry => entry.2.data)
  /-- The next page gives its first items, whatever number it was asked for under. -/
  first : forall (page : UInt32) (answer : Page α), (p.accept page answer).1 <+: answer.data
  following : forall (page : UInt32) (answer : Page α) (following : UInt32),
    (p.accept page answer).2.nextPage = some following ->
      following.toNat = page.toNat + 1 ∧ following ≤ answer.pages
  done_iff : forall (page : UInt32) (answer : Page α), (p.accept page answer).2.isDone = true <->
    (exists limit, limit ∈ most ∧ limit ≤ (p.accept page answer).2.yielded) ∨ answer.pages ≤ page
  reached : forall limit, limit ∈ most -> limit ≤ p.yielded -> p.isDone = true ∧
    forall more : List (UInt32 × Page α),
      (p.acceptAll more).1 = [] ∧ (p.acceptAll more).2.isDone = true

theorem limit_holds_in_any_order (size : UInt32) (most : Option Nat)
    (received : List (UInt32 × Page α)) :
    Limited most received ((start size most).acceptAll received).1
      ((start size most).acceptAll received).2 := by
  have hobeys := (obeys_start size most).acceptAll received
  have hyielded := yielded_acceptAll (start size most) received
  constructor
  · exact hyielded.trans (Nat.zero_add _)
  · exact hobeys.yielded_le
  · rw [items_acceptAll, admitted_start]
  · intro page answer
    exact admitted_isPrefix _ answer.data
  · intro page answer following hfollowing
    exact ⟨Listing.nextPage_accept hfollowing, le_pages_of_nextPage hfollowing⟩
  · exact hobeys.isDone_accept_iff
  · intro limit hlimit hreached
    have hended := hobeys.ended limit hlimit hreached
    refine ⟨Option.isNone_iff_eq_none.mpr hended, ?_⟩
    intro more
    have hnothing : (((start size most).acceptAll received).2.acceptAll more).1 = [] := by
      rw [items_acceptAll]
      exact hobeys.admitted_eq_nil hlimit hreached _
    -- The count stays where it was, so that the limit is still reached behind those pages.
    have hstill : limit ≤ (((start size most).acceptAll received).2.acceptAll more).2.yielded := by
      rw [yielded_acceptAll, hnothing]
      exact hreached
    exact ⟨hnothing, Option.isNone_iff_eq_none.mpr
      ((hobeys.acceptAll more).ended limit hlimit hstill)⟩

/-- Pages under the greatest number and under zero, the second of which is cut. -/
example :
    ((start 25 (some 3)).acceptAll
      [(4294967295, ⟨['a', 'b'], 1, 4294967295, 0⟩), (0, ⟨['c', 'd'], 7, 9, 0⟩)]) =
        (['a', 'b', 'c'], ⟨25, some 3, none, 3⟩) := by
  decide

end Paginator
end RestClient
