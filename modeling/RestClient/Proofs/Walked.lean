import RestClient.Proofs.Streaming
import Mathlib.Data.List.Infix

/-!
# Pages on the way

The pages that a listing goes through if nothing limits the number of its items, and where it stands
among them as long as it goes on and in the end.
-/

namespace RestClient

variable {α : Type}

def itemsOn (pages : List (Page α)) (count : Nat) : Nat :=
  ((pages.take count).flatMap (·.data)).length

theorem length_items_le {pages all : List (Page α)} (h : pages <+: all) :
    (pages.flatMap (·.data)).length ≤ (all.flatMap (·.data)).length := by
  rcases h with ⟨rest, rfl⟩
  rw [List.flatMap_append, List.length_append]
  exact Nat.le_add_right _ _

theorem itemsOn_mono (pages : List (Page α)) {fewer more : Nat} (h : fewer ≤ more) :
    itemsOn pages fewer ≤ itemsOn pages more :=
  length_items_le (List.take_prefix_take_left h)

/-- Of the first so many pages, the last one is needed for as many items. -/
def LastIsNeeded (pages : List (Page α)) (count items : Nat) : Prop :=
  forall fewer, fewer + 1 = count -> itemsOn pages fewer < items

theorem lastIsNeeded_zero (pages : List (Page α)) (items : Nat) : LastIsNeeded pages 0 items := by
  intro fewer hfewer
  cases hfewer

theorem LastIsNeeded.le {pages : List (Page α)} {count items other : Nat}
    (h : LastIsNeeded pages count items) (hother : items ≤ itemsOn pages other) :
    count ≤ other := by
  cases count with
  | zero => exact Nat.zero_le other
  | succ fewer =>
    by_contra hless
    have hmono : itemsOn pages other ≤ itemsOn pages fewer := itemsOn_mono pages (by omega)
    exact absurd (h fewer rfl) (Nat.not_lt_of_le (hother.trans hmono))

theorem upTo_append (most : Option Nat) (items more : List α) :
    upTo most items <+: upTo most (items ++ more) := by
  cases most with
  | none => exact List.prefix_append items more
  | some m => exact List.IsPrefix.take (List.prefix_append items more) m

/-- The pages that a listing without limit goes through: those up to the first one that announces
none behind it. -/
def walked : Nat -> List (Page α) -> List (Page α)
  | _, [] => []
  | number, page :: rest =>
    page :: if page.pages.toNat ≤ number then [] else walked (number + 1) rest

def itemsWalked (pages : List (Page α)) : List α := (walked 1 pages).flatMap (·.data)

/-- One of the pages announces none behind it. -/
def ReachesEnd (pages : List (Page α)) : Prop :=
  exists i page, pages[i]? = some page ∧ page.pages.toNat ≤ i + 1

namespace Paginator

variable {p : Paginator} {page first : UInt32} {received : List (UInt32 × Page α)}
  {size : UInt32} {most : Option Nat}

theorem pageSize_acceptAll (p : Paginator) (received : List (UInt32 × Page α)) :
    (p.acceptAll received).2.pageSize = p.pageSize := by
  induction received generalizing p with
  | nil => rfl
  | cons first rest ih => exact ih (p.accept first.1 first.2).2

theorem lt_pages_of_follows (h : p.Follows received)
    (hpage : (p.acceptAll received).2.nextPage = some page) :
    forall entry, entry ∈ received -> entry.1.toNat < entry.2.pages.toNat := by
  induction received generalizing p with
  | nil =>
    intro entry hentry
    cases hentry
  | cons first rest ih =>
    rcases h with ⟨_, hrest⟩
    intro entry hentry
    rcases List.mem_cons.mp hentry with rfl | hmem
    · cases rest with
      | nil => exact (Listing.lt_pages_of_nextPage hpage).1
      | cons second rest => exact (Listing.lt_pages_of_nextPage hrest.1).1
    · exact ih hrest hpage entry hmem

theorem not_reachesEnd_of_follows (h : (start size most).Follows received)
    (hpage : ((start size most).acceptAll received).2.nextPage = some page) :
    ¬ ReachesEnd (received.map (·.2)) := by
  rintro ⟨i, last, hlast, hend⟩
  rw [List.getElem?_map, Option.map_eq_some_iff] at hlast
  rcases hlast with ⟨entry, hentry, rfl⟩
  have hlt := lt_pages_of_follows h hpage entry (List.mem_of_getElem? hentry)
  have hnumber : (received.map (·.1.toNat))[i]? = some entry.1.toNat := by
    rw [List.getElem?_map, hentry]
    rfl
  rw [numbers_of_follows_start h, List.getElem?_range' (List.getElem?_eq_some_iff.mp hentry).1]
    at hnumber
  injection hnumber with hnumber
  omega

theorem walked_of_follows (h : p.Follows received) (hfirst : p.nextPage = some first)
    (left : List (Page α)) :
    exists tail, walked first.toNat (received.map (·.2) ++ left) = received.map (·.2) ++ tail ∧
      (left = [] -> tail = []) ∧
      forall last, last ∈ received.getLast? -> last.2.pages.toNat ≤ last.1.toNat -> tail = [] := by
  induction received generalizing p first with
  | nil =>
    refine ⟨walked first.toNat left, rfl, ?_, ?_⟩
    · rintro rfl
      rfl
    · intro last hlast
      cases hlast
  | cons entry rest ih =>
    rcases entry with ⟨number, page⟩
    rcases h with ⟨hnumber, hrest⟩
    have heq : some number = some first := hnumber.symm.trans hfirst
    injection heq with heq
    subst heq
    cases rest with
    | nil =>
      refine ⟨if page.pages.toNat ≤ number.toNat then [] else walked (number.toNat + 1) left,
        rfl, ?_, ?_⟩
      · rintro rfl
        exact ite_self []
      · intro last hlast hend
        cases hlast
        exact if_pos hend
    | cons second rest =>
      have hmore := (Listing.lt_pages_of_nextPage hrest.1).1
      rcases ih hrest hrest.1 with ⟨tail, htail, hleft, hlast⟩
      rw [Listing.nextPage_accept hrest.1] at htail
      refine ⟨tail, ?_, hleft, hlast⟩
      rw [List.map_cons, List.cons_append, walked, if_neg (Nat.not_le_of_lt hmore), htail]
      rfl

theorem walked_of_follows_start (h : (start size most).Follows received) (left : List (Page α)) :
    exists tail, walked 1 (received.map (·.2) ++ left) = received.map (·.2) ++ tail ∧
      (left = [] -> tail = []) ∧
      forall last, last ∈ received.getLast? -> last.2.pages.toNat ≤ last.1.toNat -> tail = [] := by
  cases received with
  | nil =>
    refine ⟨walked 1 left, rfl, ?_, ?_⟩
    · rintro rfl
      rfl
    · intro last hlast
      cases hlast
  | cons first rest =>
    have hone := nextPage_start h.1
    have hwalked := walked_of_follows h h.1 left
    rw [hone] at hwalked
    exact hwalked

theorem lt_most_of_nextPage
    (h : ((start size most).acceptAll received).2.nextPage = some page) {m : Nat}
    (hmost : most = some m) : (received.flatMap (·.2.data)).length < m := by
  subst hmost
  rcases List.eq_nil_or_concat' received with rfl | ⟨before, last, rfl⟩
  · have hstart : (if some m = some 0 then none else some 1) = some page := h
    rw [Option.ite_none_left_eq_some] at hstart
    exact Nat.pos_of_ne_zero fun hzero => hstart.1 (congrArg some hzero)
  · rw [nextPage_concat, Option.ite_none_left_eq_some, Bool.or_eq_true, not_or] at h
    have hroom : ¬ m ≤ (List.take m ((before ++ [last]).flatMap (·.2.data))).length := by
      intro hfull
      exact h.1.1 (decide_eq_true hfull)
    rw [List.length_take] at hroom
    omega

/-- A listing has ended when it has as many items as were asked for, or behind the last page. -/
theorem ended_cases (h : ((start size most).acceptAll received).2.nextPage = none) :
    (exists m, most = some m ∧ m ≤ (received.flatMap (·.2.data)).length) ∨
      exists last, last ∈ received.getLast? ∧ last.2.pages.toNat ≤ last.1.toNat := by
  rcases List.eq_nil_or_concat' received with rfl | ⟨before, last, rfl⟩
  · have hstart : (if most = some 0 then none else some (1 : UInt32)) = none := h
    by_cases hzero : most = some 0
    · exact Or.inl ⟨0, hzero, Nat.zero_le _⟩
    · rw [if_neg hzero] at hstart
      cases hstart
  · rw [nextPage_concat, ite_eq_left_iff] at h
    have hended := not_imp_comm.mp h (by simp)
    rw [Bool.or_eq_true] at hended
    rcases hended with hfull | hlast
    · cases most with
      | none => cases hfull
      | some m =>
        refine Or.inl ⟨m, rfl, ?_⟩
        have hle : m ≤ (List.take m ((before ++ [last]).flatMap (·.2.data))).length :=
          decide_eq_true_eq.mp hfull
        rw [List.length_take] at hle
        omega
    · refine Or.inr ⟨last, by simp, ?_⟩
      simpa [UInt32.le_iff_toNat_le] using hlast

theorem upTo_itemsWalked_of_ended (h : (start size most).Follows received)
    (hended : ((start size most).acceptAll received).2.nextPage = none) (left : List (Page α)) :
    upTo most (itemsWalked (received.map (·.2) ++ left)) =
      upTo most (received.flatMap (·.2.data)) := by
  rcases walked_of_follows_start h left with ⟨tail, hwalked, _, hlast⟩
  unfold itemsWalked
  rw [hwalked, List.flatMap_append, List.flatMap_map]
  rcases ended_cases hended with ⟨m, rfl, hfull⟩ | ⟨last, hmem, hend⟩
  · exact List.take_append_of_le_length hfull
  · rw [hlast last hmem hend, List.flatMap_nil, List.append_nil]

theorem walked_of_ended (h : (start size none).Follows received)
    (hended : ((start size none).acceptAll received).2.nextPage = none) (left : List (Page α)) :
    walked 1 (received.map (·.2) ++ left) = received.map (·.2) := by
  rcases walked_of_follows_start h left with ⟨tail, hwalked, _, hlast⟩
  rcases ended_cases hended with ⟨m, hnone, _⟩ | ⟨last, hmem, hend⟩
  · cases hnone
  · rw [hwalked, hlast last hmem hend, List.append_nil]

end Paginator

end RestClient
