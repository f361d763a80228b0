import RestClient.Proofs.Collecting

/-!
# Taking pages in

What a paginator hands out of a sequence of pages, and where it stands behind them.  The items are
those of the pages in their order, cut at the most that were asked for, and the pages are asked for
by consecutive numbers.
-/

namespace RestClient

variable {α : Type}

/-- The first items of a list, at most as many as are wanted. -/
def upTo (most : Option Nat) (items : List α) : List α :=
  match most with
  | some most => items.take most
  | none => items

namespace Paginator

variable {p : Paginator} {page first : UInt32} {received : List (UInt32 × Page α)}

theorem admitted_start (size : UInt32) (most : Option Nat) (items : List α) :
    (start size most).admitted items = upTo most items := by
  cases most with
  | none => rfl
  | some most => rfl

theorem admitted_append (p : Paginator) (requested : UInt32) (page : Page α) (rest : List α) :
    p.admitted (page.data ++ rest) =
      (p.accept requested page).1 ++ (p.accept requested page).2.admitted rest := by
  unfold accept admitted
  cases p.maxResults with
  | none => rfl
  | some most =>
    dsimp only
    rw [List.take_append, List.length_take]
    congr 2
    omega

def acceptAll (p : Paginator) : List (UInt32 × Page α) -> List α × Paginator
  | [] => ([], p)
  | (requested, page) :: rest =>
    let (items, p) := p.accept requested page
    let (more, p) := acceptAll p rest
    (items ++ more, p)

theorem acceptAll_append (p : Paginator) (received more : List (UInt32 × Page α)) :
    p.acceptAll (received ++ more) =
      ((p.acceptAll received).1 ++ ((p.acceptAll received).2.acceptAll more).1,
        ((p.acceptAll received).2.acceptAll more).2) := by
  induction received generalizing p with
  | nil => rfl
  | cons first rest ih =>
    show ((p.accept first.1 first.2).1 ++
        ((p.accept first.1 first.2).2.acceptAll (rest ++ more)).1,
      ((p.accept first.1 first.2).2.acceptAll (rest ++ more)).2) = _
    rw [ih, ← List.append_assoc]
    rfl

theorem maxResults_acceptAll (p : Paginator) (received : List (UInt32 × Page α)) :
    (p.acceptAll received).2.maxResults = p.maxResults := by
  induction received generalizing p with
  | nil => rfl
  | cons first rest ih => exact ih (p.accept first.1 first.2).2

theorem yielded_acceptAll (p : Paginator) (received : List (UInt32 × Page α)) :
    (p.acceptAll received).2.yielded = p.yielded + (p.acceptAll received).1.length := by
  induction received generalizing p with
  | nil => rfl
  | cons first rest ih =>
    have hrest := ih (p.accept first.1 first.2).2
    rw [yielded_accept, Nat.add_assoc, ← List.length_append] at hrest
    exact hrest

/-- Cutting page by page is cutting all of the items at once. -/
theorem items_acceptAll (p : Paginator) (received : List (UInt32 × Page α)) :
    (p.acceptAll received).1 = p.admitted (received.flatMap (·.2.data)) := by
  induction received generalizing p with
  | nil =>
    unfold admitted
    cases p.maxResults with
    | none => rfl
    | some most => exact List.take_nil.symm
  | cons first rest ih =>
    rw [List.flatMap_cons, admitted_append p first.1, ← ih]
    rfl

/-!
## Page numbers
-/

/-- Every page was asked for when it was the next one. -/
def Follows (p : Paginator) : List (UInt32 × Page α) -> Prop
  | [] => True
  | (requested, page) :: rest =>
    p.nextPage = some requested ∧ (p.accept requested page).2.Follows rest

theorem follows_append {more : List (UInt32 × Page α)} :
    p.Follows (received ++ more) <->
      p.Follows received ∧ (p.acceptAll received).2.Follows more := by
  induction received generalizing p with
  | nil =>
    show p.Follows more <-> True ∧ p.Follows more
    rw [true_and]
  | cons first rest ih =>
    show (p.nextPage = some first.1 ∧ (p.accept first.1 first.2).2.Follows (rest ++ more)) <-> _
    rw [ih, ← and_assoc]
    rfl

theorem numbers_of_follows (h : p.Follows received) (hfirst : p.nextPage = some first) :
    received.map (·.1.toNat) = List.range' first.toNat received.length ∧
      forall following, (p.acceptAll received).2.nextPage = some following ->
        following.toNat = first.toNat + received.length := by
  induction received generalizing p first with
  | nil =>
    refine ⟨rfl, ?_⟩
    intro following hfollowing
    have heq : some first = some following := hfirst.symm.trans hfollowing
    injection heq with heq
    rw [heq]
    rfl
  | cons received rest ih =>
    rcases received with ⟨requested, page⟩
    rcases h with ⟨hrequested, hrest⟩
    have heq : some requested = some first := hrequested.symm.trans hfirst
    injection heq with heq
    subst heq
    cases hnext : (p.accept requested page).2.nextPage with
    | none =>
      -- Nothing can follow a page behind which the listing has ended.
      have hnil : rest = [] := by
        cases rest with
        | nil => rfl
        | cons second _ =>
          rw [hrest.1] at hnext
          cases hnext
      subst hnil
      refine ⟨rfl, ?_⟩
      intro following hfollowing
      have hended : (p.accept requested page).2.nextPage = some following := hfollowing
      rw [hnext] at hended
      cases hended
    | some second =>
      have hsecond := Listing.nextPage_accept hnext
      rcases ih hrest hnext with ⟨hnumbers, hlast⟩
      constructor
      · rw [List.map_cons, hnumbers, hsecond]
        rfl
      · intro following hfollowing
        rw [hlast following hfollowing, hsecond, List.length_cons]
        omega

theorem nextPage_concat (size : UInt32) (most : Option Nat) (received : List (UInt32 × Page α))
    (page : UInt32) (last : Page α) :
    ((start size most).acceptAll (received ++ [(page, last)])).2.nextPage =
      if isFull most (upTo most ((received ++ [(page, last)]).flatMap (·.2.data))).length ||
          last.pages ≤ page then none
      else some (page + 1) := by
  have hyielded := yielded_acceptAll (start size most) (received ++ [(page, last)])
  rw [items_acceptAll, admitted_start] at hyielded
  have hcount : (upTo most ((received ++ [(page, last)]).flatMap (·.2.data))).length =
      (((start size most).acceptAll received).2.accept page last).2.yielded := by
    rw [acceptAll_append] at hyielded
    exact (hyielded.trans (Nat.zero_add _)).symm
  have hmost : ((start size most).acceptAll received).2.maxResults = most :=
    maxResults_acceptAll _ received
  rw [hcount, acceptAll_append]
  show (if isFull ((start size most).acceptAll received).2.maxResults _ || last.pages ≤ page
    then none else some (page + 1)) = _
  rw [hmost]
  rfl

theorem nextPage_start {size : UInt32} {most : Option Nat}
    (h : (start size most).nextPage = some page) : page = 1 := by
  have hstart : (if most = some 0 then none else some 1) = some page := h
  rw [Option.ite_none_left_eq_some] at hstart
  injection hstart.2 with hone
  exact hone.symm

theorem numbers_of_follows_start {size : UInt32} {most : Option Nat}
    (h : (start size most).Follows received) :
    received.map (·.1.toNat) = List.range' 1 received.length := by
  cases received with
  | nil => rfl
  | cons first rest =>
    have hone := nextPage_start h.1
    have hnumbers := (numbers_of_follows h h.1).1
    rw [hone] at hnumbers
    exact hnumbers

theorem nextNumber_of_follows_start {size : UInt32} {most : Option Nat}
    (h : (start size most).Follows received)
    (hpage : ((start size most).acceptAll received).2.nextPage = some page) :
    page.toNat = received.length + 1 := by
  cases received with
  | nil =>
    rw [nextPage_start hpage]
    rfl
  | cons first rest =>
    have hone := nextPage_start h.1
    have hnext := (numbers_of_follows h h.1).2 page hpage
    rw [hone] at hnext
    rw [hnext]
    exact Nat.add_comm 1 _

end Paginator
end RestClient
