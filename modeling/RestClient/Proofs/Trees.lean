import RestClient.Proofs.WholeNumbers

/-!
# Values as trees

A value is written and read back as it was, however deep its lists and objects are nested within
what a decoder accepts, as long as its numbers are whole.
-/

namespace RestClient
namespace Json

variable {value inner : Json} {items : List Json} {members : List (String × Json)}
  {depth : Nat}

/-!
## Values inside values
-/

/-- The second value is the first one or stands somewhere inside it. -/
inductive Inside : Json -> Json -> Prop where
  | self (value : Json) : Inside value value
  | item {items : List Json} {item inner : Json} (hmem : item ∈ items) (h : Inside item inner) :
      Inside (.array items) inner
  | member {members : List (String × Json)} {m : String × Json} {inner : Json}
      (hmem : m ∈ members) (h : Inside m.2 inner) : Inside (.object members) inner

/-- So many brackets around one another suffice for the value. -/
inductive NestsWithin : Nat -> Json -> Prop where
  | null (depth : Nat) : NestsWithin depth .null
  | bool (depth : Nat) (b : Bool) : NestsWithin depth (.bool b)
  | number (depth : Nat) (n : Number) : NestsWithin depth (.number n)
  | string (depth : Nat) (text : String) : NestsWithin depth (.string text)
  | array {depth : Nat} {items : List Json}
      (h : forall item, item ∈ items -> NestsWithin depth item) :
      NestsWithin (depth + 1) (.array items)
  | object {depth : Nat} {members : List (String × Json)}
      (h : forall m, m ∈ members -> NestsWithin depth m.2) :
      NestsWithin (depth + 1) (.object members)

def HasWholeNumbers (value : Json) : Prop :=
  forall n, Inside value (.number n) -> exists k, n = .integer k ∧ IsWord k

/-- The objects inside the value hold each key once, in the order of the keys, as all objects do
that are made as plain values. -/
def IsOrdered (value : Json) : Prop :=
  forall members, Inside value (.object members) -> members.Pairwise fun m m' => m.1 < m'.1

/-- What holds of a list as soon as it holds of its items, and of an object as soon as it holds of
the values of its members, holds of all values if it holds of the others. -/
theorem tree_induction {motive : Json -> Prop} (null : motive .null)
    (bool : forall b, motive (.bool b)) (number : forall n, motive (.number n))
    (string : forall text, motive (.string text))
    (array : forall items, (forall item, item ∈ items -> motive item) -> motive (.array items))
    (object : forall members, (forall m, m ∈ members -> motive m.2) -> motive (.object members))
    (value : Json) : motive value :=
  @Json.rec motive (fun items => forall item, item ∈ items -> motive item)
    (fun members => forall m, m ∈ members -> motive m.2) (fun m => motive m.2)
    null bool number string array object
    (fun _ h => absurd h List.not_mem_nil)
    (fun _ _ hitem hitems => List.forall_mem_cons.mpr ⟨hitem, hitems⟩)
    (fun _ h => absurd h List.not_mem_nil)
    (fun _ _ hmember hmembers => List.forall_mem_cons.mpr ⟨hmember, hmembers⟩)
    (fun _ _ h => h) value

/-!
## Objects in order
-/

theorem insertMember_last {key : String} (h : forall m, m ∈ members -> m.1 < key) (value : Json) :
    insertMember key value members = members ++ [(key, value)] := by
  induction members with
  | nil => rfl
  | cons m rest ih =>
    rcases m with ⟨other, otherValue⟩
    rcases List.forall_mem_cons.mp h with ⟨hother, hrest⟩
    have hnot : ¬ key < other := String.lt_asymm hother
    have hne : ¬ key = other := by
      rintro rfl
      exact String.lt_irrefl key hother
    rw [insertMember, if_neg hnot, if_neg hne, ih hrest, List.cons_append]

theorem ofMembers_of_pairwise (h : members.Pairwise fun m m' => m.1 < m'.1) :
    ofMembers members = .object members := by
  have hfold : forall sorted rest : List (String × Json),
      (sorted ++ rest).Pairwise (fun m m' => m.1 < m'.1) ->
      rest.foldl (fun sorted m => insertMember m.1 m.2 sorted) sorted = sorted ++ rest := by
    intro sorted rest
    induction rest generalizing sorted with
    | nil => simp
    | cons m rest ih =>
      intro hpairwise
      have hbefore : forall other, other ∈ sorted -> other.1 < m.1 := by
        intro other hother
        exact (List.pairwise_append.mp hpairwise).2.2 other hother m List.mem_cons_self
      rw [List.foldl_cons, insertMember_last hbefore]
      rw [List.append_cons] at hpairwise
      exact (ih _ hpairwise).trans (List.append_cons sorted m rest).symm
  exact congrArg Json.object (hfold [] members h)

/-!
## Round trips
-/

theorem exists_forall₂ {α β : Type} {R : α -> β -> Prop} {l : List α}
    (h : forall a, a ∈ l -> exists b, R a b) :
    exists l', List.Forall₂ R l l' := by
  induction l with
  | nil => exact ⟨[], .nil⟩
  | cons a l ih =>
    rcases List.forall_mem_cons.mp h with ⟨⟨b, hb⟩, hrest⟩
    rcases ih hrest with ⟨l', hl'⟩
    exact ⟨b :: l', .cons hb hl'⟩

theorem carries_any_null : Carries any 0 .null .null (.scalar ⟨nullText, .null⟩) where
  text_eq := rfl
  valueOf_eq {allowance} _ := valueOf_any (t := .null) (by decide) rfl allowance

theorem carries_any_array {forms : List Form}
    (h : List.Forall₂ (fun item form => Carries any depth item item form) items forms) :
    Carries any (depth + 1) (.array items) (.array items) (.list forms) where
  text_eq := text_list (h.imp fun _ _ hitem => hitem.text_eq)
  valueOf_eq {allowance} hdepth := by
    rcases allowance with - | allowance
    · cases hdepth
    · have hvalues : forms.mapM (valueOf any allowance) = some items := by
        induction h with
        | nil => rfl
        | cons hitem _ ih =>
          rw [mapM_cons_eq, hitem.valueOf_eq (Nat.le_of_succ_le_succ hdepth), ih]
          rfl
      rw [(reads_any_list (steady_any.reads allowance) forms).valueOf_eq, hvalues]
      rfl

theorem NestsWithin.exists_carries (h : NestsWithin depth value) (hwhole : value.HasWholeNumbers)
    (hordered : value.IsOrdered) : exists form, Carries any depth value value form := by
  induction h with
  | null depth => exact ⟨_, carries_any_null.mono (Nat.zero_le depth)⟩
  | bool depth b => exact ⟨_, (carries_any_bool b).mono (Nat.zero_le depth)⟩
  | number depth n =>
    rcases hwhole n (.self _) with ⟨k, rfl, hk⟩
    exact ⟨_, (carries_any_integer hk).mono (Nat.zero_le depth)⟩
  | string depth text => exact ⟨_, (carries_any_string text).mono (Nat.zero_le depth)⟩
  | array h ih =>
    have hforms := exists_forall₂ fun item hitem => ih item hitem
      (fun n hn => hwhole n (.item hitem hn)) fun members hm => hordered members (.item hitem hm)
    rcases hforms with ⟨forms, hforms⟩
    exact ⟨_, carries_any_array hforms⟩
  | @object depth members h ih =>
    have hforms : exists forms, List.Forall₂ (CarriesMember depth) members forms := by
      apply exists_forall₂
      intro m hm
      rcases ih m hm (fun n hn => hwhole n (.member hm hn))
        (fun members hin => hordered members (.member hm hin)) with ⟨form, hform⟩
      exact ⟨(writtenKey m.1, form), rfl, hform⟩
    rcases hforms with ⟨forms, hforms⟩
    have hcarries := carries_any_object hforms
    rw [ofMembers_of_pairwise (hordered members (.self _))] at hcarries
    exact ⟨_, hcarries⟩

theorem NestsWithin.decode_eq (h : NestsWithin nesting value) (hwhole : value.HasWholeNumbers)
    (hordered : value.IsOrdered) : decode value.toBytes = .ok value := by
  rcases h.exists_carries hwhole hordered with ⟨form, hform⟩
  exact hform.decodeWith_eq steady_any (Nat.le_refl nesting)

end Json
end RestClient
