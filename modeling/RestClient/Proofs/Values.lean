import RestClient.Proofs.Records

/-!
# Decoding any value

The decoder of plain values makes a value of every form that does not open too many brackets: of a
list the values of its items, of an object the values of its members under their names.
-/

namespace RestClient
namespace Json

open Reader

variable {α : Type}

/-!
## Members
-/

def memberOf (decoder : Decoder α) (allowance : Nat) (member : Key × Form) :
    Option (String × α) :=
  member.1.name?.bind fun name => (valueOf decoder allowance member.2).map (name, ·)

theorem Yields.cons {a : α} {values : Option (List α)} {rest : List UInt8}
    {result : Except Failure (List α × List UInt8)} (h : Yields values rest result) :
    Yields ((some a).bind fun a => values.map (a :: ·)) rest
      (Reader.mapRead (a :: ·) result) := by
  cases values <;> exact h.mapRead (a :: ·)

theorem mapM_cons_eq {β : Type} (f : β -> Option α) (b : β) (rest : List β) :
    (b :: rest).mapM f = (f b).bind fun a => (rest.mapM f).map (a :: ·) := by
  rw [List.mapM_cons]
  cases f b with
  | none => rfl
  | some a => cases rest.mapM f <;> rfl

theorem reads_members {item : Decoder α} {allowance : Nat}
    (hitem : forall form, Reads item allowance form (valueOf item allowance form)) {first : Bool}
    {members : List (Key × Form)} {s : List UInt8} (h : Spells (.members first members) s)
    (rest : List UInt8) {fuel : Nat} (hfuel : members.length ≤ fuel) :
    Yields (members.mapM (memberOf item allowance)) rest
      (Reader.members (item allowance) fuel first (s ++ rest)) := by
  induction members generalizing first s fuel with
  | nil =>
    cases h with
    | closeObject _ hpad =>
      unfold Reader.members
      rw [nextKey_close first hpad]
      rfl
  | cons member members ih =>
    cases h with
    | @member _ pad space before after text s key form _ hpad hspace hbefore hafter hform h =>
      rcases fuel with - | fuel
      · cases hfuel
      · have hmore := ih h (Nat.le_of_succ_le_succ hfuel)
        have htext : pad ++ (separator first ++ (space ++ (byte '"' :: (key.raw ++ (byte '"' ::
            (before ++ (byte ':' :: (after ++ (text ++ s))))))))) ++ rest =
            pad ++ (separator first ++ (space ++ byte '"' :: (key.raw ++ byte '"' ::
              (before ++ byte ':' :: (after ++ (text ++ (s ++ rest))))))) := by
          simp
        have hkey := key.yields (before ++ byte ':' :: (after ++ (text ++ (s ++ rest))))
        have hread := hitem form hafter hform (h.delimits_members rest)
        unfold Reader.members
        rw [htext, nextKey_quote first hpad hspace, mapM_cons_eq]
        unfold memberOf
        cases hname : key.name? with
        | none =>
          rw [hname] at hkey
          rcases hkey with ⟨failure, hfailure⟩
          rw [hfailure]
          exact ⟨failure, rfl⟩
        | some name =>
          rw [hname] at hkey
          rw [hkey.eq_ok]
          dsimp only [mapRead, Option.bind_some]
          rw [colon_append hbefore]
          dsimp only
          cases hvalue : valueOf item allowance form with
          | none =>
            rw [hvalue] at hread
            rcases hread with ⟨failure, hfailure⟩
            rw [hfailure]
            exact ⟨failure, rfl⟩
          | some a =>
            rw [hvalue] at hread
            rw [hread.eq_ok]
            exact hmore.cons

/-!
## Values
-/

def Token.value? : Token -> Option Json
  | .null => some .null
  | .bool b => some (.bool b)
  | .number n => some (.number n)
  | .string text => some (.string text)
  | .list => none
  | .object => none

theorem reads_any_scalar (allowance : Nat) (scalar : Scalar) :
    exists value, Reads any allowance (.scalar scalar) value := by
  rcases exists_token scalar.isScalar with ⟨value, hne, hvalue⟩
  refine ⟨value.bind Token.value?, ?_⟩
  intro pad text rest hpad htext hrest
  cases htext
  have hread := hvalue rest hrest
  unfold any
  rw [token_append hpad]
  cases value with
  | none =>
    rcases hread with ⟨failure, hfailure⟩
    rw [hfailure]
    exact ⟨failure, rfl⟩
  | some t =>
    rw [hread.eq_ok]
    cases t with
    | list => exact absurd rfl (hne _ rfl).1
    | object => exact absurd rfl (hne _ rfl).2
    | _ => rfl

section Brackets

variable {allowance : Nat}
  (hany : forall form, Reads any allowance form (valueOf any allowance form))
include hany

theorem reads_any_list (items : List Form) :
    Reads any (allowance + 1) (.list items)
      ((items.mapM (valueOf any allowance)).map .array) := by
  intro pad text rest hpad htext hrest
  cases htext with
  | @list _ s hitems =>
    have hfuel : items.length ≤ (s ++ rest).length := by
      rw [List.length_append]
      exact Nat.le_add_right_of_le hitems.length_items_le
    have hread := reads_items hany hitems rest hfuel
    unfold any
    rw [token_append hpad]
    exact hread.mapRead Json.array

theorem reads_any_object (members : List (Key × Form)) :
    Reads any (allowance + 1) (.object members)
      ((members.mapM (memberOf any allowance)).map ofMembers) := by
  intro pad text rest hpad htext hrest
  cases htext with
  | @object _ s hmembers =>
    have hfuel : members.length ≤ (s ++ rest).length := by
      rw [List.length_append]
      exact Nat.le_add_right_of_le hmembers.length_members_le
    have hread := reads_members hany hmembers rest hfuel
    unfold any
    rw [token_append hpad]
    exact hread.mapRead ofMembers

end Brackets

theorem steady_any : Steady any := by
  intro allowance
  induction allowance with
  | zero =>
    intro form
    cases form with
    | scalar scalar => exact reads_any_scalar 0 scalar
    | list items =>
      refine ⟨none, ?_⟩
      intro pad text rest hpad htext hrest
      cases htext
      unfold any
      rw [token_append hpad]
      exact ⟨_, rfl⟩
    | object members =>
      refine ⟨none, ?_⟩
      intro pad text rest hpad htext hrest
      cases htext
      unfold any
      rw [token_append hpad]
      exact ⟨_, rfl⟩
  | succ allowance ih =>
    have hany : forall form, Reads any allowance form (valueOf any allowance form) := by
      intro form
      rcases ih form with ⟨value, hvalue⟩
      rw [hvalue.valueOf_eq]
      exact hvalue
    intro form
    cases form with
    | scalar scalar => exact reads_any_scalar (allowance + 1) scalar
    | list items => exact ⟨_, reads_any_list hany items⟩
    | object members => exact ⟨_, reads_any_object hany members⟩

theorem valueOf_any_object (allowance : Nat) (members : List (Key × Form)) :
    valueOf any (allowance + 1) (.object members) =
      (members.mapM (memberOf any allowance)).map ofMembers :=
  (reads_any_object (steady_any.reads allowance) members).valueOf_eq

end Json
end RestClient
