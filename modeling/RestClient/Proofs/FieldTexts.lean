import RestClient.Proofs.Trees

/-!
# Compact text in header fields

The compact text of a value escapes every character that a header field must not hold, but for the
last one of ASCII.  It can be sent in a field if no string and no key inside the value has that one.
-/

namespace RestClient
namespace Json

open Header (isValueChar)

variable {value : Json}

/-!
## Characters of compact text
-/

theorem all_separated {p : Char -> Bool} (h : p ',' = true) (parts : List (List Char)) :
    (separated parts).all p = parts.all (·.all p) := by
  cases parts with
  | nil => rfl
  | cons part parts =>
    rw [separated_cons, List.all_append, List.all_flatMap, List.all_cons]
    simp [h]

/-- All characters are escaped that a field must not hold, but for the last one of ASCII. -/
theorem all_escapeChar (c : Char) : (escapeChar c).all isValueChar = (c != '\x7f') := by
  by_cases hascii : c.toNat < 128
  · have hall : forall n, n < 128 -> (escapeChar (Char.ofNat n)).all isValueChar =
        (Char.ofNat n != '\x7f') := by
      decide +kernel
    have hcode := hall c.toNat hascii
    rw [Char.ofNat_toNat] at hcode
    exact hcode
  · have hlettered : c ∉ lettered := by
      intro hmem
      unfold lettered at hmem
      simp only [List.mem_cons, List.not_mem_nil, or_false] at hmem
      rcases hmem with rfl | rfl | rfl | rfl | rfl | rfl | rfl <;> exact hascii (by decide)
    have hdelete : c ≠ '\x7f' := by
      rintro rfl
      exact hascii (by decide)
    have hvalue : isValueChar c = true := by
      unfold isValueChar
      simp only [Bool.or_eq_true, Bool.and_eq_true, beq_iff_eq, bne_iff_ne, decide_eq_true_eq]
      omega
    rw [escapeChar_eq_self hlettered (by omega), List.all_cons, hvalue, bne_iff_ne.mpr hdelete]
    rfl

theorem all_renderString (text : String) :
    (renderString text).all isValueChar = true <-> '\x7f' ∉ text.toList := by
  have hmarks : isValueChar '"' = true := by decide
  unfold renderString
  rw [List.cons_append, List.all_cons, List.all_append, List.all_flatMap, hmarks]
  simp only [all_escapeChar, List.all_cons, List.all_nil, hmarks, Bool.true_and, Bool.and_true,
    List.all_eq_true, bne_iff_ne, ne_eq]
  exact ⟨fun h hmem => h _ hmem rfl, fun h c hc heq => h (heq ▸ hc)⟩

theorem all_toDigits (n : Nat) : (Nat.toDigits 10 n).all isValueChar = true := by
  rw [List.all_eq_true]
  intro c hc
  have hdigit := isDigit_toDigits n c hc
  have hrange := toNat_range_of_isDigit hdigit
  unfold isValueChar
  simp only [Bool.or_eq_true, Bool.and_eq_true, beq_iff_eq, bne_iff_ne, decide_eq_true_eq]
  omega

theorem all_magnitudeText (x : Binary64) : x.magnitudeText.all isValueChar = true := by
  have hzeros : forall k, (List.replicate k '0').all isValueChar = true := by
    intro k
    rw [List.all_eq_true]
    intro c hc
    rw [(List.mem_replicate.mp hc).2]
    decide
  unfold Binary64.magnitudeText
  split
  · decide
  · dsimp only
    generalize hd : Decimal.strip 20 x.shortest = d
    have hdigits := all_toDigits d.digits
    have htake : forall k, ((Nat.toDigits 10 d.digits).take k).all isValueChar = true :=
      fun k => List.all_eq_true.mpr fun c hc =>
        List.all_eq_true.mp hdigits c (List.mem_of_mem_take hc)
    have hdrop : forall k, ((Nat.toDigits 10 d.digits).drop k).all isValueChar = true :=
      fun k => List.all_eq_true.mpr fun c hc =>
        List.all_eq_true.mp hdigits c (List.mem_of_mem_drop hc)
    split
    · split
      · simp only [List.all_append, hdigits, hzeros]
        decide
      · split
        · simp only [List.all_append, List.all_cons, htake, hdrop]
          decide
        · simp only [List.all_append, hdigits, hzeros]
          decide
    · have hfraction : (if ((Nat.toDigits 10 d.digits).drop 1).isEmpty = true then []
          else '.' :: (Nat.toDigits 10 d.digits).drop 1).all isValueChar = true := by
        split
        · rfl
        · rw [List.all_cons, hdrop]
          decide
      simp only [List.all_append, List.all_cons, htake, hfraction, all_toDigits]
      split <;> decide

theorem all_renderNumber (n : Number) : n.render.all isValueChar = true := by
  have hminus : isValueChar '-' = true := by decide
  cases n with
  | integer n =>
    rw [Number.render]
    split
    · rw [List.all_cons, hminus, all_toDigits]
      rfl
    · exact all_toDigits n.natAbs
  | float x =>
    rw [Number.render, Binary64.text]
    split
    · rw [List.all_cons, hminus, all_magnitudeText]
      rfl
    · exact all_magnitudeText x

theorem renderItems_eq (items : List Json) : renderItems items = items.map render := by
  induction items with
  | nil => rfl
  | cons item rest ih => rw [renderItems, ih, List.map_cons]

theorem renderMembers_eq (members : List (String × Json)) :
    renderMembers members =
      members.map fun m => renderString m.1 ++ ':' :: m.2.render := by
  induction members with
  | nil => rfl
  | cons m rest ih => rw [renderMembers, ih, List.map_cons]

/-!
## Characters inside a value
-/

/-- The text is a string or a key inside the value. -/
inductive HasText (value : Json) (text : String) : Prop where
  | string (h : Inside value (.string text))
  | key {members : List (String × Json)} {m : String × Json} (h : Inside value (.object members))
      (hmem : m ∈ members) (hkey : m.1 = text)

def Contains (value : Json) (c : Char) : Prop := exists text, value.HasText text ∧ c ∈ text.toList

theorem not_contains_of_scalar
    (h : value = .null ∨ (exists b, value = .bool b) ∨ exists n, value = .number n) (c : Char) :
    ¬ value.Contains c := by
  rintro ⟨text, hinside | ⟨hinside, -, -⟩, -⟩
  all_goals
    rcases h with rfl | ⟨b, rfl⟩ | ⟨n, rfl⟩ <;> cases hinside

theorem contains_string {text : String} {c : Char} :
    (Json.string text).Contains c <-> c ∈ text.toList := by
  constructor
  · rintro ⟨_, h | ⟨h, -, -⟩, hc⟩
    · cases h
      exact hc
    · cases h
  · intro hc
    exact ⟨text, .string (.self _), hc⟩

theorem contains_array {items : List Json} {c : Char} :
    (Json.array items).Contains c <-> exists item, item ∈ items ∧ item.Contains c := by
  constructor
  · rintro ⟨text, h | ⟨h, hmem, hkey⟩, hc⟩
    · cases h with
      | item hitem h => exact ⟨_, hitem, text, .string h, hc⟩
    · cases h with
      | item hitem h => exact ⟨_, hitem, text, .key h hmem hkey, hc⟩
  · rintro ⟨item, hitem, text, h | ⟨h, hmem, hkey⟩, hc⟩
    · exact ⟨text, .string (.item hitem h), hc⟩
    · exact ⟨text, .key (.item hitem h) hmem hkey, hc⟩

theorem contains_object {members : List (String × Json)} {c : Char} :
    (Json.object members).Contains c <->
      exists m, m ∈ members ∧ (c ∈ m.1.toList ∨ m.2.Contains c) := by
  constructor
  · rintro ⟨text, h | ⟨h, hmem, hkey⟩, hc⟩
    · cases h with
      | member hm h => exact ⟨_, hm, Or.inr ⟨text, .string h, hc⟩⟩
    · cases h with
      | self => exact ⟨_, hmem, Or.inl (hkey ▸ hc)⟩
      | member hm h => exact ⟨_, hm, Or.inr ⟨text, .key h hmem hkey, hc⟩⟩
  · rintro ⟨m, hm, hc | ⟨text, h | ⟨h, hmem, hkey⟩, hc⟩⟩
    · exact ⟨m.1, .key (.self _) hm rfl, hc⟩
    · exact ⟨text, .string (.member hm h), hc⟩
    · exact ⟨text, .key (.member hm h) hmem hkey, hc⟩

theorem all_render_iff (value : Json) :
    value.render.all isValueChar = true <-> ¬ value.Contains '\x7f' := by
  have hcomma : isValueChar ',' = true := by decide
  induction value using tree_induction with
  | null => exact iff_of_true (by decide) (not_contains_of_scalar (Or.inl rfl) _)
  | bool b =>
    refine iff_of_true ?_ (not_contains_of_scalar (Or.inr (Or.inl ⟨b, rfl⟩)) _)
    cases b <;> decide
  | number n =>
    exact iff_of_true (all_renderNumber n) (not_contains_of_scalar (Or.inr (Or.inr ⟨n, rfl⟩)) _)
  | string text => rw [contains_string, render, all_renderString]
  | array items ih =>
    have hmarks : isValueChar '[' = true ∧ [']'].all isValueChar = true := by decide
    rw [contains_array, render, List.cons_append, List.all_cons, List.all_append,
      all_separated hcomma, renderItems_eq, List.all_map, hmarks.1, hmarks.2, Bool.true_and,
      Bool.and_true, List.all_eq_true]
    constructor
    · rintro h ⟨item, hitem, hc⟩
      exact (ih item hitem).mp (h item hitem) hc
    · intro h item hitem
      exact (ih item hitem).mpr fun hc => h ⟨item, hitem, hc⟩
  | object members ih =>
    have hmarks : isValueChar '\x7b' = true ∧ ['\x7d'].all isValueChar = true := by decide
    have hmember : forall m, m ∈ members ->
        ((renderString m.1 ++ ':' :: m.2.render).all isValueChar = true <->
          ¬ ('\x7f' ∈ m.1.toList ∨ m.2.Contains '\x7f')) := by
      intro m hm
      have hvalue : m.2.render.all isValueChar = true <-> ¬ m.2.Contains '\x7f' := ih m hm
      rw [List.all_append, List.all_cons, Bool.and_eq_true, Bool.and_eq_true, all_renderString,
        hvalue, not_or]
      exact and_congr_right fun _ => and_iff_right (by decide)
    rw [contains_object, render, List.cons_append, List.all_cons, List.all_append,
      all_separated hcomma, renderMembers_eq, List.all_map, hmarks.1, hmarks.2, Bool.true_and,
      Bool.and_true, List.all_eq_true]
    constructor
    · rintro h ⟨m, hm, hc⟩
      exact (hmember m hm).mp (h m hm) hc
    · intro h m hm
      exact (hmember m hm).mpr fun hc => h ⟨m, hm, hc⟩

theorem ofString?_text (h : ¬ value.Contains '\x7f') :
    Header.Value.ofString? value.text = some ⟨value.text⟩ := by
  unfold Header.Value.ofString?
  rw [text, String.toList_ofList, if_pos ((all_render_iff value).mpr h)]

theorem ofString?_text_of_contains (h : value.Contains '\x7f') :
    Header.Value.ofString? value.text = none := by
  unfold Header.Value.ofString?
  rw [text, String.toList_ofList, if_neg fun hall => (all_render_iff value).mp hall h]

end Json
end RestClient
