import RestClient.Json.Decoder
import RestClient.Proofs.Settling

/-!
# Decoding spelled values

A steady decoder makes the same of every text that spells a form, wherever the text stands: the
space in it does not matter, and the decoder stops right behind it or fails in all of them.
-/

namespace RestClient
namespace Json

open Reader

variable {α β : Type}

def found : Except Failure (α × List UInt8) -> Option α
  | .ok (a, _) => some a
  | .error _ => none

theorem Yields.found_eq {value : Option α} {rest : List UInt8}
    {result : Except Failure (α × List UInt8)} (h : Yields value rest result) :
    found result = value := by
  cases value with
  | none =>
    rcases h with ⟨failure, rfl⟩
    rfl
  | some a =>
    rw [h.eq_ok]
    rfl

/-- What the decoder makes of the form's plain text. -/
def valueOf (decoder : Decoder α) (allowance : Nat) (form : Form) : Option α :=
  found (decoder allowance form.text)

def Reads (decoder : Decoder α) (allowance : Nat) (form : Form) (value : Option α) : Prop :=
  forall ⦃pad text rest : List UInt8⦄, Spaces pad -> Spells (.value form) text -> Delimits rest ->
    Yields value rest (decoder allowance (pad ++ (text ++ rest)))

/-- The decoder makes the same of all texts of a form. -/
def Steady (decoder : Decoder α) : Prop :=
  forall allowance form, exists value, Reads decoder allowance form value

theorem Reads.valueOf_eq {decoder : Decoder α} {allowance : Nat} {form : Form} {value : Option α}
    (h : Reads decoder allowance form value) : valueOf decoder allowance form = value := by
  have hplain := h spaces_nil (spells_text form) Delimits.nil
  rw [List.nil_append, List.append_nil] at hplain
  exact hplain.found_eq

theorem Steady.reads {decoder : Decoder α} (h : Steady decoder) (allowance : Nat) (form : Form) :
    Reads decoder allowance form (valueOf decoder allowance form) := by
  rcases h allowance form with ⟨value, hvalue⟩
  rw [hvalue.valueOf_eq]
  exact hvalue

theorem Reads.mapRead {decoder : Decoder α} {allowance : Nat} {form : Form} {value : Option α}
    (h : Reads decoder allowance form value) (f : α -> β) :
    Reads (fun allowance s => mapRead f (decoder allowance s)) allowance form (value.map f) := by
  intro pad text rest hpad htext hrest
  exact (h hpad htext hrest).mapRead f

theorem Steady.mapRead {decoder : Decoder α} (h : Steady decoder) (f : α -> β) :
    Steady fun allowance s => mapRead f (decoder allowance s) := by
  intro allowance form
  exact ⟨_, (h.reads allowance form).mapRead f⟩

/-- A text is decoded as its form is, nothing but space being left behind it. -/
theorem Steady.decodeWith_eq_ok_iff {decoder : Decoder α} (h : Steady decoder) (allowance : Nat)
    {form : Form} {text : List UInt8} (htext : Writes form text) (a : α) :
    decodeWith decoder allowance text = .ok a <-> valueOf decoder allowance form = some a := by
  rcases htext with ⟨hpad, hform, hspace⟩
  have hread := h.reads allowance form hpad hform (delimits_spaces hspace)
  unfold decodeWith
  cases hvalue : valueOf decoder allowance form with
  | none =>
    rw [hvalue] at hread
    rcases hread with ⟨failure, hfailure⟩
    rw [hfailure]
    simp
  | some value =>
    rw [hvalue] at hread
    have hskip := skipSpace_append hspace []
    rw [List.append_nil] at hskip
    rw [hread.eq_ok]
    dsimp only
    rw [hskip]
    simp [skipSpace]

/-!
## Decoders of scalars
-/

theorem token_append {pad : List UInt8} (hpad : Spaces pad) (s : List UInt8) :
    token (pad ++ s) = token s := by
  unfold token
  rw [skipSpace_append hpad]

/-- The decoder reads one token, of which it makes what is accepted. -/
def Accepts (decoder : Decoder α) (accept : Token -> Option α) : Prop :=
  forall allowance s,
    match token s with
    | .error _ => exists f, decoder allowance s = .error f
    | .ok (t, r) => Yields (accept t) r (decoder allowance s)

theorem Accepts.reads_scalar {decoder : Decoder α} {accept : Token -> Option α}
    (h : Accepts decoder accept) (allowance : Nat) (scalar : Scalar) :
    exists value, Reads decoder allowance (.scalar scalar) value := by
  rcases exists_token scalar.isScalar with ⟨value, -, hvalue⟩
  refine ⟨value.bind accept, ?_⟩
  intro pad text rest hpad htext hrest
  cases htext
  have hread := hvalue rest hrest
  have haccept := h allowance (pad ++ (scalar.text ++ rest))
  rw [token_append hpad] at haccept
  cases value with
  | none =>
    rcases hread with ⟨failure, hfailure⟩
    rw [hfailure] at haccept
    exact haccept
  | some t =>
    rw [hread.eq_ok] at haccept
    exact haccept

theorem Accepts.steady {decoder : Decoder α} {accept : Token -> Option α}
    (h : Accepts decoder accept) (hlist : accept .list = none) (hobject : accept .object = none) :
    Steady decoder := by
  intro allowance form
  cases form with
  | scalar scalar => exact h.reads_scalar allowance scalar
  | list items =>
    refine ⟨none, ?_⟩
    intro pad text rest hpad htext hrest
    have haccept := h allowance (pad ++ (text ++ rest))
    rw [token_append hpad] at haccept
    cases htext
    change Yields (accept .list) _ _ at haccept
    rw [hlist] at haccept
    exact haccept
  | object members =>
    refine ⟨none, ?_⟩
    intro pad text rest hpad htext hrest
    have haccept := h allowance (pad ++ (text ++ rest))
    rw [token_append hpad] at haccept
    cases htext
    change Yields (accept .object) _ _ at haccept
    rw [hobject] at haccept
    exact haccept

namespace Token

def bool? : Token -> Option Bool
  | .bool b => some b
  | _ => none

def string? : Token -> Option String
  | .string text => some text
  | _ => none

def natBelow? (limit : Nat) : Token -> Option Nat
  | .number (.integer n) => if 0 ≤ n ∧ n < limit then some n.toNat else none
  | _ => none

end Token

theorem accepts_bool : Accepts (decoder : Decoder Bool) Token.bool? := by
  intro allowance s
  unfold decoder instDecodeBool
  dsimp only
  rcases token s with failure | ⟨t, r⟩
  · exact ⟨_, rfl⟩
  · cases t with
    | bool b => rfl
    | _ => exact ⟨_, rfl⟩

theorem accepts_string : Accepts (decoder : Decoder String) Token.string? := by
  intro allowance s
  unfold decoder instDecodeString
  dsimp only
  rcases token s with failure | ⟨t, r⟩
  · exact ⟨_, rfl⟩
  · cases t with
    | string text => rfl
    | _ => exact ⟨_, rfl⟩

theorem accepts_natBelow (limit : Nat) (wanted : String) :
    Accepts (natBelow limit wanted) (Token.natBelow? limit) := by
  intro allowance s
  unfold natBelow
  rcases token s with failure | ⟨t, r⟩
  · exact ⟨_, rfl⟩
  · cases t with
    | number n =>
      cases n with
      | integer n =>
        unfold Token.natBelow?
        dsimp only
        by_cases hn : 0 ≤ n ∧ n < limit
        · rw [if_pos hn, if_pos hn]
          rfl
        · rw [if_neg hn, if_neg hn]
          exact ⟨_, rfl⟩
      | float x => exact ⟨_, rfl⟩
    | _ => exact ⟨_, rfl⟩

theorem steady_bool : Steady (decoder : Decoder Bool) := accepts_bool.steady rfl rfl

theorem steady_string : Steady (decoder : Decoder String) := accepts_string.steady rfl rfl

theorem steady_natBelow (limit : Nat) (wanted : String) : Steady (natBelow limit wanted) :=
  (accepts_natBelow limit wanted).steady rfl rfl

theorem steady_uint32 : Steady (decoder : Decoder UInt32) :=
  (steady_natBelow UInt32.size "u32").mapRead UInt32.ofNat

theorem steady_uint64 : Steady (decoder : Decoder UInt64) :=
  (steady_natBelow UInt64.size "u64").mapRead UInt64.ofNat

/-!
## Optional values
-/

def nullText : List UInt8 := [byte 'n', byte 'u', byte 'l', byte 'l']

theorem Spells.eq_nullText_or {form : Form} {text : List UInt8} (h : Spells (.value form) text) :
    text = nullText ∧ form.text = nullText ∨
      form.text ≠ nullText ∧ exists b s, text = b :: s ∧ b ∉ delimiters ∧ b ≠ byte 'n' := by
  cases h with
  | list h =>
    refine .inr ⟨?_, _, _, rfl, by decide, by decide⟩
    rw [Form.text]
    exact fun heq => absurd (List.cons.inj heq).1 (by decide)
  | object h =>
    refine .inr ⟨?_, _, _, rfl, by decide, by decide⟩
    rw [Form.text]
    exact fun heq => absurd (List.cons.inj heq).1 (by decide)
  | scalar scalar =>
    rw [Form.text]
    rcases scalar with ⟨text, h⟩
    have hother : forall {b s}, b ∉ delimiters -> b ≠ byte 'n' -> text = b :: s ->
        text = nullText ∧ text = nullText ∨
          text ≠ nullText ∧ exists b s, text = b :: s ∧ b ∉ delimiters ∧ b ≠ byte 'n' := by
      intro b s hb hne htext
      refine .inr ⟨?_, b, s, htext, hb, hne⟩
      rw [htext]
      exact fun heq => hne (List.cons.inj heq).1
    cases h with
    | null => exact .inl ⟨rfl, rfl⟩
    | true => exact hother (by decide) (by decide) rfl
    | false => exact hother (by decide) (by decide) rfl
    | number h =>
      rcases h.exists_cons with ⟨d, s, htext, hd⟩
      exact hother (not_mem_delimiters_of_isDigit hd) (ne_of_isDigit hd rfl) htext
    | negative h => exact hother (by decide) (by decide) rfl
    | string h => exact hother (by decide) (by decide) rfl

theorem reads_optionOf_null (item : Decoder α) (allowance : Nat) {form : Form}
    (hnull : form.text = nullText) : Reads (optionOf item) allowance form (some none) := by
  intro pad text rest hpad htext hrest
  rcases htext.eq_nullText_or with ⟨rfl, -⟩ | ⟨hne, -⟩
  · unfold optionOf
    rw [skipSpace_append hpad]
    rfl
  · exact absurd hnull hne

theorem reads_optionOf_some {item : Decoder α} {allowance : Nat} {form : Form}
    {value : Option α} (h : Reads item allowance form value) (hne : form.text ≠ nullText) :
    Reads (optionOf item) allowance form (value.map some) := by
  intro pad text rest hpad htext hrest
  have hread := (h spaces_nil htext hrest).mapRead some
  rcases htext.eq_nullText_or with ⟨-, heq⟩ | ⟨-, b, s, rfl, hb, hn⟩
  · exact absurd heq hne
  · unfold optionOf
    rw [skipSpace_append hpad, List.cons_append, skipSpace_of_not_mem hb]
    dsimp only
    rw [if_neg (by simpa using hn)]
    exact hread

theorem steady_optionOf {item : Decoder α} (h : Steady item) : Steady (optionOf item) := by
  intro allowance form
  by_cases hnull : form.text = nullText
  · exact ⟨_, reads_optionOf_null item allowance hnull⟩
  · exact ⟨_, reads_optionOf_some (h.reads allowance form) hnull⟩

/-!
## Lists
-/

theorem nextItem_close (first : Bool) {pad : List UInt8} (hpad : Spaces pad)
    (rest : List UInt8) :
    nextItem first (pad ++ [byte ']'] ++ rest) = .ok (false, byte ']' :: rest) := by
  unfold nextItem
  rw [List.append_assoc, skipSpace_append hpad]
  rfl

theorem nextItem_item (first : Bool) {pad space text : List UInt8} {form : Form}
    (hpad : Spaces pad) (hspace : Spaces space) (h : Spells (.value form) text)
    (s rest : List UInt8) :
    nextItem first (pad ++ (separator first ++ (space ++ (text ++ s))) ++ rest) =
      .ok (true, text ++ (s ++ rest)) := by
  have htext : pad ++ (separator first ++ (space ++ (text ++ s))) ++ rest =
      pad ++ (separator first ++ (space ++ (text ++ (s ++ rest)))) := by
    simp
  rw [htext]
  generalize s ++ rest = s
  rcases h.exists_cons with ⟨b, r, rfl, hb⟩
  have hclose : b ≠ byte ']' := by
    rintro rfl
    exact hb (by decide)
  rw [List.cons_append]
  unfold nextItem
  cases first with
  | true =>
    rw [skipSpace_first hpad hspace hb]
    simp [hclose]
  | false =>
    have hcomma : byte ',' ≠ byte ']' := by decide
    rw [skipSpace_later hpad]
    dsimp only
    rw [skipSpace_append hspace, skipSpace_of_not_mem hb]
    simp [hclose, hcomma]

theorem Spells.length_items_le {first : Bool} {items : List Form} {s : List UInt8}
    (h : Spells (.items first items) s) : items.length ≤ s.length := by
  induction items generalizing first s with
  | nil => exact Nat.zero_le _
  | cons form items ih =>
    cases h with
    | item _ hpad hspace hform h =>
      rcases hform.exists_cons with ⟨b, r, rfl, hb⟩
      have hlength := ih h
      simp only [List.length_append, List.length_cons]
      omega

theorem reads_items {item : Decoder α} {allowance : Nat}
    (hitem : forall form, Reads item allowance form (valueOf item allowance form)) {first : Bool}
    {items : List Form} {s : List UInt8} (h : Spells (.items first items) s)
    (rest : List UInt8) {fuel : Nat} (hfuel : items.length ≤ fuel) :
    Yields (items.mapM (valueOf item allowance)) rest
      (Reader.items (item allowance) fuel first (s ++ rest)) := by
  induction items generalizing first s fuel with
  | nil =>
    cases h with
    | closeList _ hpad =>
      unfold Reader.items
      rw [nextItem_close first hpad]
      rfl
  | cons form items ih =>
    cases h with
    | @item _ pad space text s _ _ hpad hspace hform h =>
      rcases fuel with - | fuel
      · cases hfuel
      · have hread := hitem form spaces_nil hform (h.delimits_items rest)
        have hmore := ih h (Nat.le_of_succ_le_succ hfuel)
        rw [List.nil_append] at hread
        unfold Reader.items
        rw [nextItem_item first hpad hspace hform, List.mapM_cons]
        dsimp only
        cases hvalue : valueOf item allowance form with
        | none =>
          rw [hvalue] at hread
          rcases hread with ⟨failure, hfailure⟩
          rw [hfailure]
          exact ⟨failure, rfl⟩
        | some a =>
          rw [hvalue] at hread
          rw [hread.eq_ok]
          have hcons := hmore.mapRead (a :: ·)
          cases hvalues : items.mapM (valueOf item allowance) with
          | none =>
            rw [hvalues] at hcons
            exact hcons
          | some values =>
            rw [hvalues] at hcons
            exact hcons

theorem reads_none_of_scalar {decoder : Decoder α} {allowance : Nat}
    (herror : forall {s f}, token s = .error f -> exists f, decoder allowance s = .error f)
    (hfound : forall {s t r}, token s = .ok (t, r) -> t ≠ .list ∧ t ≠ .object ->
      exists f, decoder allowance s = .error f)
    (scalar : Scalar) : Reads decoder allowance (.scalar scalar) none := by
  rcases exists_token scalar.isScalar with ⟨value, hne, hvalue⟩
  intro pad text rest hpad htext hrest
  cases htext
  have hread := hvalue rest hrest
  rw [← token_append hpad] at hread
  cases value with
  | none =>
    rcases hread with ⟨failure, hfailure⟩
    exact herror hfailure
  | some t => exact hfound hread (hne t rfl)

theorem reads_list {item : Decoder α} (h : Steady item) (allowance : Nat) (items : List Form) :
    Reads (listOf item) (allowance + 1) (.list items) (items.mapM (valueOf item allowance)) := by
  intro pad text rest hpad htext hrest
  cases htext with
  | @list _ s hitems =>
    have hfuel : items.length ≤ (s ++ rest).length := by
      rw [List.length_append]
      exact Nat.le_add_right_of_le hitems.length_items_le
    have hread := reads_items (h.reads allowance) hitems rest hfuel
    unfold listOf
    rw [token_append hpad]
    exact hread

theorem steady_listOf {item : Decoder α} (h : Steady item) : Steady (listOf item) := by
  intro allowance form
  cases form with
  | scalar scalar =>
    refine ⟨none, reads_none_of_scalar ?_ ?_ scalar⟩
    · intro s f hs
      unfold listOf
      rw [hs]
      exact ⟨_, rfl⟩
    · intro s t r hs hne
      unfold listOf
      rw [hs]
      cases t <;> first | exact ⟨_, rfl⟩ | exact absurd rfl hne.1
  | list items =>
    cases allowance with
    | zero =>
      refine ⟨none, ?_⟩
      intro pad text rest hpad htext hrest
      cases htext
      unfold listOf
      rw [token_append hpad]
      exact ⟨_, rfl⟩
    | succ allowance => exact ⟨_, reads_list h allowance items⟩
  | object members =>
    refine ⟨none, ?_⟩
    intro pad text rest hpad htext hrest
    cases htext
    unfold listOf
    rw [token_append hpad]
    exact ⟨_, rfl⟩

end Json
end RestClient
