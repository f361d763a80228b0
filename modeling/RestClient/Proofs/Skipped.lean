import Mathlib.Data.List.TakeWhile
import RestClient.Json.Decoder
import RestClient.Proofs.Skipping

/-!
# What is skipped is spelled

The machine that skips values accepts nothing but forms: wherever it stops, the text that it has
passed spells one.  While brackets are open, what is left of the text closes them one after
another.
-/

namespace RestClient
namespace Json

open Reader

variable {s r : List UInt8}

theorem exists_skipSpace (s : List UInt8) : exists pad, Spaces pad ∧ s = pad ++ skipSpace s := by
  refine ⟨s.takeWhile isSpace, ?_, List.takeWhile_append_dropWhile.symm⟩
  intro b hb
  exact List.mem_takeWhile_imp hb

theorem exists_dropWhile_isDigit (s : List UInt8) :
    exists digits, Digits digits ∧ s = digits ++ s.dropWhile isDigit := by
  refine ⟨s.takeWhile isDigit, ?_, List.takeWhile_append_dropWhile.symm⟩
  intro b hb
  exact List.mem_takeWhile_imp hb

theorem eq_append_of_word {text : List UInt8} (h : word text s = .ok ((), r)) : s = text ++ r := by
  induction text generalizing s with
  | nil =>
    cases h
    rfl
  | cons w rest ih =>
    cases s with
    | nil => cases h
    | cons b s =>
      unfold word at h
      by_cases hb : b = w
      · rw [if_pos (by simpa using hb)] at h
        rw [hb, ih h]
        rfl
      · rw [if_neg (by simpa using hb)] at h
        cases h

namespace Skip

/-!
## Scalars
-/

theorem mem_shortEscapes {e c : UInt8} (h : shortEscape? e = some c) : e ∈ shortEscapes := by
  unfold shortEscape? at h
  unfold shortEscapes
  grind

theorem isHex_of_hexDigit? {b : UInt8} {n : Nat} (h : hexDigit? b = some n) : isHex b = true := by
  unfold hexDigit? at h
  unfold isHex
  grind

theorem isHex_of_hexUnit? {a b c d : UInt8} {n : Nat} (h : hexUnit? a b c d = some n) :
    forall x, x ∈ [a, b, c, d] -> isHex x = true := by
  unfold hexUnit? at h
  split at h
  · rename_i ha hb hc hd
    intro x hx
    simp only [List.mem_cons, List.not_mem_nil, or_false] at hx
    rcases hx with rfl | rfl | rfl | rfl
    · exact isHex_of_hexDigit? ha
    · exact isHex_of_hexDigit? hb
    · exact isHex_of_hexDigit? hc
    · exact isHex_of_hexDigit? hd
  · cases h

theorem exists_content (h : string s = .ok r) :
    exists raw, IsContent raw ∧ s = raw ++ byte '"' :: r := by
  fun_induction string s with
  | case1 => cases h
  | case2 b s hquote =>
    cases h
    exact ⟨[], .nil, congrArg (· :: r) (beq_iff_eq.mp hquote)⟩
  | case3 => cases h
  | case4 => cases h
  | case5 b _ hescape e hu h₁ h₂ h₃ h₄ s n hn ih =>
    rcases ih h with ⟨raw, hraw, rfl⟩
    rw [beq_iff_eq.mp hescape, beq_iff_eq.mp hu]
    exact ⟨_, .unit (isHex_of_hexUnit? hn) hraw, rfl⟩
  | case6 => cases h
  | case7 b _ hescape e s hu c hc ih =>
    rcases ih h with ⟨raw, hraw, rfl⟩
    rw [beq_iff_eq.mp hescape]
    exact ⟨_, .short (mem_shortEscapes hc) hraw, rfl⟩
  | case8 => cases h
  | case9 => cases h
  | case10 b s hquote hescape hcontrol ih =>
    rcases ih h with ⟨raw, hraw, rfl⟩
    exact ⟨_, .plain (by simpa using hquote) (by simpa using hescape) hcontrol hraw, rfl⟩

theorem exists_exponent (h : exponent s = .ok r) :
    exists sign d digits, IsSign sign ∧ Digits (d :: digits) ∧ s = sign ++ d :: (digits ++ r) := by
  have hdigits : forall {b : UInt8} {rest : List UInt8},
      (if isDigit b then .ok (rest.dropWhile isDigit) else failAt .invalidNumber rest :
        Except Failure (List UInt8)) = .ok r ->
      exists digits, Digits (b :: digits) ∧ rest = digits ++ r := by
    intro b rest hrest
    by_cases hb : isDigit b = true
    · rw [if_pos hb] at hrest
      cases hrest
      rcases exists_dropWhile_isDigit rest with ⟨digits, hdigits, heq⟩
      exact ⟨digits, List.forall_mem_cons.mpr ⟨hb, hdigits⟩, heq⟩
    · rw [if_neg hb] at hrest
      cases hrest
  unfold exponent at h
  cases s with
  | nil => cases h
  | cons b s =>
    dsimp only at h
    by_cases hsign : (b == byte '+' || b == byte '-') = true
    · rw [if_pos hsign] at h
      cases s with
      | nil => cases h
      | cons d s =>
        rcases hdigits h with ⟨digits, hall, rfl⟩
        rw [Bool.or_eq_true, beq_iff_eq, beq_iff_eq] at hsign
        rcases hsign with rfl | rfl
        · exact ⟨_, d, digits, .plus, hall, rfl⟩
        · exact ⟨_, d, digits, .minus, hall, rfl⟩
    · rw [if_neg hsign] at h
      rcases hdigits h with ⟨digits, hall, rfl⟩
      exact ⟨_, b, digits, .none, hall, rfl⟩

theorem exists_exponent? (h : exponent? s = .ok r) :
    exists exponent, IsExponent exponent ∧ s = exponent ++ r := by
  unfold exponent? at h
  cases s with
  | nil =>
    cases h
    exact ⟨[], .none, rfl⟩
  | cons b s =>
    dsimp only at h
    by_cases he : (b == byte 'e' || b == byte 'E') = true
    · rw [if_pos he] at h
      rcases exists_exponent h with ⟨sign, d, digits, hsign, hdigits, rfl⟩
      rw [Bool.or_eq_true, beq_iff_eq, beq_iff_eq] at he
      exact ⟨_, .digits he hsign hdigits, by simp⟩
    · rw [if_neg he] at h
      cases h
      exact ⟨[], .none, rfl⟩

theorem exists_fraction? (h : fraction? s = .ok r) :
    exists fraction exponent, IsFraction fraction ∧ IsExponent exponent ∧
      s = fraction ++ (exponent ++ r) := by
  unfold fraction? at h
  cases s with
  | nil =>
    cases h
    exact ⟨[], [], .none, .none, rfl⟩
  | cons b s =>
    dsimp only at h
    by_cases hpoint : (b == byte '.') = true
    · rw [if_pos hpoint] at h
      by_cases hempty : (s.takeWhile isDigit).isEmpty = true
      · rw [if_pos hempty] at h
        cases h
      · rw [if_neg hempty] at h
        rcases exists_exponent? h with ⟨exponent, hexponent, hdrop⟩
        rcases hdigits : s.takeWhile isDigit with _ | ⟨d, digits⟩
        · rw [hdigits] at hempty
          exact absurd rfl hempty
        · have hall : Digits (d :: digits) := by
            intro b hb
            rw [← hdigits] at hb
            exact List.mem_takeWhile_imp hb
          refine ⟨_, exponent, .digits hall, hexponent, ?_⟩
          have hsplit := List.takeWhile_append_dropWhile (p := isDigit) (l := s)
          rw [hdigits, hdrop] at hsplit
          rw [beq_iff_eq.mp hpoint, ← hsplit]
          rfl
    · rw [if_neg hpoint] at h
      rcases exists_exponent? h with ⟨exponent, hexponent, heq⟩
      exact ⟨[], exponent, .none, hexponent, heq⟩

theorem exists_number (h : number s = .ok r) : exists text, IsNumber text ∧ s = text ++ r := by
  have hparts : forall {whole rest : List UInt8}, IsWhole whole -> fraction? rest = .ok r ->
      exists text, IsNumber text ∧ whole ++ rest = text ++ r := by
    intro whole rest hwhole hrest
    rcases exists_fraction? hrest with ⟨fraction, exponent, hfraction, hexponent, rfl⟩
    exact ⟨_, .parts hwhole hfraction hexponent, by simp⟩
  unfold number at h
  cases s with
  | nil => cases h
  | cons b s =>
    dsimp only at h
    by_cases hzero : (b == byte '0') = true
    · rw [if_pos hzero] at h
      rw [beq_iff_eq.mp hzero]
      cases s with
      | nil =>
        cases h
        exact hparts .zero rfl
      | cons d s =>
        dsimp only at h
        by_cases hd : isDigit d = true
        · rw [if_pos hd] at h
          cases h
        · rw [if_neg hd] at h
          exact hparts .zero h
    · rw [if_neg hzero] at h
      by_cases hb : isDigit b = true
      · rw [if_pos hb] at h
        rcases exists_dropWhile_isDigit s with ⟨digits, hdigits, heq⟩
        have hnumber := hparts (.digits hb (by simpa using hzero) hdigits) h
        rw [List.cons_append, ← heq] at hnumber
        exact hnumber
      · rw [if_neg hb] at h
        cases h

/-!
## Steps
-/

theorem andThen_eq_ok {st next : State} {result : Except Failure (List UInt8)}
    (h : andThen st result = .ok (next, r)) : next = st ∧ result = .ok r := by
  cases result with
  | error f => cases h
  | ok s =>
    cases h
    exact ⟨rfl, rfl⟩

theorem eq_append_of_rest {text : List UInt8} (h : rest (word text s) = .ok r) :
    s = text ++ r := by
  rcases hword : word text s with f | ⟨_, s'⟩
  · rw [hword] at h
    cases h
  · rw [hword] at h
    cases h
    exact eq_append_of_word hword

theorem value_cases {brackets : List Bracket} {next : State}
    (h : value brackets s = .ok (next, r)) :
    (next = ⟨.ended, brackets⟩ ∧ exists scalar : Scalar, s = scalar.text ++ r) ∨
      (next = ⟨.opened, .list :: brackets⟩ ∧ s = byte '[' :: r) ∨
      (next = ⟨.opened, .object :: brackets⟩ ∧ s = byte '\x7b' :: r) := by
  have hword : forall {text t : List UInt8}, IsScalar text ->
      andThen ⟨.ended, brackets⟩ (rest (word text.tail t)) = .ok (next, r) ->
      next = ⟨.ended, brackets⟩ ∧ exists scalar : Scalar, text.headD 0 :: t = scalar.text ++ r := by
    intro text t hscalar hrest
    rcases andThen_eq_ok hrest with ⟨hnext, hrest⟩
    refine ⟨hnext, ⟨text, hscalar⟩, ?_⟩
    rw [eq_append_of_rest hrest]
    rcases hscalar.exists_cons with ⟨b, more, rfl, _⟩
    rfl
  unfold value at h
  cases s with
  | nil => cases h
  | cons b s =>
    dsimp only at h
    split_ifs at h with hn ht hf hminus hd hquote hlist hobject
    · rw [beq_iff_eq.mp hn]
      exact .inl (hword .null h)
    · rw [beq_iff_eq.mp ht]
      exact .inl (hword .true h)
    · rw [beq_iff_eq.mp hf]
      exact .inl (hword .false h)
    · rcases andThen_eq_ok h with ⟨hnext, hnumber⟩
      rcases exists_number hnumber with ⟨text, htext, rfl⟩
      rw [beq_iff_eq.mp hminus]
      exact .inl ⟨hnext, ⟨_, .negative htext⟩, rfl⟩
    · rcases andThen_eq_ok h with ⟨hnext, hnumber⟩
      rcases exists_number hnumber with ⟨text, htext, heq⟩
      exact .inl ⟨hnext, ⟨_, .number htext⟩, heq⟩
    · rcases andThen_eq_ok h with ⟨hnext, hstring⟩
      rcases exists_content hstring with ⟨raw, hraw, rfl⟩
      rw [beq_iff_eq.mp hquote]
      exact .inl ⟨hnext, ⟨_, .string hraw⟩, by simp⟩
    · cases h
      rw [beq_iff_eq.mp hlist]
      exact .inr (.inl ⟨rfl, rfl⟩)
    · cases h
      rw [beq_iff_eq.mp hobject]
      exact .inr (.inr ⟨rfl, rfl⟩)
    · cases h

theorem exists_key {brackets : List Bracket} {next : State}
    (h : Skip.key brackets s = .ok (next, r)) :
    next = ⟨.value, brackets⟩ ∧ exists (space before : List UInt8) (key : Key), Spaces space ∧
      Spaces before ∧
      s = space ++ byte '"' :: (key.raw ++ byte '"' :: (before ++ byte ':' :: r)) := by
  rcases exists_skipSpace s with ⟨space, hspace, heq⟩
  unfold Skip.key at h
  rcases hskip : skipSpace s with _ | ⟨b, s'⟩
  · rw [hskip] at h
    cases h
  rw [hskip] at h heq
  dsimp only at h
  split_ifs at h with hquote
  · rcases hstring : string s' with f | s''
    · rw [hstring] at h
      cases h
    rcases exists_content hstring with ⟨raw, hraw, rfl⟩
    rcases exists_skipSpace s'' with ⟨before, hbefore, heq'⟩
    rw [hstring] at h
    dsimp only at h
    rcases hskip' : skipSpace s'' with _ | ⟨c, t⟩
    · rw [hskip'] at h
      cases h
    rw [hskip'] at h heq'
    dsimp only at h
    split_ifs at h with hcolon
    · cases h
      refine ⟨rfl, space, before, ⟨raw, hraw⟩, hspace, hbefore, ?_⟩
      rw [heq, heq', beq_iff_eq.mp hquote, beq_iff_eq.mp hcolon]
    · cases h
  · cases h

theorem list_cases (first : Bool) {outer : List Bracket} {next : State}
    (h : step ⟨if first then .opened else .ended, .list :: outer⟩ s = .ok (next, r)) :
    exists pad, Spaces pad ∧ ((next = ⟨.ended, outer⟩ ∧ s = pad ++ byte ']' :: r) ∨
      (first = true ∧ exists t, value (.list :: outer) t = .ok (next, r) ∧ s = pad ++ t) ∨
      (first = false ∧ next = ⟨.value, .list :: outer⟩ ∧ s = pad ++ byte ',' :: r)) := by
  rcases exists_skipSpace s with ⟨pad, hpad, heq⟩
  refine ⟨pad, hpad, ?_⟩
  cases first with
  | true =>
    simp only [step, if_true] at h
    rcases hskip : skipSpace s with _ | ⟨b, t⟩
    · rw [hskip] at h
      cases h
    rw [hskip] at h heq
    dsimp only at h
    split_ifs at h with hclose
    · cases h
      exact .inl ⟨rfl, beq_iff_eq.mp hclose ▸ heq⟩
    · exact .inr (.inl ⟨rfl, b :: t, h, heq⟩)
  | false =>
    simp only [step, Bool.false_eq_true, if_false] at h
    rcases hskip : skipSpace s with _ | ⟨b, t⟩
    · rw [hskip] at h
      cases h
    rw [hskip] at h heq
    dsimp only at h
    split_ifs at h with hcomma hclose
    · cases h
      exact .inr (.inr ⟨rfl, rfl, beq_iff_eq.mp hcomma ▸ heq⟩)
    · cases h
      exact .inl ⟨rfl, beq_iff_eq.mp hclose ▸ heq⟩
    · cases h

theorem object_cases (first : Bool) {outer : List Bracket} {next : State}
    (h : step ⟨if first then .opened else .ended, .object :: outer⟩ s = .ok (next, r)) :
    exists pad, Spaces pad ∧ ((next = ⟨.ended, outer⟩ ∧ s = pad ++ byte '\x7d' :: r) ∨
      exists t, Skip.key (.object :: outer) t = .ok (next, r) ∧
        s = pad ++ (separator first ++ t)) := by
  rcases exists_skipSpace s with ⟨pad, hpad, heq⟩
  refine ⟨pad, hpad, ?_⟩
  cases first with
  | true =>
    simp only [step, if_true] at h
    rcases hskip : skipSpace s with _ | ⟨b, t⟩
    · rw [hskip] at h
      cases h
    rw [hskip] at h heq
    dsimp only at h
    split_ifs at h with hclose
    · cases h
      exact .inl ⟨rfl, beq_iff_eq.mp hclose ▸ heq⟩
    · exact .inr ⟨b :: t, h, heq⟩
  | false =>
    simp only [step, Bool.false_eq_true, if_false] at h
    rcases hskip : skipSpace s with _ | ⟨b, t⟩
    · rw [hskip] at h
      cases h
    rw [hskip] at h heq
    dsimp only at h
    split_ifs at h with hcomma hclose
    · rw [beq_iff_eq.mp hcomma] at heq
      exact .inr ⟨t, h, heq⟩
    · cases h
      exact .inl ⟨rfl, beq_iff_eq.mp hclose ▸ heq⟩
    · cases h

/-!
## Runs
-/

def SpellsThen {ι : Type} (piece : ι -> Piece) (after : List UInt8 -> Prop) (text : List UInt8) :
    Prop :=
  exists i front back, Spells (piece i) front ∧ after back ∧ text = front ++ back

/-- The text closes the brackets, each behind what is left inside it. -/
def Closes : List Bracket -> List UInt8 -> Prop
  | [] => fun text => text = []
  | .list :: outer => SpellsThen (Piece.items false) (Closes outer)
  | .object :: outer => SpellsThen (Piece.members false) (Closes outer)

/-- The text is what the machine has left to skip. -/
def Completes : State -> List UInt8 -> Prop
  | ⟨.value, brackets⟩ => fun text => exists pad back,
    Spaces pad ∧ SpellsThen Piece.value (Closes brackets) back ∧ text = pad ++ back
  | ⟨.opened, .list :: outer⟩ => SpellsThen (Piece.items true) (Closes outer)
  | ⟨.opened, .object :: outer⟩ => SpellsThen (Piece.members true) (Closes outer)
  | ⟨.opened, []⟩ => Closes []
  | ⟨.ended, brackets⟩ => Closes brackets

section SpellsThen

variable {after : List UInt8 -> Prop} {pad space text back : List UInt8}

theorem spellsThen_closeList (first : Bool) (hpad : Spaces pad) (h : after back) :
    SpellsThen (Piece.items first) after (pad ++ byte ']' :: back) :=
  ⟨[], _, back, .closeList first hpad, h, by simp⟩

theorem spellsThen_closeObject (first : Bool) (hpad : Spaces pad) (h : after back) :
    SpellsThen (Piece.members first) after (pad ++ byte '\x7d' :: back) :=
  ⟨[], _, back, .closeObject first hpad, h, by simp⟩

theorem spellsThen_item (first : Bool) (hpad : Spaces pad) (hspace : Spaces space)
    {outer : List Bracket} (h : SpellsThen Piece.value (Closes (.list :: outer)) text) :
    SpellsThen (Piece.items first) (Closes outer)
      (pad ++ (separator first ++ (space ++ text))) := by
  rcases h with ⟨form, front, _, hform, ⟨items, more, back, hitems, hback, rfl⟩, rfl⟩
  exact ⟨form :: items, _, back, .item first hpad hspace hform hitems, hback, by simp⟩

theorem spellsThen_member (first : Bool) (hpad : Spaces pad) (hspace : Spaces space)
    {before after : List UInt8} (hbefore : Spaces before) (hafter : Spaces after) (key : Key)
    {outer : List Bracket} (h : SpellsThen Piece.value (Closes (.object :: outer)) text) :
    SpellsThen (Piece.members first) (Closes outer) (pad ++ (separator first ++ (space ++
      byte '"' :: (key.raw ++ byte '"' :: (before ++ byte ':' :: (after ++ text)))))) := by
  rcases h with ⟨form, front, _, hform, ⟨members, more, back, hmembers, hback, rfl⟩, rfl⟩
  exact ⟨(key, form) :: members, _, back,
    .member first hpad hspace hbefore hafter hform hmembers, hback, by simp⟩

end SpellsThen

theorem spellsThen_of_value {brackets : List Bracket} {next : State} {text : List UInt8}
    (h : value brackets s = .ok (next, text ++ r)) (hnext : Completes next text) :
    exists front, SpellsThen Piece.value (Closes brackets) front ∧ s = front ++ r := by
  rcases value_cases h with ⟨rfl, scalar, rfl⟩ | ⟨rfl, rfl⟩ | ⟨rfl, rfl⟩
  · exact ⟨scalar.text ++ text, ⟨_, _, text, .scalar scalar, hnext, rfl⟩, by simp⟩
  · rcases hnext with ⟨items, front, back, hitems, hback, rfl⟩
    exact ⟨_, ⟨_, _, back, .list hitems, hback, rfl⟩, rfl⟩
  · rcases hnext with ⟨members, front, back, hmembers, hback, rfl⟩
    exact ⟨_, ⟨_, _, back, .object hmembers, hback, rfl⟩, rfl⟩

theorem spellsThen_of_listStep (first : Bool) {outer : List Bracket} {next : State}
    {text : List UInt8}
    (h : step ⟨if first then .opened else .ended, .list :: outer⟩ s = .ok (next, text ++ r))
    (hnext : Completes next text) :
    exists front, SpellsThen (Piece.items first) (Closes outer) front ∧ s = front ++ r := by
  rcases list_cases first h with
    ⟨pad, hpad, ⟨rfl, rfl⟩ | ⟨rfl, t, hvalue, rfl⟩ | ⟨rfl, rfl, rfl⟩⟩
  · exact ⟨_, spellsThen_closeList first hpad hnext, by simp⟩
  · rcases spellsThen_of_value hvalue hnext with ⟨front, hfront, rfl⟩
    exact ⟨_, spellsThen_item true hpad spaces_nil hfront, by simp [separator]⟩
  · rcases hnext with ⟨space, back, hspace, hvalue, rfl⟩
    exact ⟨_, spellsThen_item false hpad hspace hvalue, by simp [separator]⟩

theorem spellsThen_of_objectStep (first : Bool) {outer : List Bracket} {next : State}
    {text : List UInt8}
    (h : step ⟨if first then .opened else .ended, .object :: outer⟩ s = .ok (next, text ++ r))
    (hnext : Completes next text) :
    exists front, SpellsThen (Piece.members first) (Closes outer) front ∧ s = front ++ r := by
  rcases object_cases first h with ⟨pad, hpad, ⟨rfl, rfl⟩ | ⟨t, hkey, rfl⟩⟩
  · exact ⟨_, spellsThen_closeObject first hpad hnext, by simp⟩
  · rcases exists_key hkey with ⟨rfl, space, before, key, hspace, hbefore, rfl⟩
    rcases hnext with ⟨after, back, hafter, hvalue, rfl⟩
    exact ⟨_, spellsThen_member first hpad hspace hbefore hafter key hvalue, by simp⟩

theorem completes_step {st next : State} {text : List UInt8}
    (h : step st s = .ok (next, text ++ r)) (hnext : Completes next text) :
    exists front, Completes st front ∧ s = front ++ r := by
  rcases st with ⟨phase, brackets⟩
  cases phase with
  | value =>
    rcases exists_skipSpace s with ⟨pad, hpad, heq⟩
    rcases spellsThen_of_value h hnext with ⟨front, hfront, hskip⟩
    refine ⟨pad ++ front, ⟨pad, front, hpad, hfront, rfl⟩, ?_⟩
    rw [heq, hskip, List.append_assoc]
  | opened =>
    rcases brackets with _ | ⟨_ | _, outer⟩
    · cases h
      exact ⟨text, hnext, rfl⟩
    · exact spellsThen_of_listStep true h hnext
    · exact spellsThen_of_objectStep true h hnext
  | ended =>
    rcases brackets with _ | ⟨_ | _, outer⟩
    · cases h
      exact ⟨text, hnext, rfl⟩
    · exact spellsThen_of_listStep false h hnext
    · exact spellsThen_of_objectStep false h hnext

theorem eq_of_done {st : State} (h : st.done = true) : st = ⟨.ended, []⟩ := by
  rcases st with ⟨phase, brackets⟩
  simpa [State.done] using h

theorem completes_run {fuel : Nat} {st : State} (h : run fuel st s = .ok r) :
    exists front, Completes st front ∧ s = front ++ r := by
  -- From the end of the run backwards: each step puts what it read in front of what was left.
  induction fuel generalizing st s with
  | zero =>
    unfold run at h
    split_ifs at h with hdone
    · cases h
      rw [eq_of_done hdone]
      exact ⟨[], rfl, rfl⟩
    · cases h
  | succ fuel ih =>
    unfold run at h
    split_ifs at h with hdone
    · cases h
      rw [eq_of_done hdone]
      exact ⟨[], rfl, rfl⟩
    · rcases hstep : step st s with f | ⟨next, s'⟩
      · rw [hstep] at h
        cases h
      · rw [hstep] at h
        rcases ih h with ⟨text, htext, rfl⟩
        exact completes_step hstep htext

end Skip

theorem spells_of_skip (h : skip s = .ok ((), r)) :
    exists pad form text, Spaces pad ∧ Spells (.value form) text ∧ s = pad ++ (text ++ r) := by
  unfold skip at h
  rcases hrun : Skip.run (s.length + 1) ⟨.value, []⟩ s with f | r'
  · rw [hrun] at h
    cases h
  · rw [hrun] at h
    cases h
    rcases Skip.completes_run hrun with ⟨_, ⟨pad, _, hpad, hvalue, rfl⟩, heq⟩
    rcases hvalue with ⟨form, text, _, hform, rfl, rfl⟩
    exact ⟨pad, form, text, hpad, hform, by simpa using heq⟩

/-- What is ignored must be JSON text, of any form and any depth. -/
theorem decode_ignored_iff :
    decode s = .ok (⟨⟩ : Ignored) <-> exists form, Writes form s := by
  have hdecoder : (decoder nesting s : Except Failure (Ignored × List UInt8)) =
      mapRead (fun _ => ⟨⟩) (skip s) := rfl
  unfold decode decodeWith
  rw [hdecoder]
  constructor
  · intro h
    rcases hskip : skip s with f | ⟨_, r⟩
    · rw [hskip] at h
      cases h
    · rw [hskip] at h
      dsimp only [mapRead] at h
      rcases spells_of_skip hskip with ⟨pad, form, text, hpad, hform, rfl⟩
      rcases exists_skipSpace r with ⟨space, hspace, heq⟩
      cases hrest : skipSpace r with
      | nil =>
        rw [hrest, List.append_nil] at heq
        rw [heq]
        exact ⟨form, .mk hpad hform hspace⟩
      | cons b t =>
        rw [hrest] at h
        cases h
  · rintro ⟨form, ⟨hpad, hform, hspace⟩⟩
    have hblank := skipSpace_append hspace []
    rw [List.append_nil] at hblank
    rw [skip_of_spells hpad hform (delimits_spaces hspace)]
    dsimp only [mapRead]
    rw [hblank]
    rfl

end Json
end RestClient
