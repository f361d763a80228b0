import RestClient.Json.Skip
import RestClient.Proofs.Grammar

/-!
# Skipping spelled values

A value that is skipped may be any form: the machine stops exactly behind the text that spells it,
whatever stands there.
-/

namespace RestClient
namespace Json

open Reader

/-!
## Runs of digits
-/

def NoDigit (rest : List UInt8) : Prop := rest.takeWhile isDigit = []

theorem noDigit_cons {b : UInt8} (h : isDigit b = false) (s : List UInt8) :
    NoDigit (b :: s) := by
  unfold NoDigit
  rw [List.takeWhile_cons_of_neg]
  simpa using h

theorem NoDigit.dropWhile {rest : List UInt8} (h : NoDigit rest) :
    rest.dropWhile isDigit = rest := by
  have hsplit := List.takeWhile_append_dropWhile (p := isDigit) (l := rest)
  rw [h] at hsplit
  exact hsplit

theorem Digits.takeWhile {digits rest : List UInt8} (h : Digits digits) (hrest : NoDigit rest) :
    (digits ++ rest).takeWhile isDigit = digits := by
  rw [List.takeWhile_append_of_pos h, hrest, List.append_nil]

theorem Digits.dropWhile {digits rest : List UInt8} (h : Digits digits) (hrest : NoDigit rest) :
    (digits ++ rest).dropWhile isDigit = rest := by
  rw [List.dropWhile_append_of_pos h, hrest.dropWhile]

theorem Delimits.noDigit {rest : List UInt8} (h : Delimits rest) : NoDigit rest := by
  have hall : forall b, b ∈ delimiters -> isDigit b = false := by decide +kernel
  cases h with
  | nil => rfl
  | cons hb s => exact noDigit_cons (hall _ hb) s

theorem IsExponent.noDigit {exponent rest : List UInt8} (h : IsExponent exponent)
    (hrest : Delimits rest) : NoDigit (exponent ++ rest) := by
  cases h with
  | none => exact hrest.noDigit
  | digits he hsign h =>
    apply noDigit_cons
    rcases he with rfl | rfl <;> rfl

theorem IsFraction.noDigit {fraction rest : List UInt8} (h : IsFraction fraction)
    (hrest : NoDigit rest) : NoDigit (fraction ++ rest) := by
  cases h with
  | none => exact hrest
  | digits h => exact noDigit_cons rfl _

theorem NoDigit.head {b : UInt8} {s : List UInt8} (h : NoDigit (b :: s)) : isDigit b = false := by
  rw [Bool.eq_false_iff]
  intro hb
  unfold NoDigit at h
  rw [List.takeWhile_cons_of_pos hb] at h
  cases h

theorem ne_of_isDigit {d b : UInt8} (hd : isDigit d = true) (hb : isDigit b = false) :
    d ≠ b := by
  intro heq
  rw [heq, hb] at hd
  cases hd

theorem ne_of_mem_delimiters {b : UInt8} (h : b ∈ delimiters) :
    b ≠ byte '.' ∧ b ≠ byte 'e' ∧ b ≠ byte 'E' := by
  have hall : forall b, b ∈ delimiters -> b ≠ byte '.' ∧ b ≠ byte 'e' ∧ b ≠ byte 'E' := by
    decide +kernel
  exact hall b h

theorem IsExponent.ne_point {exponent rest s : List UInt8} {b : UInt8} (h : IsExponent exponent)
    (hrest : Delimits rest) (hs : exponent ++ rest = b :: s) : b ≠ byte '.' := by
  cases h with
  | none =>
    cases hrest with
    | nil => cases hs
    | cons hb s =>
      cases hs
      exact (ne_of_mem_delimiters hb).1
  | digits he hsign h =>
    cases hs
    rcases he with rfl | rfl <;> decide

namespace Skip

/-!
## Scalars
-/

theorem string_quote (s : List UInt8) : string (byte '"' :: s) = .ok s := by
  rw [string.eq_def]
  exact if_pos rfl

theorem string_plain {b : UInt8} (hquote : b ≠ byte '"') (hescape : b ≠ byte '\\')
    (hcontrol : ¬ b < 0x20) (s : List UInt8) : string (b :: s) = string s := by
  conv => lhs; rw [string.eq_def]
  dsimp only
  rw [if_neg (by simpa using hquote), if_neg (by simpa using hescape), if_neg hcontrol]

theorem string_short {e : UInt8} (he : e ∈ shortEscapes) (s : List UInt8) :
    string (byte '\\' :: e :: s) = string s := by
  have hall : forall e, e ∈ shortEscapes -> e ≠ byte 'u' ∧ (shortEscape? e).isSome = true := by
    decide +kernel
  rcases Option.isSome_iff_exists.mp (hall e he).2 with ⟨c, hc⟩
  conv => lhs; rw [string.eq_def]
  dsimp only
  rw [if_neg (by decide), if_pos (by decide), if_neg (by simpa using (hall e he).1), hc]

theorem isSome_hexDigit? {b : UInt8} (h : isHex b = true) : (hexDigit? b).isSome = true := by
  unfold isHex at h
  unfold hexDigit?
  grind

theorem exists_hexUnit? {a b c d : UInt8} (h : forall x, x ∈ [a, b, c, d] -> isHex x = true) :
    exists n, hexUnit? a b c d = some n := by
  have hsome := fun x hx => Option.isSome_iff_exists.mp (isSome_hexDigit? (h x hx))
  rcases hsome a (by simp) with ⟨i, hi⟩
  rcases hsome b (by simp) with ⟨j, hj⟩
  rcases hsome c (by simp) with ⟨k, hk⟩
  rcases hsome d (by simp) with ⟨l, hl⟩
  unfold hexUnit?
  rw [hi, hj, hk, hl]
  exact ⟨_, rfl⟩

theorem string_unit {a b c d : UInt8} (h : forall x, x ∈ [a, b, c, d] -> isHex x = true)
    (s : List UInt8) :
    string (byte '\\' :: byte 'u' :: a :: b :: c :: d :: s) = string s := by
  rcases exists_hexUnit? h with ⟨n, hn⟩
  conv => lhs; rw [string.eq_def]
  dsimp only
  rw [if_neg (by decide), if_pos (by decide), if_pos (by decide), hn]

theorem string_of_isContent {raw : List UInt8} (h : IsContent raw) (rest : List UInt8) :
    string (raw ++ byte '"' :: rest) = .ok rest := by
  induction h with
  | nil => exact string_quote rest
  | plain hquote hescape hcontrol h ih =>
    rw [List.cons_append, string_plain hquote hescape hcontrol]
    exact ih
  | short he h ih =>
    rw [List.cons_append, List.cons_append, string_short he]
    exact ih
  | unit hhex h ih =>
    simp only [List.cons_append]
    rw [string_unit hhex]
    exact ih

theorem exponent_of_digits {d : UInt8} {sign digits rest : List UInt8} (hsign : IsSign sign)
    (h : Digits (d :: digits)) (hrest : NoDigit rest) :
    exponent (sign ++ d :: (digits ++ rest)) = .ok rest := by
  have hd := h d List.mem_cons_self
  have hdigits : Digits digits := fun b hb => h b (List.mem_cons_of_mem d hb)
  have hplus : d ≠ byte '+' := ne_of_isDigit hd rfl
  have hminus : d ≠ byte '-' := ne_of_isDigit hd rfl
  have hdrop := hdigits.dropWhile hrest
  cases hsign with
  | none => simp [exponent, hplus, hminus, hd, hdrop]
  | plus => simp [exponent, hd, hdrop]
  | minus => simp [exponent, hd, hdrop]

theorem exponent?_of_isExponent {exponent rest : List UInt8} (h : IsExponent exponent)
    (hrest : Delimits rest) : exponent? (exponent ++ rest) = .ok rest := by
  cases h with
  | none =>
    cases hrest with
    | nil => rfl
    | cons hb s =>
      have hne := ne_of_mem_delimiters hb
      simp [exponent?, hne]
  | @digits e d sign digits he hsign h =>
    have hexponent := exponent_of_digits hsign h hrest.noDigit
    rw [List.cons_append, List.append_assoc]
    rcases he with rfl | rfl
    · exact hexponent
    · exact hexponent

theorem fraction?_of_isFraction {fraction exponent rest : List UInt8}
    (hfraction : IsFraction fraction) (hexponent : IsExponent exponent) (hrest : Delimits rest) :
    fraction? (fraction ++ (exponent ++ rest)) = .ok rest := by
  have hskip := exponent?_of_isExponent hexponent hrest
  cases hfraction with
  | none =>
    rw [List.nil_append]
    cases hs : exponent ++ rest with
    | nil =>
      rw [hs] at hskip
      exact hskip
    | cons b s =>
      have hne := hexponent.ne_point hrest hs
      rw [hs] at hskip
      unfold fraction?
      dsimp only
      rw [if_neg (by simpa using hne)]
      exact hskip
  | @digits d digits h =>
    have hnext := hexponent.noDigit hrest
    have htake := h.takeWhile hnext
    have hdrop := h.dropWhile hnext
    rw [List.cons_append] at htake hdrop
    rw [List.cons_append, List.cons_append]
    unfold fraction?
    dsimp only
    rw [if_pos (by decide), htake, hdrop]
    exact hskip

theorem number_of_isNumber {text rest : List UInt8} (h : IsNumber text) (hrest : Delimits rest) :
    number (text ++ rest) = .ok rest := by
  rcases h with ⟨hwhole, hfraction, hexponent⟩
  have hnext := hfraction.noDigit (hexponent.noDigit hrest)
  have hskip := fraction?_of_isFraction hfraction hexponent hrest
  rw [List.append_assoc, List.append_assoc]
  cases hwhole with
  | zero =>
    generalize _ ++ (_ ++ rest) = s at hnext hskip
    cases s with
    | nil => exact hskip
    | cons d s =>
      have hd := hnext.head
      unfold number
      dsimp only [List.cons_append, List.nil_append]
      rw [if_pos (by decide), if_neg (by simpa using hd)]
      exact hskip
  | @digits d digits hd hne h =>
    have hdrop := h.dropWhile hnext
    unfold number
    dsimp only [List.cons_append]
    rw [if_neg (by simpa using hne), if_pos hd, hdrop]
    exact hskip

/-!
## Values
-/

/-- The machine goes on, by at least one byte each time. -/
inductive Passes : State -> List UInt8 -> State -> List UInt8 -> Prop where
  | refl (st : State) (s : List UInt8) : Passes st s st s
  | step {st next last : State} {s r t : List UInt8} (hdone : st.done = false)
      (hstep : step st s = .ok (next, r)) (hlt : r.length < s.length)
      (h : Passes next r last t) : Passes st s last t

theorem Passes.trans {st next last : State} {s r t : List UInt8} (h : Passes st s next r)
    (h' : Passes next r last t) : Passes st s last t := by
  induction h with
  | refl st s => exact h'
  | step hdone hstep hlt h ih => exact .step hdone hstep hlt (ih h')

theorem Passes.run_eq {st last : State} {s t : List UInt8} (h : Passes st s last t)
    (hdone : last.done = true) {fuel : Nat} (hfuel : s.length ≤ fuel) :
    run fuel st s = .ok t := by
  induction h generalizing fuel with
  | refl st s =>
    unfold run
    cases fuel <;> exact if_pos hdone
  | @step st next last s r t hopen hstep hlt h ih =>
    cases fuel with
    | zero => omega
    | succ fuel =>
      rw [run, if_neg (by simp [hopen]), hstep]
      exact ih hdone (by omega)

def IsPassed : Piece -> List UInt8 -> Prop
  | .value _, s => forall brackets pad rest, Spaces pad -> Delimits rest ->
    Passes ⟨.value, brackets⟩ (pad ++ (s ++ rest)) ⟨.ended, brackets⟩ rest
  | .items first _, s => forall outer rest,
    Passes ⟨if first then .opened else .ended, .list :: outer⟩ (s ++ rest) ⟨.ended, outer⟩ rest
  | .members first _, s => forall outer rest,
    Passes ⟨if first then .opened else .ended, .object :: outer⟩ (s ++ rest) ⟨.ended, outer⟩ rest

theorem value_of_isScalar {text rest : List UInt8} (h : IsScalar text) (hrest : Delimits rest)
    (brackets : List Bracket) :
    value brackets (text ++ rest) = .ok (⟨.ended, brackets⟩, rest) := by
  cases h with
  | null => rfl
  | true => rfl
  | false => rfl
  | number h =>
    have hskip := number_of_isNumber h hrest
    rcases h.exists_cons with ⟨d, s, rfl, hd⟩
    have hn : d ≠ byte 'n' := ne_of_isDigit hd rfl
    have ht : d ≠ byte 't' := ne_of_isDigit hd rfl
    have hf : d ≠ byte 'f' := ne_of_isDigit hd rfl
    have hminus : d ≠ byte '-' := ne_of_isDigit hd rfl
    rw [List.cons_append] at hskip ⊢
    unfold value
    dsimp only
    rw [if_neg (by simpa using hn), if_neg (by simpa using ht), if_neg (by simpa using hf),
      if_neg (by simpa using hminus), if_pos hd, hskip]
    rfl
  | @negative text h =>
    have hskip := number_of_isNumber h hrest
    change andThen ⟨.ended, brackets⟩ (number (text ++ rest)) = _
    rw [hskip]
    rfl
  | @string raw h =>
    have hskip := string_of_isContent h rest
    have happend : raw ++ [byte '"'] ++ rest = raw ++ byte '"' :: rest := by simp
    change andThen ⟨.ended, brackets⟩ (string (raw ++ [byte '"'] ++ rest)) = _
    rw [happend, hskip]
    rfl

theorem key_of_spaces {space before : List UInt8} (hspace : Spaces space)
    (hbefore : Spaces before) (key : Key) (brackets : List Bracket) (s : List UInt8) :
    Skip.key brackets (space ++ byte '"' :: (key.raw ++ (byte '"' :: (before ++ byte ':' :: s)))) =
      .ok (⟨.value, brackets⟩, s) := by
  have hquote : byte '"' ∉ delimiters := by decide
  have hcolon : byte ':' ∉ delimiters := by decide
  have hskip := string_of_isContent key.isContent (before ++ byte ':' :: s)
  unfold Skip.key
  rw [skipSpace_append hspace, skipSpace_of_not_mem hquote]
  dsimp only
  rw [if_pos (by decide), hskip]
  dsimp only
  rw [skipSpace_append hbefore, skipSpace_of_not_mem hcolon]
  rfl

theorem step_append {pad : List UInt8} (hpad : Spaces pad) (phase : Phase) (bracket : Bracket)
    (outer : List Bracket) (s : List UInt8) :
    step ⟨phase, bracket :: outer⟩ (pad ++ s) = step ⟨phase, bracket :: outer⟩ s := by
  cases phase <;> cases bracket <;> simp only [step, skipSpace_append hpad]

theorem step_opened {pad text : List UInt8} {form : Form} (hpad : Spaces pad)
    (h : Spells (.value form) text) (outer : List Bracket) (rest : List UInt8) :
    step ⟨.opened, .list :: outer⟩ (pad ++ (text ++ rest)) =
      step ⟨.value, .list :: outer⟩ (pad ++ (text ++ rest)) := by
  rcases h.exists_cons with ⟨b, s, rfl, hb⟩
  have hne : b ≠ byte ']' := by
    rintro rfl
    exact hb (by decide)
  rw [step_append hpad, step_append hpad, List.cons_append]
  simp [step, skipSpace_of_not_mem hb, hne]

def closing : Bracket -> UInt8
  | .list => byte ']'
  | .object => byte '\x7d'

theorem step_closing (first : Bool) (bracket : Bracket) {pad : List UInt8} (hpad : Spaces pad)
    (outer : List Bracket) (rest : List UInt8) :
    step ⟨if first then .opened else .ended, bracket :: outer⟩ (pad ++ [closing bracket] ++ rest) =
      .ok (⟨.ended, outer⟩, rest) := by
  rw [List.append_assoc, step_append hpad]
  cases first <;> cases bracket <;> rfl

theorem step_comma {pad : List UInt8} (hpad : Spaces pad) (outer : List Bracket)
    (s : List UInt8) :
    step ⟨.ended, .list :: outer⟩ (pad ++ byte ',' :: s) =
      .ok (⟨.value, .list :: outer⟩, s) := by
  rw [step_append hpad]
  rfl

theorem step_key (first : Bool) {pad space before : List UInt8} (hpad : Spaces pad)
    (hspace : Spaces space) (hbefore : Spaces before) (key : Key) (outer : List Bracket)
    (s : List UInt8) :
    step ⟨if first then .opened else .ended, .object :: outer⟩
        (pad ++ (separator first ++ (space ++ byte '"' :: (key.raw ++ (byte '"' ::
          (before ++ byte ':' :: s)))))) =
      .ok (⟨.value, .object :: outer⟩, s) := by
  rw [step_append hpad]
  cases first with
  | true =>
    have hquote : byte '"' ∉ delimiters := by decide
    have hkey := key_of_spaces spaces_nil hbefore key (.object :: outer) s
    have hstep := step_append hspace .opened .object outer
    refine (hstep _).trans ?_
    simp only [step, skipSpace_of_not_mem hquote]
    exact hkey
  | false => exact key_of_spaces hspace hbefore key (.object :: outer) s

theorem isPassed_of_spells {piece : Piece} {s : List UInt8} (h : Spells piece s) :
    IsPassed piece s := by
  -- By induction on the spelling.  Every bracket that a piece opens is closed at its end, so that
  -- the brackets around it stay as they are.
  induction h with
  | scalar scalar =>
    intro brackets pad rest hpad hrest
    rcases scalar.isScalar.exists_cons with ⟨b, s, htext, hb⟩
    refine .step rfl (r := rest) ?_ ?_ (.refl _ _)
    · change value brackets (skipSpace (pad ++ (scalar.text ++ rest))) = _
      rw [skipSpace_append hpad, htext, List.cons_append, skipSpace_of_not_mem hb,
        ← List.cons_append, ← htext]
      exact value_of_isScalar scalar.isScalar hrest brackets
    · rw [htext]
      simp
      omega
  | @list items s h ih =>
    intro brackets pad rest hpad hrest
    refine .step rfl (r := s ++ rest) ?_ ?_ (ih brackets rest)
    · change value brackets (skipSpace (pad ++ byte '[' :: (s ++ rest))) = _
      rw [skipSpace_append hpad, skipSpace_of_not_mem (by decide)]
      rfl
    · simp
      omega
  | @object members s h ih =>
    intro brackets pad rest hpad hrest
    refine .step rfl (r := s ++ rest) ?_ ?_ (ih brackets rest)
    · change value brackets (skipSpace (pad ++ byte '\x7b' :: (s ++ rest))) = _
      rw [skipSpace_append hpad, skipSpace_of_not_mem (by decide)]
      rfl
    · simp
      omega
  | @closeList first pad hpad =>
    intro outer rest
    refine .step (by cases first <;> rfl) (r := rest) ?_ ?_ (.refl _ _)
    · exact step_closing first .list hpad outer rest
    · simp
      omega
  | @item first pad space text s form items hpad hspace hform h ihform ih =>
    intro outer rest
    have hafter := ih outer rest
    cases first with
    | true =>
      have htext : pad ++ (separator true ++ (space ++ (text ++ s))) ++ rest =
          pad ++ space ++ (text ++ (s ++ rest)) := by
        simp [separator]
      have hpads := spaces_append hpad hspace
      rw [htext]
      cases ihform (.list :: outer) (pad ++ space) (s ++ rest) hpads (h.delimits_items rest) with
      | step hdone hstep hlt hmore =>
        have hopened := step_opened hpads hform outer (s ++ rest)
        exact .step rfl (hopened.trans hstep) hlt (hmore.trans hafter)
    | false =>
      have htext : pad ++ (separator false ++ (space ++ (text ++ s))) ++ rest =
          pad ++ byte ',' :: (space ++ (text ++ (s ++ rest))) := by
        simp [separator]
      rw [htext]
      refine .step rfl (step_comma hpad outer _) ?_ ?_
      · simp
        omega
      · exact (ihform (.list :: outer) space (s ++ rest) hspace (h.delimits_items rest)).trans
          hafter
  | @closeObject first pad hpad =>
    intro outer rest
    refine .step (by cases first <;> rfl) (r := rest) ?_ ?_ (.refl _ _)
    · exact step_closing first .object hpad outer rest
    · simp
      omega
  | @member first pad space before after text s key form members hpad hspace hbefore hafter hform
      h ihform ih =>
    intro outer rest
    have htext : pad ++ (separator first ++ (space ++ (byte '"' :: (key.raw ++ (byte '"' ::
        (before ++ (byte ':' :: (after ++ (text ++ s))))))))) ++ rest =
        pad ++ (separator first ++ (space ++ byte '"' :: (key.raw ++ (byte '"' ::
          (before ++ byte ':' :: (after ++ (text ++ (s ++ rest)))))))) := by
      simp
    rw [htext]
    refine .step (by cases first <;> rfl)
      (step_key first hpad hspace hbefore key outer (after ++ (text ++ (s ++ rest)))) ?_ ?_
    · simp
      omega
    · exact (ihform (.object :: outer) after (s ++ rest) hafter (h.delimits_members rest)).trans
        (ih outer rest)

end Skip

theorem skip_of_spells {form : Form} {pad text rest : List UInt8} (hpad : Spaces pad)
    (h : Spells (.value form) text) (hrest : Delimits rest) :
    skip (pad ++ (text ++ rest)) = .ok ((), rest) := by
  have hpasses := Skip.isPassed_of_spells h [] pad rest hpad hrest
  unfold skip
  rw [hpasses.run_eq rfl (Nat.le_succ _)]

end Json
end RestClient
