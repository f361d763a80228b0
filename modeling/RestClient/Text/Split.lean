/-!
# Splitting text

Cutting a text at its separators: at each of them, or at the last occurrence of one.
-/

namespace RestClient

def splitBy (separates : Char -> Bool) : List Char -> List (List Char)
  | [] => [[]]
  | c :: rest =>
    if separates c then [] :: splitBy separates rest
    else
      match splitBy separates rest with
      | [] => [[c]]
      | part :: parts => (c :: part) :: parts

/-- The text before the last occurrence of a character, and the text behind it. -/
def splitLastAt (mark : Char) : List Char -> Option (List Char × List Char)
  | [] => none
  | c :: rest =>
    match splitLastAt mark rest with
    | some (before, after) => some (c :: before, after)
    | none => if c == mark then some ([], rest) else none

theorem splitLastAt_eq_none {mark : Char} {text : List Char}
    (h : splitLastAt mark text = none) : mark ∉ text := by
  induction text with
  | nil => simp
  | cons c rest ih =>
    rw [splitLastAt] at h
    cases hr : splitLastAt mark rest with
    | some parts => simp [hr] at h
    | none =>
      simp only [hr, beq_iff_eq, ite_eq_right_iff, reduceCtorEq, imp_false] at h
      have hrest := ih hr
      simp only [List.mem_cons, not_or]
      exact ⟨fun e => h e.symm, hrest⟩

theorem eq_of_splitLastAt {mark : Char} {text before after : List Char}
    (h : splitLastAt mark text = some (before, after)) :
    text = before ++ mark :: after ∧ mark ∉ after := by
  induction text generalizing before with
  | nil => simp [splitLastAt] at h
  | cons c rest ih =>
    rw [splitLastAt] at h
    cases hr : splitLastAt mark rest with
    | some parts =>
      simp only [hr, Option.some.injEq, Prod.mk.injEq] at h
      have hparts : splitLastAt mark rest = some (parts.1, after) := by rw [hr, ← h.2]
      have hrest := ih hparts
      rw [← h.1, List.cons_append, ← hrest.1]
      exact ⟨rfl, hrest.2⟩
    | none =>
      simp only [hr, beq_iff_eq, Option.ite_none_right_eq_some, Option.some.injEq,
        Prod.mk.injEq] at h
      have hmark := splitLastAt_eq_none hr
      rw [← h.2.1, ← h.2.2, h.1]
      exact ⟨rfl, hmark⟩

end RestClient
