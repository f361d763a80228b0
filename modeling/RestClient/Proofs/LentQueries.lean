import RestClient.Proofs.Queries

/-!
# Lent queries

A reference without a question mark has no query of its own.  The address that it means has none
either, but where the reference consists of no more than a fragment: then the base lends its query.
-/

namespace RestClient
namespace Url

variable {base url : Url} {kind : Kind} {scheme input reference : List Char} {gaps : List Nat}

/-- There is nothing in the text, or nothing in front of a fragment. -/
def isBlank : List Char -> Bool
  | [] => true
  | c :: _ => c == '#'

theorem isBlank_cons (c : Char) (rest : List Char) : isBlank (c :: rest) = (c == '#') := rfl

theorem isBlank_of_isSlash {c : Char} (h : isSlash c = true) (rest : List Char) :
    isBlank (c :: rest) = false := by
  rw [isBlank_cons, beq_eq_false_iff_ne]
  rintro rfl
  exact Bool.noConfusion h

/-- The reference means an address with the query of the base. -/
def lendsQuery (base : Url) (reference : List Char) : Bool :=
  match splitScheme (clean reference) with
  | some (own, rest) => base.scheme == own && kindOf own != .other && isBlank rest
  | none => isBlank (clean reference)

/-!
## Authorities
-/

theorem query_withTail (h : '?' ∉ input) (kind : Kind) (url : Url) :
    (withTail kind url input).query = none := by
  have hinside : '?' ∉ input.dropWhile fun c => !endsPath c :=
    fun hmem => h (List.dropWhile_subset _ hmem)
  unfold withTail
  split
  · rename_i rest htail
    exact absurd (htail ▸ List.mem_cons_self) hinside
  · rfl
  · rfl

theorem mem_of_readUserinfo {info : Userinfo} {c : Char} (h : readUserinfo kind input = .ok info)
    (hc : c ∈ info.rest) : c ∈ input := by
  have hwhole : forall {before after : List Char},
      splitLastAt '@' (input.takeWhile fun c => !kind.endsAuthority c) = some (before, after) ->
      c ∈ after ++ input.dropWhile (fun c => !kind.endsAuthority c) -> c ∈ input := by
    intro before after hsplit hmem
    rcases List.mem_append.mp hmem with hafter | hbehind
    · apply List.takeWhile_subset fun c => !kind.endsAuthority c
      rw [(eq_of_splitLastAt hsplit).1]
      exact List.mem_append_right _ (List.mem_cons_of_mem _ hafter)
    · exact List.dropWhile_subset _ hbehind
  unfold readUserinfo at h
  dsimp only at h
  split at h
  · cases h
    exact hc
  · rename_i host hsplit
    split_ifs at h
    cases h
    exact hwhole hsplit hc
  · rename_i username host _ hsplit
    cases h
    exact hwhole hsplit hc

theorem mem_of_splitHost {c : Char} (inside : Bool) (h : c ∈ (splitHost kind inside input).2) :
    c ∈ input := by
  induction input generalizing inside with
  | nil => exact h
  | cons d rest ih =>
    unfold splitHost at h
    split at h
    · exact h
    · exact List.mem_cons_of_mem d (ih _ h)

theorem mem_of_readPort {found : Option Nat × List Char} {c : Char}
    (h : readPort scheme input = .ok found) (hc : c ∈ found.2) : c ∈ input := by
  have hbehind : found.2 = input.dropWhile Char.isDigit := by
    unfold readPort at h
    dsimp only at h
    repeat' split at h
    all_goals cases h
    all_goals simp only [*]
  rw [hbehind] at hc
  exact List.dropWhile_subset _ hc

theorem query_readAuthority (h : '?' ∉ input) (hread : readAuthority kind scheme input = .ok url) :
    url.query = none := by
  unfold readAuthority at hread
  simp only [bind, Except.bind, pure, Except.pure, throw, throwThe, MonadExceptOf.throw] at hread
  cases hinfo : readUserinfo kind input with
  | error fault =>
    rw [hinfo] at hread
    cases hread
  | ok info =>
    rw [hinfo] at hread
    dsimp only at hread
    have hrest : '?' ∉ (splitHost kind false info.rest).2 :=
      fun hmem => h (mem_of_readUserinfo hinfo (mem_of_splitHost false hmem))
    have hbehind : forall {portText found}, (splitHost kind false info.rest).2 = ':' :: portText ->
        readPort scheme portText = .ok found -> '?' ∉ found.2 := by
      intro portText found hcolon hport hmem
      rw [hcolon] at hrest
      exact hrest (List.mem_cons_of_mem _ (mem_of_readPort hport hmem))
    -- Each way through the authority fails or ends with the path behind it or behind its port.
    repeat' split at hread
    all_goals cases hread
    · rename_i hcolon _ _ hport
      exact query_withTail (hbehind hcolon hport) _ _
    · exact query_withTail hrest _ _
    · rename_i hcolon _ _ hport
      exact query_withTail (hbehind hcolon hport) _ _
    · exact query_withTail hrest _ _

/-!
## Files
-/

theorem query_readFileHost (h : '?' ∉ input) (hread : readFileHost gaps input = .ok url) :
    url.query = none := by
  have hrest : '?' ∉ input.dropWhile fun c => !(isSlash c || endsPath c) :=
    fun hmem => h (List.dropWhile_subset _ hmem)
  unfold readFileHost at hread
  dsimp only at hread
  repeat' split at hread
  all_goals cases hread
  all_goals first | exact query_withTail h _ _ | exact query_withTail hrest _ _

theorem query_readFileRoot (h : '?' ∉ input) (base : Option Url) :
    (readFileRoot gaps base input).query = none := by
  unfold readFileRoot
  dsimp only
  repeat' split
  all_goals exact query_withTail h _ _

theorem query_readFileReference (h : '?' ∉ input) (base : Option Url) :
    (readFileReference gaps base input).query =
      if isBlank input then base.bind (·.query) else none := by
  unfold readFileReference
  rcases input with _ | ⟨c, rest⟩
  · cases base with
    | none => exact query_withTail h _ _
    | some base => rfl
  have hc : ¬ (c == '?') = true := fun heq => h (beq_iff_eq.mp heq ▸ List.mem_cons_self)
  dsimp only
  by_cases hslash : isSlash c = true
  · rw [if_pos hslash, isBlank_of_isSlash hslash]
    exact query_readFileRoot (fun hmem => h (List.mem_cons_of_mem c hmem)) base
  · rw [if_neg hslash]
    cases base with
    | none => exact (query_withTail h _ _).trans (ite_self _).symm
    | some base =>
      dsimp only
      rw [if_neg hc, isBlank_cons]
      by_cases hhash : (c == '#') = true
      · rw [if_pos hhash, if_pos hhash]
        rfl
      · rw [if_neg hhash, if_neg hhash]
        split
        · exact query_withTail h _ _
        · exact query_withTail h _ _

theorem query_readFile (h : '?' ∉ input) {base : Option Url}
    (hread : readFile gaps base input = .ok url) :
    url.query = if isBlank input then base.bind (·.query) else none := by
  unfold readFile at hread
  split at hread
  · rename_i a b rest
    split_ifs at hread with hslashes
    · have hinside : '?' ∉ rest :=
        fun hmem => h (List.mem_cons_of_mem a (List.mem_cons_of_mem b hmem))
      rw [isBlank_of_isSlash (Bool.and_eq_true_iff.mp hslashes).1]
      exact query_readFileHost hinside hread
    · cases hread
      exact query_readFileReference h base
  · cases hread
    exact query_readFileReference h base

/-!
## References
-/

theorem query_readRelative (h : '?' ∉ input) (hread : readRelative base input = .ok url) :
    url.query = if isBlank input then base.query else none := by
  unfold readRelative at hread
  rcases input with _ | ⟨c, rest⟩
  · cases hread
    rfl
  have hc : ¬ (c == '?') = true := fun heq => h (beq_iff_eq.mp heq ▸ List.mem_cons_self)
  have hrest : '?' ∉ rest := fun hmem => h (List.mem_cons_of_mem c hmem)
  dsimp only at hread
  rw [if_neg hc] at hread
  rw [isBlank_cons]
  by_cases hhash : (c == '#') = true
  · rw [if_pos hhash] at hread ⊢
    cases hread
    rfl
  rw [if_neg hhash] at hread ⊢
  by_cases hslash : isSlash c = true
  · rw [if_pos hslash] at hread
    rcases rest with _ | ⟨d, behind⟩
    · cases hread
      rfl
    · have hbehind : '?' ∉ behind := fun hmem => hrest (List.mem_cons_of_mem d hmem)
      dsimp only at hread
      by_cases hsecond : isSlash d = true
      · rw [if_pos hsecond] at hread
        split at hread
        · exact query_readAuthority hbehind hread
        · exact query_readAuthority (fun hmem => hbehind (List.dropWhile_subset _ hmem)) hread
      · rw [if_neg hsecond] at hread
        cases hread
        exact query_withTail hrest _ _
  · rw [if_neg hslash] at hread
    cases hread
    exact query_withTail h _ _

theorem query_readOther (h : '?' ∉ input) (hread : readOther scheme input = .ok url) :
    url.query = none := by
  unfold readOther at hread
  dsimp only at hread
  split at hread
  · rename_i rest
    have hrest : '?' ∉ rest := fun hmem => h (List.mem_cons_of_mem _ (List.mem_cons_of_mem _ hmem))
    exact query_readAuthority hrest hread
  · rename_i rest _
    cases hread
    exact query_withTail (fun hmem => h (List.mem_cons_of_mem _ hmem)) _ _
  · cases hread
    exact query_withTail h _ _

theorem query_readReference (h : '?' ∉ input)
    (hread : readReference gaps (some base) input = .ok url) :
    url.query = if isBlank input then base.query else none := by
  unfold readReference at hread
  dsimp only at hread
  split at hread
  · cases hread
    rfl
  · cases hpath : base.path with
    | plain text =>
      rw [hpath] at hread
      cases hread
    | segments list =>
      rw [hpath] at hread
      dsimp only at hread
      split_ifs at hread
      · exact query_readFile h hread
      · exact query_readRelative h hread

theorem query_readWithScheme (h : '?' ∉ input)
    (hread : readWithScheme gaps (some base) scheme input = .ok url) :
    url.query =
      if base.scheme == scheme && kindOf scheme != .other && isBlank input then base.query
      else none := by
  unfold readWithScheme at hread
  cases hkind : kindOf scheme with
  | other =>
    rw [hkind] at hread
    rw [bne_self_eq_false, Bool.and_false, Bool.false_and]
    exact query_readOther h hread
  | file =>
    rw [hkind] at hread
    by_cases hscheme : base.scheme = scheme
    · have hkept : (some base).filter (fun base => base.scheme = scheme) = some base :=
        Option.filter_some_pos (decide_eq_true hscheme)
      rw [hkept] at hread
      rw [beq_iff_eq.mpr hscheme]
      exact query_readFile h hread
    · have hgone : (some base).filter (fun base => base.scheme = scheme) = none :=
        Option.filter_some_neg (by simpa using hscheme)
      rw [hgone] at hread
      rw [beq_eq_false_iff_ne.mpr hscheme]
      exact (query_readFile h hread).trans (ite_self _)
  | special =>
    rw [hkind] at hread
    dsimp only at hread
    split_ifs at hread with hrelative
    · rw [(Bool.and_eq_true_iff.mp hrelative).2]
      exact query_readRelative h hread
    · rw [query_readAuthority (fun hmem => h (List.dropWhile_subset _ hmem)) hread]
      by_cases hscheme : (base.scheme == scheme) = true
      · have hslashes : isDoubleSlashed input = true := by
          rw [hscheme, Bool.and_true, decide_eq_true_iff] at hrelative
          exact decide_eq_true (Nat.le_of_not_lt hrelative)
        rcases isDoubleSlashed_iff.mp hslashes with ⟨c, d, rest, rfl, hslash, -⟩
        rw [isBlank_of_isSlash hslash, Bool.and_false]
        rfl
      · rw [Bool.eq_false_iff.mpr hscheme]
        rfl

theorem query_join (h : '?' ∉ reference) (hjoin : base.join reference = .ok url) :
    url.query = if base.lendsQuery reference then base.query else none := by
  have hclean : '?' ∉ clean reference := fun hmem => h (mem_of_mem_clean hmem)
  unfold join read at hjoin
  unfold lendsQuery
  dsimp only at hjoin
  cases hsplit : splitScheme (clean reference) with
  | none =>
    rw [hsplit] at hjoin
    exact query_readReference hclean hjoin
  | some found =>
    rw [hsplit] at hjoin
    exact query_readWithScheme (fun hmem => hclean (mem_of_splitScheme hsplit hmem)) hjoin

end Url
end RestClient
