import RestClient.Client.Basic
import RestClient.Proofs.Templates
import Mathlib.Data.List.TakeWhile

/-!
# Joining roots and segments

A reader of addresses keeps encoded segments as they are: behind a root whose path ends with a
slash they are added one by one, and the text of the address grows by just their text.
-/

namespace RestClient

/-!
## Splitting
-/

section Splitting

variable {separates : Char -> Bool} {mark : Char} {text : List Char} {parts : List (List Char)}

theorem splitBy_of_none (h : forall c, c ∈ text -> separates c = false) :
    splitBy separates text = [text] := by
  induction text with
  | nil => rfl
  | cons c rest ih =>
    rw [splitBy, if_neg (by simp [h c List.mem_cons_self]),
      ih fun d hd => h d (List.mem_cons_of_mem c hd)]

theorem splitBy_ne_nil (text : List Char) : splitBy separates text ≠ [] := by
  cases text with
  | nil => exact List.cons_ne_nil _ _
  | cons c rest =>
    rw [splitBy]
    split
    · exact List.cons_ne_nil _ _
    · split
      · exact List.cons_ne_nil _ _
      · exact List.cons_ne_nil _ _

theorem splitBy_append (hmark : separates mark = true) (text rest : List Char) :
    splitBy separates (text ++ mark :: rest) =
      splitBy separates text ++ splitBy separates rest := by
  induction text with
  | nil => exact if_pos hmark
  | cons c text ih =>
    rw [List.cons_append, splitBy, splitBy, ih]
    by_cases hc : separates c = true
    · rw [if_pos hc, if_pos hc, List.cons_append]
    · rw [if_neg hc, if_neg hc]
      cases hparts : splitBy separates text with
      | nil => exact absurd hparts (splitBy_ne_nil text)
      | cons part parts => rfl

theorem splitBy_intercalate (hmark : separates mark = true) (hne : parts ≠ [])
    (h : forall part, part ∈ parts -> forall c, c ∈ part -> separates c = false) :
    splitBy separates (List.intercalate [mark] parts) = parts := by
  induction parts with
  | nil => exact absurd rfl hne
  | cons part parts ih =>
    have hpart := h part List.mem_cons_self
    cases parts with
    | nil =>
      rw [List.intercalate_singleton]
      exact splitBy_of_none hpart
    | cons second parts =>
      rw [List.intercalate_cons_cons, List.append_assoc, List.singleton_append,
        splitBy_append hmark, splitBy_of_none hpart, List.singleton_append,
        ih (List.cons_ne_nil _ _) fun later hlater => h later (List.mem_cons_of_mem _ hlater)]

theorem mem_intercalate {c : Char} (h : c ∈ List.intercalate [mark] parts) :
    c = mark ∨ exists part, part ∈ parts ∧ c ∈ part := by
  induction parts with
  | nil => cases h
  | cons part parts ih =>
    cases parts with
    | nil =>
      rw [List.intercalate_singleton] at h
      exact Or.inr ⟨part, List.mem_cons_self, h⟩
    | cons second parts =>
      rw [List.intercalate_cons_cons, List.mem_append, List.mem_append, List.mem_singleton] at h
      rcases h with (hpart | hmark) | hrest
      · exact Or.inr ⟨part, List.mem_cons_self, hpart⟩
      · exact Or.inl hmark
      · rcases ih hrest with hmark | ⟨later, hlater, hc⟩
        · exact Or.inl hmark
        · exact Or.inr ⟨later, List.mem_cons_of_mem _ hlater, hc⟩

end Splitting

namespace Url

/-!
## Plain paths
-/

/-- A character of a path that means nothing to a reader of addresses but itself or a slash. -/
def isPlain (c : Char) : Bool := Percent.isEncoded c || c == '/'

theorem toNat_lt_of_isPlain {c : Char} (h : isPlain c = true) : c.toNat < 128 := by
  unfold isPlain Percent.isEncoded Percent.isUnreserved Char.isAlphanum Char.isAlpha Char.isUpper
    Char.isLower Char.isDigit at h
  simp only [Bool.or_eq_true, Bool.and_eq_true, decide_eq_true_eq, beq_iff_eq,
    UInt32.le_iff_toNat_le, ge_iff_le] at h
  rcases h with (((((halnum | rfl) | rfl) | rfl) | rfl) | rfl) | rfl
  · change ((65 ≤ c.toNat ∧ c.toNat ≤ 90) ∨ (97 ≤ c.toNat ∧ c.toNat ≤ 122)) ∨
      (48 ≤ c.toNat ∧ c.toNat ≤ 57) at halnum
    omega
  all_goals decide

/-- A reader of addresses takes nothing away at the character, ends nothing there but a segment at
a slash, and keeps it as it is. -/
structure Inert (c : Char) : Prop where
  visible : 0x20 < c.toNat
  unbroken : isBreak c = false
  inside : endsPath c = false
  ne_colon : c ≠ ':'
  separates : Kind.special.separates c = (c == '/')
  stands : standsInPath c = true

instance (c : Char) : Decidable (Inert c) :=
  decidable_of_iff
    (0x20 < c.toNat ∧ isBreak c = false ∧ endsPath c = false ∧ c ≠ ':' ∧
      Kind.special.separates c = (c == '/') ∧ standsInPath c = true)
    ⟨fun ⟨h₁, h₂, h₃, h₄, h₅, h₆⟩ => ⟨h₁, h₂, h₃, h₄, h₅, h₆⟩,
      fun ⟨h₁, h₂, h₃, h₄, h₅, h₆⟩ => ⟨h₁, h₂, h₃, h₄, h₅, h₆⟩⟩

theorem inert_ofNat :
    forall n, n < 128 -> isPlain (Char.ofNat n) = true -> Inert (Char.ofNat n) := by
  decide +kernel

theorem inert_of_isPlain {c : Char} (h : isPlain c = true) : Inert c := by
  have hinert := inert_ofNat c.toNat (toNat_lt_of_isPlain h)
  rw [Char.ofNat_toNat] at hinert
  exact hinert h

section Plain

variable {text : List Char}

theorem clean_of_isPlain (h : forall c, c ∈ text -> isPlain c = true) : clean text = text := by
  have hstart : forall chars : List Char, (forall c, c ∈ chars -> isPlain c = true) ->
      chars.dropWhile (fun c => decide (c.toNat ≤ 0x20)) = chars := by
    intro chars hchars
    cases chars with
    | nil => rfl
    | cons c rest =>
      have hvisible := (inert_of_isPlain (hchars c List.mem_cons_self)).visible
      exact List.dropWhile_cons_of_neg (by simpa using hvisible)
  have htrim : trim text = text := by
    unfold trim
    dsimp only
    rw [hstart text h, hstart text.reverse fun c hc => h c (List.mem_reverse.mp hc),
      List.reverse_reverse]
  unfold clean
  rw [htrim, List.filter_eq_self]
  intro c hc
  rw [(inert_of_isPlain (h c hc)).unbroken]
  rfl

theorem splitScheme_of_isPlain (h : forall c, c ∈ text -> isPlain c = true) :
    splitScheme text = none := by
  cases text with
  | nil => rfl
  | cons first rest =>
    unfold splitScheme
    dsimp only
    by_cases halpha : first.isAlpha = true
    · rw [if_pos halpha]
      have hsubset := List.dropWhile_subset (l := first :: rest) isSchemeChar
      rcases hbehind : (first :: rest).dropWhile isSchemeChar with _ | ⟨c, behind⟩
      · rfl
      · have hc : c ∈ first :: rest := hsubset (by rw [hbehind]; exact List.mem_cons_self)
        have hcolon := (inert_of_isPlain (h c hc)).ne_colon
        split
        · rename_i heq
          exact absurd (List.cons.inj heq).1 hcolon
        · rfl
    · rw [if_neg halpha]

theorem withTail_of_endsPath (h : forall c, c ∈ text -> endsPath c = false) (kind : Kind)
    (url : Url) :
    withTail kind url text = { url with query := none, fragment := none } := by
  have hnone : text.dropWhile (fun c => !endsPath c) = [] := by
    rw [List.dropWhile_eq_nil_iff]
    intro c hc
    rw [h c hc]
    rfl
  unfold withTail
  rw [hnone]

theorem withTail_of_isPlain (h : forall c, c ∈ text -> isPlain c = true) (kind : Kind) (url : Url) :
    withTail kind url text = { url with query := none, fragment := none } :=
  withTail_of_endsPath (fun c hc => (inert_of_isPlain (h c hc)).inside) kind url

end Plain

/-!
## Joining
-/

structure IsKept (segment : List Char) : Prop where
  ne_nil : segment ≠ []
  encoded : forall c, c ∈ segment -> Percent.isEncoded c = true
  notDot : isSingleDot segment = false
  notDots : isDoubleDot segment = false

theorem isKept_encode {value : List Char} (h : Segment.IsProper value) :
    IsKept (Percent.encode Percent.isUnreserved value) := by
  have hne :
      forall other, (forall c, c ∈ other -> Percent.isUnreserved c = true) -> value ≠ other ->
      Percent.encode Percent.isUnreserved value ≠ other := by
    intro other hplain hvalue heq
    rw [← Percent.encode_eq_self hplain] at heq
    exact hvalue (Percent.encode_injective heq)
  constructor
  · exact hne [] (by simp) h.1
  · intro c hc
    exact Percent.isEncoded_of_mem_encode hc
  · unfold isSingleDot
    rw [dotText_encode]
    exact beq_eq_false_iff_ne.mpr (hne ['.'] (List.all_eq_true.mp (by decide)) h.2.1)
  · unfold isDoubleDot
    rw [dotText_encode]
    exact beq_eq_false_iff_ne.mpr (hne ['.', '.'] (List.all_eq_true.mp (by decide)) h.2.2)

variable {segments before : List (List Char)}

theorem isPlain_of_mem_intercalate (h : forall segment, segment ∈ segments -> IsKept segment)
    {c : Char}
    (hc : c ∈ List.intercalate ['/'] segments) : isPlain c = true := by
  rcases mem_intercalate hc with rfl | ⟨segment, hsegment, hmem⟩
  · rfl
  · exact Bool.or_eq_true_iff.mpr (Or.inl ((h segment hsegment).encoded c hmem))

theorem separates_of_isEncoded {c : Char} (h : Percent.isEncoded c = true) :
    Kind.special.separates c = false := by
  have hslash : c ≠ '/' := by
    rintro rfl
    revert h
    decide
  rw [(inert_of_isPlain (Bool.or_eq_true_iff.mpr (Or.inl h))).separates]
  exact beq_eq_false_iff_ne.mpr hslash

theorem pushAll_of_isKept {pieces : List Piece}
    (h : forall piece, piece ∈ pieces -> IsKept piece.text)
    (done : List (List Char)) : pushAll .special done pieces = done ++ pieces.map (·.text) := by
  have hpush : forall piece : Piece, IsKept piece.text -> forall done : List (List Char),
      pushInner .special done piece = done ++ [piece.text] ∧
        pushLast .special done piece = done ++ [piece.text] := by
    intro piece hpiece done
    unfold pushInner pushLast
    rw [hpiece.notDots, hpiece.notDot]
    exact ⟨rfl, rfl⟩
  induction pieces generalizing done with
  | nil => exact (List.append_nil done).symm
  | cons piece rest ih =>
    have hpiece := hpush piece (h piece List.mem_cons_self) done
    cases rest with
    | nil => exact hpiece.2
    | cons second rest =>
      rw [pushAll, ih fun later hlater => h later (List.mem_cons_of_mem _ hlater), hpiece.1,
        List.append_assoc, List.map_cons (a := piece)]
      · rfl
      · simp

theorem texts_piecesFrom (h : forall segment, segment ∈ segments -> IsKept segment)
    (gaps : List Nat)
    (behind : Nat) : (piecesFrom gaps behind segments).map (·.text) = segments := by
  induction segments generalizing behind with
  | nil => rfl
  | cons segment rest ih =>
    have hstands : forall c, c ∈ segment -> standsInPath c = true := by
      intro c hc
      have hencoded := (h segment List.mem_cons_self).encoded c hc
      exact (inert_of_isPlain (Bool.or_eq_true_iff.mpr (Or.inl hencoded))).stands
    rw [piecesFrom, List.map_cons, ih fun later hlater => h later (List.mem_cons_of_mem _ hlater),
      Percent.encode_eq_self hstands]

theorem readPath_of_isKept (hne : segments ≠ [])
    (h : forall segment, segment ∈ segments -> IsKept segment)
    (done : List (List Char)) :
    readPath .special [] done (List.intercalate ['/'] segments) = .segments (done ++ segments) := by
  have hinside : (List.intercalate ['/'] segments).takeWhile (fun c => !endsPath c) =
      List.intercalate ['/'] segments := by
    rw [List.takeWhile_eq_self_iff]
    intro c hc
    rw [(inert_of_isPlain (isPlain_of_mem_intercalate h hc)).inside]
    rfl
  have hsplit : splitBy Kind.special.separates (List.intercalate ['/'] segments) = segments :=
    splitBy_intercalate rfl hne fun segment hsegment c hc =>
      separates_of_isEncoded ((h segment hsegment).encoded c hc)
  have htexts := texts_piecesFrom h [] (List.intercalate ['/'] segments).length
  have hkept :
      forall piece, piece ∈ piecesFrom [] (List.intercalate ['/'] segments).length segments ->
      IsKept piece.text := by
    intro piece hpiece
    apply h
    rw [← htexts]
    exact List.mem_map_of_mem hpiece
  unfold readPath pieces
  rw [hinside, hsplit, pushAll_of_isKept hkept, htexts]
  rfl

theorem exists_cons_of_isKept (hne : segments ≠ [])
    (h : forall segment, segment ∈ segments -> IsKept segment) :
    exists c rest, List.intercalate ['/'] segments = c :: rest ∧ Percent.isEncoded c = true := by
  rcases segments with _ | ⟨segment, later⟩
  · exact absurd rfl hne
  have hsegment := h segment List.mem_cons_self
  rcases segment with _ | ⟨c, rest⟩
  · exact absurd rfl hsegment.ne_nil
  have hc := hsegment.encoded c List.mem_cons_self
  cases later with
  | nil => exact ⟨c, rest, List.intercalate_singleton, hc⟩
  | cons second later =>
    refine ⟨c, rest ++ ['/'] ++ List.intercalate ['/'] (second :: later), ?_, hc⟩
    rw [List.intercalate_cons_cons]
    rfl

def withSegments (url : Url) (list : List (List Char)) : Url :=
  { url with path := .segments list, query := none, fragment := none }

theorem join_of_isKept {base : Url} (hkind : kindOf base.scheme = .special)
    (hpath : base.path = .segments (before ++ [[]])) (hne : segments ≠ [])
    (h : forall segment, segment ∈ segments -> IsKept segment) :
    base.join (List.intercalate ['/'] segments) = .ok (base.withSegments (before ++ segments)) := by
  have hplain : forall c, c ∈ List.intercalate ['/'] segments -> isPlain c = true :=
    fun c hc => isPlain_of_mem_intercalate h hc
  have hopen : openSegments .special base = before := by
    unfold openSegments baseSegments
    rw [hpath]
    exact List.dropLast_concat
  have hread := readPath_of_isKept hne h before
  have htail := withTail_of_isPlain hplain .special
    { base with path := .segments (before ++ segments) }
  rcases exists_cons_of_isKept hne h with ⟨c, rest, htext, hc⟩
  unfold join read
  dsimp only
  rw [clean_of_isPlain hplain, splitScheme_of_isPlain hplain]
  rw [htext] at hread htail ⊢
  have hnoSlash : isSlash c = false := separates_of_isEncoded hc
  have hinert := inert_of_isPlain (Bool.or_eq_true_iff.mpr (Or.inl hc))
  have hinside := hinert.inside
  unfold endsPath at hinside
  rw [Bool.or_eq_false_iff] at hinside
  have hrelative : readRelative base (c :: rest) =
      .ok (base.withSegments (before ++ segments)) := by
    unfold readRelative
    rw [hkind]
    dsimp only
    rw [hinside.1, hinside.2, hnoSlash, hopen, hread, htail]
    rfl
  have hhash : c ≠ '#' := by
    rintro rfl
    exact Bool.noConfusion hinside.2
  unfold readReference
  dsimp only
  split
  · rename_i heq
    exact absurd (List.cons.inj heq).1 hhash
  · rw [hpath, hkind]
    exact hrelative

/-!
## Roots
-/

theorem withTail_cases (kind : Kind) (url : Url) (input : List Char) :
    exists query fragment, withTail kind url input = { url with query, fragment } := by
  unfold withTail
  split
  · dsimp only
    split
    · exact ⟨_, _, rfl⟩
    · exact ⟨_, _, rfl⟩
  · exact ⟨_, _, rfl⟩
  · exact ⟨_, _, rfl⟩

structure IsRooted (url : Url) : Prop where
  host : url.host.isSome = true
  path : exists list, url.path = .segments list

theorem isRooted_withTail {url : Url} (h : url.IsRooted) (kind : Kind) (input : List Char) :
    (withTail kind url input).IsRooted := by
  rcases withTail_cases kind url input with ⟨query, fragment, htail⟩
  rw [htail]
  exact ⟨h.host, h.path⟩

theorem readPathStart_segments (kind : Kind) (input : List Char) :
    exists list, readPathStart kind input = .segments list := by
  unfold readPathStart
  split
  · split_ifs
    · exact ⟨_, rfl⟩
    · exact ⟨_, rfl⟩
  · split_ifs
    · exact ⟨_, rfl⟩
    · exact ⟨_, rfl⟩
    · exact ⟨_, rfl⟩

theorem isRooted_readAuthority {kind : Kind} {scheme input : List Char} {url : Url}
    (h : readAuthority kind scheme input = .ok url) : url.IsRooted := by
  have hread : forall username password host port rest, (withTail kind
      { scheme, username, password, host := some host, port, path := readPathStart kind rest,
        query := none, fragment := none } rest).IsRooted :=
    fun _ _ _ _ rest => isRooted_withTail ⟨rfl, readPathStart_segments kind rest⟩ kind rest
  unfold readAuthority at h
  simp only [bind, Except.bind, pure, Except.pure, throw, throwThe, MonadExceptOf.throw] at h
  -- Each way through the authority fails or ends with the path behind it.
  repeat' split at h
  all_goals cases h
  all_goals exact hread _ _ _ _ _

theorem isRooted_fileUrl (host : Host) (gaps : List Nat) (done : List (List Char))
    (path input : List Char) :
    (withTail .file (fileUrl host (readPath .file gaps done path)) input).IsRooted :=
  isRooted_withTail ⟨rfl, _, rfl⟩ .file input

theorem isRooted_readFile {gaps : List Nat} {input : List Char} {url : Url}
    (h : readFile gaps none input = .ok url) : url.IsRooted := by
  have hreference : (readFileReference gaps none input).IsRooted := by
    unfold readFileReference
    cases input with
    | nil => exact isRooted_fileUrl _ _ _ _ _
    | cons c rest =>
      dsimp only
      by_cases hslash : isSlash c = true
      · rw [if_pos hslash]
        exact isRooted_fileUrl _ _ _ _ _
      · rw [if_neg hslash]
        exact isRooted_fileUrl _ _ _ _ _
  unfold readFile at h
  split at h
  · split_ifs at h
    · unfold readFileHost at h
      dsimp only at h
      repeat' split at h
      all_goals cases h
      all_goals exact isRooted_fileUrl _ _ _ _ _
    · cases h
      exact hreference
  · cases h
    exact hreference

theorem isRooted_parse {text : String} {url : Url} (h : parse text = .ok url)
    (hkind : kindOf url.scheme = .special) : url.IsRooted := by
  unfold parse read at h
  dsimp only at h
  split at h
  · rename_i scheme rest hscheme
    unfold readWithScheme at h
    split at h
    · exact isRooted_readFile h
    · rename_i hother
      have hkept : forall bare : Url, bare.scheme = scheme -> forall input,
          kindOf (withTail .other bare input).scheme ≠ .special := by
        rintro bare rfl input
        rcases withTail_cases .other bare input with ⟨query, fragment, htail⟩
        rw [htail, hother]
        exact Kind.noConfusion
      unfold readOther at h
      dsimp only at h
      split at h
      · exact isRooted_readAuthority h
      · cases h
        exact absurd hkind (hkept _ rfl _)
      · cases h
        exact absurd hkind (hkept _ rfl _)
    · exact isRooted_readAuthority h
  · cases h

theorem scheme_closed (url : Url) : url.closed.scheme = url.scheme := by
  unfold closed
  split
  · split_ifs
    · rfl
    · rfl
    · rfl
  · split_ifs
    · rfl
    · rfl

/-- The last of some pieces that are added is the last segment. -/
theorem pushAll_concat (kind : Kind) (done : List (List Char)) (pieces : List Piece)
    (last : Piece) :
    exists reached, pushAll kind done (pieces ++ [last]) = pushLast kind reached last := by
  induction pieces generalizing done with
  | nil => exact ⟨done, rfl⟩
  | cons piece rest ih =>
    rcases ih (pushInner kind done piece) with ⟨reached, hreached⟩
    refine ⟨reached, ?_⟩
    rw [← hreached, List.cons_append]
    cases rest with
    | nil => rfl
    | cons second rest => rfl

theorem closed_cases {url : Url} (h : url.IsRooted) (hkind : kindOf url.scheme = .special) :
    exists before, url.closed = { url with path := .segments (before ++ [[]]) } := by
  rcases h.path with ⟨list, hpath⟩
  unfold closed
  rw [hpath]
  dsimp only
  by_cases hlast : (list.getLast? == some []) = true
  · rcases List.getLast?_eq_some_iff.mp (beq_iff_eq.mp hlast) with ⟨before, hbefore⟩
    refine ⟨before, ?_⟩
    rw [if_pos hlast, ← hbefore, ← hpath]
  · rw [if_neg hlast, hkind]
    rcases pushAll_concat .special [] (list.map fun segment => ⟨segment, false⟩) ⟨[], false⟩ with
      ⟨before, hbefore⟩
    refine ⟨before, ?_⟩
    have hreread : reread .special (list ++ [[]]) = .segments (before ++ [[]]) := by
      unfold reread
      rw [List.map_append]
      exact congrArg UrlPath.segments hbefore
    rw [hreread]

/-- An address of the web that has a host, and a slash at the end of its path. -/
structure IsRoot (root : Url) : Prop where
  scheme : root.scheme = "http".toList ∨ root.scheme = "https".toList
  host : root.host.isSome = true
  path : exists before, root.path = .segments (before ++ [[]])

theorem kindOf_eq_special {scheme : List Char}
    (h : scheme = "http".toList ∨ scheme = "https".toList) : kindOf scheme = .special := by
  rcases h with rfl | rfl
  · rfl
  · rfl

theorem IsRoot.kindOf_scheme {root : Url} (h : root.IsRoot) : kindOf root.scheme = .special :=
  kindOf_eq_special h.scheme

/-- Whatever address of the web a builder accepts, it keeps as such a root. -/
theorem isRoot_of_withRoot {builder builder' : Client.Builder} {text : String} {root : Url}
    (h : builder.withRoot text = .ok builder') (hroot : builder'.root = some root)
    (hscheme : root.scheme = "http".toList ∨ root.scheme = "https".toList) : root.IsRoot := by
  unfold Client.Builder.withRoot at h
  cases hparse : parse text with
  | error fault =>
    rw [hparse] at h
    cases h
  | ok url =>
    rw [hparse] at h
    cases h
    cases hroot
    rw [scheme_closed] at hscheme
    have hkind := kindOf_eq_special hscheme
    have hrooted := isRooted_parse hparse hkind
    rcases closed_cases hrooted hkind with ⟨before, hclosed⟩
    rw [hclosed]
    exact ⟨hscheme, hrooted.host, before, rfl⟩

/-!
## Texts
-/

theorem flatMap_slash (hne : segments ≠ []) :
    segments.flatMap ('/' :: ·) = '/' :: List.intercalate ['/'] segments := by
  induction segments with
  | nil => exact absurd rfl hne
  | cons segment rest ih =>
    cases rest with
    | nil => rw [List.flatMap_singleton, List.intercalate_singleton]
    | cons second rest =>
      rw [List.flatMap_cons, ih (List.cons_ne_nil _ _), List.intercalate_cons_cons,
        List.append_assoc]
      rfl

theorem text_of_added {root : Url} (hhost : root.host.isSome = true)
    (hpath : root.path = .segments (before ++ [[]])) (hquery : root.query = none)
    (hfragment : root.fragment = none) (hne : segments ≠ []) :
    (root.withSegments (before ++ segments)).text =
      root.text ++ String.ofList (List.intercalate ['/'] segments) := by
  rcases Option.isSome_iff_exists.mp hhost with ⟨host, hsome⟩
  have hauthority : (root.withSegments (before ++ segments)).authorityText =
      root.authorityText := by
    unfold authorityText withSegments
    dsimp only
    rw [hsome]
    rfl
  have hadded : (root.withSegments (before ++ segments)).path.text =
      root.path.text ++ List.intercalate ['/'] segments := by
    rw [hpath]
    show (before ++ segments).flatMap ('/' :: ·) = (before ++ [[]]).flatMap ('/' :: ·) ++ _
    rw [List.flatMap_append, List.flatMap_append, flatMap_slash hne, List.append_assoc]
    rfl
  have hnothing : root.queryText = [] ∧ root.fragmentText = [] := by
    unfold queryText fragmentText
    rw [hquery, hfragment]
    exact ⟨rfl, rfl⟩
  have hchars : (root.withSegments (before ++ segments)).chars =
      root.chars ++ List.intercalate ['/'] segments := by
    unfold chars
    rw [hauthority, hadded, hnothing.1, hnothing.2]
    simp [withSegments, queryText, fragmentText]
  unfold text
  rw [hchars, String.ofList_append]

end Url
end RestClient
