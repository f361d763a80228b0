import RestClient.Proofs.Destinations
import RestClient.Proofs.Rendering
import RestClient.Proofs.Segments

/-!
# Query parameters

The parameters of a request are written as a form behind its address, and a reader of forms finds
them as they were given, in their order.  Nothing else of the address depends on them.
-/

namespace RestClient

/-!
## Reading forms
-/

namespace Form

def unplus (c : Char) : Char := if c == '+' then ' ' else c

def readPart (text : List Char) : String :=
  String.ofList (Utf8.decodeLossy (Percent.decode (text.map unplus)))

/-- A name, and the value behind the first equals sign. -/
def readPair (text : List Char) : String × String :=
  (readPart (text.takeWhile (· != '=')), readPart ((text.dropWhile (· != '=')).drop 1))

/-- The pairs of a form, with ampersands between them.  Between two of these there may be
nothing. -/
def read (text : List Char) : List (String × String) :=
  ((splitBy (· == '&') text).filter fun part => !part.isEmpty).map readPair

end Form

namespace Percent

variable {c d : Char} {stands : Char -> Bool} {text : List Char}

theorem encodeChar_congr {other : Char -> Bool} (h : stands c = other c) :
    encodeChar stands c = encodeChar other c := by
  unfold encodeChar
  rw [h]

/-- A character of encoded text stands for itself or belongs to an escaped byte. -/
theorem mem_encodeChar (h : d ∈ encodeChar stands c) :
    d = c ∧ stands c = true ∨ d = '%' ∨ exists n, n < 16 ∧ d = hexDigit n := by
  unfold encodeChar at h
  by_cases hc : stands c = true
  · rw [if_pos hc, List.mem_singleton] at h
    exact Or.inl ⟨h, hc⟩
  · rw [if_neg hc] at h
    rcases List.mem_flatMap.mp h with ⟨b, _, hbyte⟩
    have hbound : b.toNat < 256 := b.toNat_lt
    simp only [encodeByte, List.mem_cons, List.not_mem_nil, or_false] at hbyte
    rcases hbyte with rfl | rfl | rfl
    · exact Or.inr (Or.inl rfl)
    · exact Or.inr (Or.inr ⟨_, by omega, rfl⟩)
    · exact Or.inr (Or.inr ⟨_, by omega, rfl⟩)

theorem hexDigit_of_form : forall n, n < 16 -> Form.unplus (hexDigit n) = hexDigit n ∧
    hexDigit n ≠ '&' ∧ hexDigit n ≠ '=' := by
  decide

theorem unplus_of_isFormChar (h : isFormChar c = true) : Form.unplus c = c := by
  have hne : ¬ (c == '+') = true := by
    intro heq
    rw [beq_iff_eq.mp heq] at h
    revert h
    decide
  unfold Form.unplus
  rw [if_neg hne]

theorem ne_of_mem_encodeForm (h : d ∈ encodeForm text) : d ≠ '&' ∧ d ≠ '=' := by
  rcases List.mem_flatMap.mp h with ⟨c, _, hd⟩
  unfold encodeFormChar at hd
  by_cases hspace : (c == ' ') = true
  · rw [if_pos hspace, List.mem_singleton] at hd
    rw [hd]
    decide
  · rw [if_neg hspace] at hd
    rcases mem_encodeChar hd with ⟨rfl, hc⟩ | rfl | ⟨n, hn, rfl⟩
    · constructor
      · rintro rfl
        revert hc
        decide
      · rintro rfl
        revert hc
        decide
    · decide
    · exact (hexDigit_of_form n hn).2

theorem map_unplus_encodeFormChar (c : Char) :
    (encodeFormChar c).map Form.unplus = encodeChar (fun c => isFormChar c || c == ' ') c := by
  unfold encodeFormChar
  by_cases hspace : (c == ' ') = true
  · rw [if_pos hspace, beq_iff_eq.mp hspace]
    decide
  · have hstands : (isFormChar c || c == ' ') = isFormChar c := by
      rw [Bool.eq_false_iff.mpr hspace, Bool.or_false]
    have hsame : encodeChar (fun c => isFormChar c || c == ' ') c = encodeChar isFormChar c :=
      encodeChar_congr hstands
    have hkept : forall d, d ∈ encodeChar isFormChar c -> Form.unplus d = id d := by
      intro d hd
      rcases mem_encodeChar hd with ⟨rfl, hc⟩ | rfl | ⟨n, hn, rfl⟩
      · exact unplus_of_isFormChar hc
      · rfl
      · exact (hexDigit_of_form n hn).1
    rw [if_neg hspace, hsame, List.map_congr_left hkept, List.map_id]

theorem map_unplus_encodeForm (text : List Char) :
    (encodeForm text).map Form.unplus = encode (fun c => isFormChar c || c == ' ') text := by
  unfold encodeForm encode
  rw [List.map_flatMap]
  exact List.flatMap_congr fun c _ => map_unplus_encodeFormChar c

end Percent

namespace Form

theorem readPart_encodeForm (text : String) :
    readPart (Percent.encodeForm text.toList) = text := by
  unfold readPart
  rw [Percent.map_unplus_encodeForm, Percent.decode_encode_of_percent (by decide),
    Utf8.decodeLossy_encode, String.ofList_toList]

theorem readPair_pairText (pair : String × String) : readPair (Url.pairText pair) = pair := by
  have hname : forall c, c ∈ Percent.encodeForm pair.1.toList -> (c != '=') = true :=
    fun c hc => bne_iff_ne.mpr (Percent.ne_of_mem_encodeForm hc).2
  unfold readPair Url.pairText
  rw [List.takeWhile_append_of_pos hname, List.dropWhile_append_of_pos hname,
    List.takeWhile_cons_of_neg (by simp), List.dropWhile_cons_of_neg (by simp), List.append_nil,
    List.drop_one, List.tail_cons, readPart_encodeForm, readPart_encodeForm]

theorem ne_amp_of_mem_pairText {pair : String × String} {c : Char} (h : c ∈ Url.pairText pair) :
    (c == '&') = false := by
  rw [beq_eq_false_iff_ne]
  rcases List.mem_append.mp h with hname | hvalue
  · exact (Percent.ne_of_mem_encodeForm hname).1
  · rcases List.mem_cons.mp hvalue with rfl | hvalue
    · decide
    · exact (Percent.ne_of_mem_encodeForm hvalue).1

theorem isEmpty_pairText (pair : String × String) : (Url.pairText pair).isEmpty = false := by
  unfold Url.pairText
  rw [List.isEmpty_eq_false_iff]
  simp

/-- The pairs that are written as a form are read as they were. -/
theorem read_intercalate (pairs : List (String × String)) :
    read (List.intercalate ['&'] (pairs.map Url.pairText)) = pairs := by
  cases pairs with
  | nil => rfl
  | cons pair rest =>
    have hsplit : splitBy (· == '&') (List.intercalate ['&'] ((pair :: rest).map Url.pairText)) =
        (pair :: rest).map Url.pairText := by
      apply splitBy_intercalate (by decide) (by simp)
      intro part hpart c hc
      rcases List.mem_map.mp hpart with ⟨other, _, rfl⟩
      exact ne_amp_of_mem_pairText hc
    have hkept : ((pair :: rest).map Url.pairText).filter (fun part => !part.isEmpty) =
        (pair :: rest).map Url.pairText := by
      rw [List.filter_eq_self]
      intro part hpart
      rcases List.mem_map.mp hpart with ⟨other, _, rfl⟩
      rw [isEmpty_pairText]
      rfl
    unfold read
    rw [hsplit, hkept, List.map_map]
    exact List.map_id'' readPair_pairText _

end Form

/-!
## Addresses without a tail
-/

namespace Url

variable {base : Url} {reference input text : List Char} {c : Char}

theorem mem_of_mem_clean (h : c ∈ clean text) : c ∈ text := by
  have htrim : c ∈ trim text := List.mem_of_mem_filter h
  unfold trim at htrim
  dsimp only at htrim
  have hfront := List.dropWhile_subset _ (List.mem_reverse.mp htrim)
  exact List.dropWhile_subset _ (List.mem_reverse.mp hfront)

theorem mem_of_splitScheme {own rest : List Char} (h : splitScheme text = some (own, rest))
    (hc : c ∈ rest) : c ∈ text := by
  unfold splitScheme at h
  split at h
  · rename_i first behind
    split_ifs at h
    split at h
    · rename_i after hafter
      cases h
      have hmem : c ∈ (first :: behind).dropWhile isSchemeChar := by
        rw [hafter]
        exact List.mem_cons_of_mem _ hc
      exact List.dropWhile_subset _ hmem
    · cases h
  · cases h

def IsBare (url : Url) : Prop := url.query = none ∧ url.fragment = none

theorem isBare_withTail (h : forall c, c ∈ text -> endsPath c = false) (kind : Kind) (url : Url) :
    (withTail kind url text).IsBare := by
  rw [withTail_of_endsPath h]
  exact ⟨rfl, rfl⟩

theorem readRelative_of_endsPath (hslashes : isDoubleSlashed input = false)
    (hinside : forall c, c ∈ input -> endsPath c = false) (hquery : base.query = none) :
    exists url, readRelative base input = .ok url ∧ url.IsBare := by
  unfold readRelative
  rcases input with _ | ⟨c, rest⟩
  · exact ⟨_, rfl, hquery, rfl⟩
  rcases List.forall_mem_cons.mp hinside with ⟨hc, hrest⟩
  have hends := hc
  unfold endsPath at hends
  rw [Bool.or_eq_false_iff] at hends
  dsimp only
  rw [hends.1, hends.2, if_neg Bool.false_ne_true, if_neg Bool.false_ne_true]
  by_cases hslash : isSlash c = true
  · rw [if_pos hslash]
    rcases rest with _ | ⟨d, behind⟩
    · exact ⟨_, rfl, isBare_withTail hrest _ _⟩
    · have hsecond : ¬ isSlash d = true := fun hd =>
        Bool.eq_false_iff.mp hslashes (isDoubleSlashed_iff.mpr ⟨c, d, behind, rfl, hslash, hd⟩)
      dsimp only
      rw [if_neg hsecond]
      exact ⟨_, rfl, isBare_withTail hrest _ _⟩
  · rw [if_neg hslash]
    exact ⟨_, rfl, isBare_withTail hinside _ _⟩

theorem join_of_endsPath (hkind : kindOf base.scheme = .special)
    (hpath : exists list, base.path = .segments list) (hquery : base.query = none)
    (hplace : namesPlace base.scheme reference = false)
    (hinside : forall c, c ∈ reference -> endsPath c = false) :
    exists url, base.join reference = .ok url ∧ url.IsBare := by
  have hclean : forall c, c ∈ clean reference -> endsPath c = false :=
    fun c hc => hinside c (mem_of_mem_clean hc)
  unfold namesPlace at hplace
  unfold join read
  dsimp only
  rcases hsplit : splitScheme (clean reference) with _ | ⟨own, rest⟩
  · rw [hsplit] at hplace
    dsimp only
    rw [readReference_eq_readRelative hkind hpath]
    exact readRelative_of_endsPath hplace hclean hquery
  · rw [hsplit] at hplace
    dsimp only at hplace ⊢
    rw [Bool.or_eq_false_iff, bne_eq_false_iff_eq] at hplace
    rcases hplace with ⟨rfl, hslashes⟩
    unfold readWithScheme
    rw [hkind]
    dsimp only
    rw [if_pos (isRelative_of_isDoubleSlashed hslashes)]
    exact readRelative_of_endsPath hslashes
      (fun c hc => hclean c (mem_of_splitScheme hsplit hc)) hquery

/-- The address is the bare one with these parameters behind it, which a reader of forms finds
there. -/
structure Carries (url bare : Url) (params : List (String × String)) : Prop where
  bare_query : bare.query = none
  path : url.path = bare.path
  place : url.SamePlace bare
  fragment : url.fragment = none
  query_eq_none_iff : url.query = none <-> params = []
  read_query : url.query.elim [] Form.read = params

theorem carries_nil (h : base.IsBare) : base.Carries base [] :=
  ⟨h.1, rfl, ⟨rfl, rfl, rfl⟩, h.2, ⟨fun _ => rfl, fun _ => h.1⟩, by rw [h.1]; rfl⟩

theorem carries_addPairs (h : base.IsBare) {params : List (String × String)}
    (hparams : params ≠ []) : (base.addPairs params).Carries base params := by
  have hadded : (base.addPairs params).query =
      some (List.intercalate ['&'] (params.map pairText)) := by
    unfold addPairs
    rw [h.1]
    rfl
  refine ⟨h.1, rfl, ⟨rfl, rfl, rfl⟩, h.2, ?_, ?_⟩
  · rw [hadded]
    constructor
    · rintro ⟨⟩
    · exact fun hnil => absurd hnil hparams
  · rw [hadded]
    exact Form.read_intercalate params

end Url

/-!
## Requests
-/

def Template.literals (template : Template) : List Char :=
  template.placeholders.flatMap (·.1) ++ template.last

namespace Request

variable {root : Url} {request : Request} {path : List Char} {c : Char}

theorem mem_fill {parts : List (List Char × List Char)} {values : List String}
    (h : c ∈ fill parts values) :
    c ∈ parts.flatMap (·.1) ∨ Percent.isEncoded c = true := by
  induction parts generalizing values with
  | nil => cases h
  | cons part parts ih =>
    cases values with
    | nil => cases h
    | cons value values =>
      rw [List.flatMap_cons, List.mem_append]
      rcases List.mem_append.mp h with hfirst | hrest
      · rcases List.mem_append.mp hfirst with hliteral | hvalue
        · exact Or.inl (Or.inl hliteral)
        · exact Or.inr (Percent.isEncoded_of_mem_encode hvalue)
      · exact (ih hrest).imp_left Or.inr

theorem mem_of_renderPath (h : request.renderPath = .ok path) (hc : c ∈ path) :
    c ∈ (Template.parse request.path).literals ∨ Percent.isEncoded c = true := by
  unfold renderPath at h
  dsimp only at h
  cases hparts : renderParts request.pathParams (Template.parse request.path).placeholders with
  | error e =>
    rw [hparts] at h
    cases h
  | ok front =>
    rw [hparts] at h
    dsimp only at h
    split_ifs at h
    cases h
    rcases renderParts_eq_ok_iff.mp hparts with ⟨values, _, rfl⟩
    unfold Template.literals
    rw [List.mem_append]
    rcases List.mem_append.mp hc with hfront | hlast
    · exact (mem_fill hfront).imp_left Or.inl
    · exact Or.inl (Or.inr hlast)

theorem url_of_join {joined : Url} (hpath : request.renderPath = .ok path)
    (hjoin : root.join (reference path) = .ok joined) :
    request.url root =
      .ok (if request.queryParams.isEmpty then joined
        else joined.addPairs request.queryParams) := by
  have htext : root.join (path.dropWhile (· == '/')) = .ok joined := hjoin
  unfold Request.url
  rw [hpath]
  dsimp only
  rw [htext]

/-- Whatever the parameters of the query are, the address carries them all, in their order, and has
nothing else from them. -/
theorem query_parameters_survive (hroot : root.IsRoot) (hquery : root.query = none)
    (hliterals : forall c, c ∈ (Template.parse request.path).literals -> c ≠ '?' ∧ c ≠ '#')
    (hpath : request.renderPath = .ok path)
    (hrelative : Url.namesPlace root.scheme (reference path) = false) :
    exists bare url, ({ request with queryParams := [] } : Request).url root = .ok bare ∧
      request.url root = .ok url ∧ url.Carries bare request.queryParams := by
  rcases hroot.path with ⟨before, hbefore⟩
  have hinside : forall c, c ∈ reference path -> Url.endsPath c = false := by
    intro c hc
    have hmem : c ∈ path := List.dropWhile_subset _ hc
    rcases mem_of_renderPath hpath hmem with hliteral | hencoded
    · unfold Url.endsPath
      rw [Bool.or_eq_false_iff, beq_eq_false_iff_ne, beq_eq_false_iff_ne]
      exact hliterals c hliteral
    · exact (Url.inert_of_isPlain (Bool.or_eq_true_iff.mpr (Or.inl hencoded))).inside
  rcases Url.join_of_endsPath hroot.kindOf_scheme ⟨_, hbefore⟩ hquery hrelative hinside with
    ⟨joined, hjoin, hbare⟩
  have hjoined : ({ request with queryParams := [] } : Request).url root = .ok joined :=
    url_of_join hpath hjoin
  refine ⟨joined, _, hjoined, url_of_join hpath hjoin, ?_⟩
  by_cases hparams : request.queryParams = []
  · rw [hparams]
    exact Url.carries_nil hbare
  · rw [if_neg (by simpa using hparams)]
    exact Url.carries_addPairs hbare hparams

end Request

namespace Sample

def crowded : Request :=
  { itemRequest "a/b?" with
    queryParams := [("q&r=", "1+1 = 2%23\n"), ("", "é#"), ("q&r=", "")] }

theorem crowded_parameters_survive :
    exists bare url, (itemRequest "a/b?").url versioned = .ok bare ∧
      crowded.url versioned = .ok url ∧ url.path = bare.path ∧ url.fragment = none ∧
      url.query.elim [] Form.read = [("q&r=", "1+1 = 2%23\n"), ("", "é#"), ("q&r=", "")] := by
  have hpath : crowded.renderPath = .ok "p/a%2Fb%3F".toList := by decide +kernel
  have hall :
      (Template.parse crowded.path).literals.all (fun c => c ≠ '?' ∧ c ≠ '#') = true := by
    decide +kernel
  have hliterals : forall c, c ∈ (Template.parse crowded.path).literals -> c ≠ '?' ∧ c ≠ '#' :=
    fun c hc => of_decide_eq_true (List.all_eq_true.mp hall c hc)
  rcases Request.query_parameters_survive isRoot_versioned rfl hliterals hpath (by decide +kernel)
    with ⟨bare, url, hbare, hurl, hcarries⟩
  exact ⟨bare, url, hbare, hurl, hcarries.path, hcarries.fragment, hcarries.read_query⟩

end Sample
end RestClient
