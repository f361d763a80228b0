import RestClient.Proofs.Joining
import RestClient.Proofs.Sending
import RestClient.Proofs.Serving

/-!
# Where requests go

A request goes to the host of its client's root as long as its path names no other place.  A path
that begins with a scheme, or with two slashes of either kind once the characters that do not count
are taken away, names one, and then the root has no part in where the request goes.
-/

namespace RestClient

namespace Url

variable {base other url : Url} {reference input : List Char}

/-- Both addresses lead to the same port of the same host by the same scheme. -/
structure SamePlace (url other : Url) : Prop where
  scheme : url.scheme = other.scheme
  host : url.host = other.host
  port : url.port = other.port

def isDoubleSlashed (text : List Char) : Bool := 2 ≤ (text.takeWhile isSlash).length

/-- The reference names a place of its own, behind characters that do not count: by two slashes,
or by a scheme, unless that is the given one and no two slashes follow. -/
def namesPlace (scheme reference : List Char) : Bool :=
  match splitScheme (clean reference) with
  | some (own, rest) => own != scheme || isDoubleSlashed rest
  | none => isDoubleSlashed (clean reference)

theorem isDoubleSlashed_iff {text : List Char} :
    isDoubleSlashed text = true <->
      exists c d rest, text = c :: d :: rest ∧ isSlash c = true ∧ isSlash d = true := by
  unfold isDoubleSlashed
  rcases text with _ | ⟨c, _ | ⟨d, rest⟩⟩
  · simp
  · by_cases hc : isSlash c = true <;> simp [hc]
  · by_cases hc : isSlash c = true <;> by_cases hd : isSlash d = true <;> simp [hc, hd]

/-!
## Relative references
-/

theorem samePlace_withTail (h : url.SamePlace base) (kind : Kind) (input : List Char) :
    (withTail kind url input).SamePlace base := by
  rcases withTail_cases kind url input with ⟨query, fragment, htail⟩
  rw [htail]
  exact ⟨h.scheme, h.host, h.port⟩

theorem samePlace_readRelative (hslashes : isDoubleSlashed input = false)
    (h : readRelative base input = .ok url) : url.SamePlace base := by
  have htail : forall kind text, (withTail kind base text).SamePlace base :=
    samePlace_withTail ⟨rfl, rfl, rfl⟩
  have hpath : forall path kind text, (withTail kind { base with path } text).SamePlace base := by
    intro path kind text
    have hsame : ({ base with path } : Url).SamePlace base := ⟨rfl, rfl, rfl⟩
    exact samePlace_withTail hsame kind text
  unfold readRelative at h
  rcases input with _ | ⟨c, rest⟩
  · cases h
    exact ⟨rfl, rfl, rfl⟩
  dsimp only at h
  by_cases hquery : (c == '?') = true
  · rw [if_pos hquery] at h
    cases h
    exact htail _ _
  rw [if_neg hquery] at h
  by_cases hfragment : (c == '#') = true
  · rw [if_pos hfragment] at h
    cases h
    exact ⟨(htail _ _).scheme, (htail _ _).host, (htail _ _).port⟩
  rw [if_neg hfragment] at h
  by_cases hslash : isSlash c = true
  · rw [if_pos hslash] at h
    rcases rest with _ | ⟨d, behind⟩
    · cases h
      exact hpath _ _ _
    · have hsecond : ¬ isSlash d = true := fun hd =>
        Bool.eq_false_iff.mp hslashes (isDoubleSlashed_iff.mpr ⟨c, d, behind, rfl, hslash, hd⟩)
      dsimp only at h
      rw [if_neg hsecond] at h
      cases h
      exact hpath _ _ _
  · rw [if_neg hslash] at h
    cases h
    exact hpath _ _ _

theorem readRelative_eq_of_isDoubleSlashed (hscheme : other.scheme = base.scheme)
    (hslashes : isDoubleSlashed input = true) :
    readRelative other input = readRelative base input := by
  rcases isDoubleSlashed_iff.mp hslashes with ⟨c, d, behind, rfl, hc, hd⟩
  have hquery : ¬ (c == '?') = true := by
    intro heq
    rw [beq_iff_eq.mp heq] at hc
    revert hc
    decide
  have hfragment : ¬ (c == '#') = true := by
    intro heq
    rw [beq_iff_eq.mp heq] at hc
    revert hc
    decide
  unfold readRelative
  dsimp only
  rw [if_neg hquery, if_neg hquery, if_neg hfragment, if_neg hfragment, if_pos hc, if_pos hc,
    if_pos hd, if_pos hd, hscheme]

theorem readReference_eq_readRelative (hkind : kindOf base.scheme = .special)
    (hpath : exists list, base.path = .segments list) (gaps : List Nat) (input : List Char) :
    readReference gaps (some base) input = readRelative base input := by
  rcases hpath with ⟨list, hlist⟩
  unfold readReference
  dsimp only
  split
  · rfl
  · rw [hlist, hkind]
    rfl

theorem readRelative_of_readReference (hkind : kindOf base.scheme = .special) {gaps : List Nat}
    (h : readReference gaps (some base) input = .ok url) : readRelative base input = .ok url := by
  cases hpath : base.path with
  | segments list => rw [← readReference_eq_readRelative hkind ⟨list, hpath⟩ gaps, h]
  | plain text =>
    unfold readReference at h
    dsimp only at h
    rw [hpath] at h
    split at h
    · exact h
    · cases h

/-!
## Joining
-/

theorem isRelative_of_isDoubleSlashed {scheme rest : List Char}
    (h : isDoubleSlashed rest = false) :
    (decide ((rest.takeWhile isSlash).length < 2) && scheme == scheme) = true := by
  rw [beq_self_eq_true, Bool.and_true, decide_eq_true_eq]
  exact Nat.lt_of_not_le (of_decide_eq_false h)

theorem samePlace_join (hkind : kindOf base.scheme = .special)
    (hplace : namesPlace base.scheme reference = false) (h : base.join reference = .ok url) :
    url.SamePlace base := by
  unfold namesPlace at hplace
  unfold join read at h
  dsimp only at h
  rcases hsplit : splitScheme (clean reference) with _ | ⟨own, rest⟩
  · rw [hsplit] at h hplace
    exact samePlace_readRelative hplace (readRelative_of_readReference hkind h)
  · rw [hsplit] at h hplace
    dsimp only at h hplace
    rw [Bool.or_eq_false_iff, bne_eq_false_iff_eq] at hplace
    rcases hplace with ⟨rfl, hslashes⟩
    unfold readWithScheme at h
    rw [hkind] at h
    dsimp only at h
    rw [if_pos (isRelative_of_isDoubleSlashed hslashes)] at h
    exact samePlace_readRelative hslashes h

/-- A reference with a place of its own means the same to all bases of one scheme. -/
theorem join_eq_of_namesPlace (hkind : kindOf base.scheme = .special)
    (hscheme : other.scheme = base.scheme) (hpath : exists list, other.path = .segments list)
    (hplace : namesPlace base.scheme reference = true) (h : base.join reference = .ok url) :
    other.join reference = .ok url := by
  unfold namesPlace at hplace
  unfold join read at h ⊢
  dsimp only at h ⊢
  rcases hsplit : splitScheme (clean reference) with _ | ⟨own, rest⟩
  · rw [hsplit] at h hplace
    dsimp only at h hplace ⊢
    rw [readReference_eq_readRelative (hscheme ▸ hkind) hpath,
      readRelative_eq_of_isDoubleSlashed hscheme hplace]
    exact readRelative_of_readReference hkind h
  · rw [hsplit] at h hplace
    dsimp only at h hplace ⊢
    unfold readWithScheme at h ⊢
    cases hown : kindOf own with
    | other =>
      rw [hown] at h
      exact h
    | file =>
      have hne : ¬ decide (base.scheme = own) = true := by
        rw [decide_eq_true_eq]
        rintro rfl
        rw [hkind] at hown
        cases hown
      rw [hown] at h
      dsimp only at h ⊢
      rw [Option.filter_some, if_neg hne] at h
      rw [Option.filter_some, hscheme, if_neg hne]
      exact h
    | special =>
      have habsolute : (decide ((rest.takeWhile isSlash).length < 2) && base.scheme == own) =
          false := by
        rw [Bool.and_eq_false_iff, decide_eq_false_iff_not, beq_eq_false_iff_ne]
        rcases (Bool.or_eq_true _ _).mp hplace with hother | hslashes
        · exact Or.inr (bne_iff_ne.mp hother).symm
        · exact Or.inl (Nat.not_lt_of_le (of_decide_eq_true hslashes))
      rw [hown] at h
      dsimp only at h ⊢
      rw [hscheme, habsolute]
      rw [habsolute] at h
      exact h

end Url

/-!
## Requests
-/

namespace Request

variable {request : Request} {root other url : Url}

/-- The text by which a request refers to its address: its path without the slashes in front. -/
def reference (path : List Char) : List Char := path.dropWhile (· == '/')

theorem url_cases (h : request.url root = .ok url) :
    exists path joined, request.renderPath = .ok path ∧ root.join (reference path) = .ok joined ∧
      url =
        if request.queryParams.isEmpty then joined else joined.addPairs request.queryParams := by
  unfold Request.url at h
  cases hrender : request.renderPath with
  | error e =>
    rw [hrender] at h
    cases h
  | ok path =>
    rw [hrender] at h
    dsimp only at h
    cases hjoin : root.join (path.dropWhile (· == '/')) with
    | error fault =>
      rw [hjoin] at h
      cases h
    | ok joined =>
      rw [hjoin] at h
      cases h
      exact ⟨path, joined, rfl, hjoin, rfl⟩

theorem samePlace_url (hkind : Url.kindOf root.scheme = .special) (h : request.url root = .ok url)
    {path : List Char} (hpath : request.renderPath = .ok path)
    (hplace : Url.namesPlace root.scheme (reference path) = false) : url.SamePlace root := by
  rcases url_cases h with ⟨rendered, joined, hrendered, hjoin, rfl⟩
  rw [hpath] at hrendered
  cases hrendered
  have hsame := Url.samePlace_join hkind hplace hjoin
  by_cases hquery : request.queryParams.isEmpty = true
  · rw [if_pos hquery]
    exact hsame
  · rw [if_neg hquery]
    exact ⟨hsame.scheme, hsame.host, hsame.port⟩

theorem url_eq_of_namesPlace (hkind : Url.kindOf root.scheme = .special)
    (h : request.url root = .ok url) {path : List Char} (hpath : request.renderPath = .ok path)
    (hplace : Url.namesPlace root.scheme (reference path) = true)
    (hscheme : other.scheme = root.scheme)
    (hsegments : exists list, other.path = .segments list) : request.url other = .ok url := by
  rcases url_cases h with ⟨rendered, joined, hrendered, hjoin, rfl⟩
  rw [hpath] at hrendered
  cases hrendered
  have hother : other.join (path.dropWhile (· == '/')) = .ok joined :=
    Url.join_eq_of_namesPlace hkind hscheme hsegments hplace hjoin
  unfold Request.url
  rw [hpath]
  dsimp only
  rw [hother]

end Request

namespace Client

variable {σ α : Type} [Transport σ] [Json.Decode α]

/-- The requests of a call go to the place of the client's root, unless the path names a place of
its own: then they go where they would go from any other root of the scheme. -/
theorem requests_stay_at_root_unless_path_names_place {client : Client}
    (hscheme : client.root.scheme = "http".toList ∨ client.root.scheme = "https".toList)
    (request : Request) (body : Option Payload) (w : World σ) :
    exists sent, (client.call request body w : Except Halt (Response α) × World σ).2.requests =
        w.requests ++ sent ∧
      forall prepared, prepared ∈ sent -> exists path, request.renderPath = .ok path ∧
        (Url.namesPlace client.root.scheme (Request.reference path) = false ->
          prepared.url.SamePlace client.root) ∧
        (Url.namesPlace client.root.scheme (Request.reference path) = true ->
          forall other : Url, other.scheme = client.root.scheme ->
            (exists list, other.path = .segments list) ->
              request.url other = .ok prepared.url) := by
  have hkind : Url.kindOf client.root.scheme = .special := by
    rcases hscheme with h | h
    · rw [h]
      rfl
    · rw [h]
      rfl
  rcases client.exists_requests_call (α := α) request body w with ⟨sent, hsent, hprepared⟩
  refine ⟨sent, hsent, ?_⟩
  intro prepared hmem
  have hurl := url_of_prepare (hprepared prepared hmem)
  rcases Request.url_cases hurl with ⟨path, _, hpath, _, _⟩
  refine ⟨path, hpath, Request.samePlace_url hkind hurl hpath, ?_⟩
  intro hplace other hother hsegments
  exact Request.url_eq_of_namesPlace hkind hurl hpath hplace hother hsegments

end Client

namespace Sample

/-- Two slashes in front of a path are taken away, but two backslashes are read as a host. -/
theorem backslashes_leave_the_root :
    ¬ forall prepared, prepared ∈ (client.call (.new .get "\\\\evil/x") none (world []) :
        Except Halt (Response Unit) × World Script).2.requests ->
      prepared.url.SamePlace client.root := by
  have hevil : ({ prepared with
      url := { root with host := some (.domain "evil".toList), path := .segments [['x']] } } :
        HttpRequest) ∈ (client.call (.new .get "\\\\evil/x") none (world []) :
          Except Halt (Response Unit) × World Script).2.requests := by
    decide +kernel
  intro hall
  have hhost := (hall _ hevil).host
  revert hhost
  decide

theorem slashes_stay_at_the_root :
    exists sent, (client.call (.new .get "//evil/x") none (world []) :
        Except Halt (Response Unit) × World Script).2.requests = [] ++ sent ∧
      forall prepared, prepared ∈ sent -> prepared.url.SamePlace client.root := by
  have hscheme : client.root.scheme = "http".toList ∨ client.root.scheme = "https".toList :=
    Or.inl rfl
  rcases Client.requests_stay_at_root_unless_path_names_place (α := Unit) hscheme
    (.new .get "//evil/x") none (world []) with ⟨sent, hsent, hall⟩
  refine ⟨sent, hsent, ?_⟩
  intro prepared hmem
  rcases hall prepared hmem with ⟨path, hpath, hstays, _⟩
  have hrendered : (Request.new .get "//evil/x").renderPath = .ok "//evil/x".toList := by
    decide +kernel
  rw [hrendered] at hpath
  cases hpath
  exact hstays (by decide +kernel)

end Sample
end RestClient
