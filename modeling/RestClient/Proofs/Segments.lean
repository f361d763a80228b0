import RestClient.Proofs.Joining
import RestClient.Sample

/-!
# Segments of addresses

Where the values of a template end up.  Each is a segment of its own behind the path of the root,
whatever characters it holds, so that different values never give the same address.
-/

namespace RestClient

/-- The address is the root's with this path behind it, whose segments spell these values. -/
structure Url.Spells (root : Url) (path : List Char) (values : List (List Char)) (url : Url) :
    Prop where
  text : url.text = root.text ++ String.ofList path
  query : url.query = none
  fragment : url.fragment = none
  segments : exists before added, root.path = .segments (before ++ [[]]) ∧
    url.path = .segments (before ++ added) ∧ path = List.intercalate ['/'] added ∧
    (forall segment, segment ∈ added -> '/' ∉ segment) ∧
    added.map (fun segment => Utf8.decode (Percent.decode segment)) = values.map some

def Segment.path (values : List (List Char)) : List Char :=
  List.intercalate ['/'] (values.map (Percent.encode Percent.isUnreserved))

theorem Segment.path_injective {values others : List (List Char)} (hvalues : values ≠ [])
    (hothers : others ≠ []) (h : path values = path others) : values = others := by
  have hsplit : forall list : List (List Char), list ≠ [] ->
      splitBy Url.Kind.special.separates (path list) =
        list.map (Percent.encode Percent.isUnreserved) := by
    intro list hlist
    apply splitBy_intercalate rfl (by simpa using hlist)
    intro segment hsegment c hc
    rcases List.mem_map.mp hsegment with ⟨value, _, rfl⟩
    exact Url.separates_of_isEncoded (Percent.isEncoded_of_mem_encode hc)
  have hencoded := congrArg (splitBy Url.Kind.special.separates) h
  rw [hsplit values hvalues, hsplit others hothers] at hencoded
  exact List.map_injective_iff.mpr (fun _ _ => Percent.encode_injective) hencoded

namespace Request

variable {root : Url} {request : Request} {segments : List Segment} {values : List (List Char)}

theorem isKept_of_fills {params : List (String × String)}
    (hfills : List.Forall₂ (Segment.Fills params) segments values) :
    forall segment, segment ∈ values.map (Percent.encode Percent.isUnreserved) ->
      Url.IsKept segment := by
  intro segment hsegment
  rcases List.mem_map.mp hsegment with ⟨value, hvalue, rfl⟩
  exact Url.isKept_encode (Segment.isProper_of_mem hfills value hvalue)

theorem map_encode_ne_nil {params : List (String × String)} (hne : segments ≠ [])
    (hfills : List.Forall₂ (Segment.Fills params) segments values) :
    values.map (Percent.encode Percent.isUnreserved) ≠ [] := by
  intro hnil
  rw [List.map_eq_nil_iff.mp hnil] at hfills
  exact hne (List.forall₂_nil_right_iff.mp hfills)

/-- A filled template has an address: the root's with the encoded values behind it. -/
theorem url_eq_of_fills (hroot : root.IsRoot) (hne : segments ≠ [])
    (hpath : request.path = String.ofList (Segment.template segments))
    (hparams : request.queryParams = [])
    (hfills : List.Forall₂ (Segment.Fills request.pathParams) segments values) :
    exists before, root.path = .segments (before ++ [[]]) ∧
      request.url root =
        .ok (root.withSegments (before ++ values.map (Percent.encode Percent.isUnreserved))) := by
  rcases hroot.path with ⟨before, hbefore⟩
  have hadded := map_encode_ne_nil hne hfills
  have hkept := isKept_of_fills hfills
  have hrendered : request.renderPath = .ok (Segment.path values) :=
    renderPath_of_fills hpath hfills
  have hjoined : root.join (Segment.path values) = _ :=
    Url.join_of_isKept hroot.kindOf_scheme hbefore hadded hkept
  have hslash : (Segment.path values).dropWhile (· == '/') = Segment.path values := by
    rcases Url.exists_cons_of_isKept hadded hkept with ⟨c, rest, hcons, hc⟩
    have hnoSlash : ¬ (c == '/') = true := by
      intro heq
      rw [beq_iff_eq.mp heq] at hc
      revert hc
      decide
    unfold Segment.path
    rw [hcons]
    exact List.dropWhile_cons_of_neg hnoSlash
  refine ⟨before, hbefore, ?_⟩
  unfold url
  rw [hrendered]
  dsimp only
  rw [hslash, hjoined, hparams]
  rfl

theorem url_of_fills (hroot : root.IsRoot) (hquery : root.query = none)
    (hfragment : root.fragment = none) (hne : segments ≠ [])
    (hpath : request.path = String.ofList (Segment.template segments))
    (hparams : request.queryParams = [])
    (hfills : List.Forall₂ (Segment.Fills request.pathParams) segments values) :
    exists url, request.url root = .ok url ∧ root.Spells (Segment.path values) values url := by
  rcases url_eq_of_fills hroot hne hpath hparams hfills with ⟨before, hbefore, hurl⟩
  have hadded := map_encode_ne_nil hne hfills
  refine ⟨_, hurl, Url.text_of_added hroot.host hbefore hquery hfragment hadded, rfl, rfl,
    before, _, hbefore, rfl, rfl, ?_, ?_⟩
  · intro segment hsegment hmem
    have hsep := Url.separates_of_isEncoded
      ((isKept_of_fills hfills segment hsegment).encoded '/' hmem)
    exact Bool.noConfusion hsep
  · rw [List.map_map]
    apply List.map_congr_left
    intro value _
    show Utf8.decode (Percent.decode (Percent.encode Percent.isUnreserved value)) = some value
    rw [Percent.decode_encode, Utf8.decode_encode]

/-- Whatever the root is, and whatever characters the placeholders are assigned, each value becomes
one segment behind the path of the root, and another assignment gives another address. -/
theorem identifiers_stay_in_their_segments (hroot : root.IsRoot) (hquery : root.query = none)
    (hfragment : root.fragment = none) (hne : segments ≠ [])
    (hpath : request.path = String.ofList (Segment.template segments))
    (hparams : request.queryParams = [])
    (hfills : List.Forall₂ (Segment.Fills request.pathParams) segments values) :
    exists path url, request.renderPath = .ok path ∧ request.url root = .ok url ∧
      root.Spells path values url ∧
      forall (other : Request) (others : List (List Char)), other.path = request.path ->
        other.queryParams = [] ->
        List.Forall₂ (Segment.Fills other.pathParams) segments others ->
        (exists name, .placeholder name ∈ segments ∧
          Assoc.get? other.pathParams (String.ofList name) ≠
            Assoc.get? request.pathParams (String.ofList name)) ->
        forall url', other.url root = .ok url' -> url'.text ≠ url.text := by
  rcases url_of_fills hroot hquery hfragment hne hpath hparams hfills with ⟨url, hurl, hspells⟩
  refine ⟨_, url, renderPath_of_fills hpath hfills, hurl, hspells, ?_⟩
  rintro other others hsame hnothing hothers ⟨name, hname, hdiffer⟩ url' hurl' htext
  rcases url_of_fills hroot hquery hfragment hne (hsame.trans hpath) hnothing hothers with
    ⟨again, hagain, hspells'⟩
  rw [hurl'] at hagain
  cases hagain
  have hnonempty : forall {params : List (String × String)} {list : List (List Char)},
      List.Forall₂ (Segment.Fills params) segments list -> list ≠ [] := by
    rintro params list hlist rfl
    exact hne (List.forall₂_nil_right_iff.mp hlist)
  have hpaths : Segment.path others = Segment.path values := by
    rw [hspells.text, hspells'.text, String.append_right_inj, String.ofList_inj] at htext
    exact htext
  have hvalues := Segment.path_injective (hnonempty hothers) (hnonempty hfills) hpaths
  subst hvalues
  exact hdiffer (Segment.get?_eq_of_fills hfills hothers hname)

end Request

namespace Sample

def versioned : Url := { root with path := .segments [['v', '4'], []] }

def withVersioned : Client.Builder := { Client.Builder.default with root := some versioned }

theorem withRoot_versioned : Client.Builder.default.withRoot "http://h/v4" = .ok withVersioned := by
  have hparse : Url.parse "http://h/v4" = .ok { root with path := .segments [['v', '4']] } := by
    decide +kernel
  unfold Client.Builder.withRoot
  rw [hparse]
  rfl

theorem isRoot_versioned : versioned.IsRoot :=
  Url.isRoot_of_withRoot withRoot_versioned rfl (Or.inl rfl)

def item : List Segment := [.literal ['p'], .placeholder ['i', 'd']]

def itemRequest (id' : String) : Request := (Request.new .get "p/\x7bid\x7d").withPathParam "id" id'

theorem fills_item {id' : String} (h : Segment.IsProper id'.toList) :
    List.Forall₂ (Segment.Fills (itemRequest id').pathParams) item [['p'], id'.toList] := by
  have hassigned : Assoc.get? (itemRequest id').pathParams "id" = some id' :=
    Assoc.get?_set_self [] "id" id'
  have hname : '\x7d' ∉ ['i', 'd'] := by decide
  have hplain : forall c, c ∈ ['p'] -> Percent.isUnreserved c = true :=
    List.all_eq_true.mp (by decide)
  have hproper : Segment.IsProper ['p'] := ⟨by decide, by decide, by decide⟩
  exact .cons (.literal hplain hproper) (.cons (.placeholder hname hassigned h) .nil)

theorem slash_stays_in_its_segment :
    exists path url, (itemRequest "a/b?%2e").renderPath = .ok path ∧
      (itemRequest "a/b?%2e").url versioned = .ok url ∧
      versioned.Spells path [['p'], "a/b?%2e".toList] url ∧
      forall url', (itemRequest "a").url versioned = .ok url' -> url'.text ≠ url.text := by
  have hproper : Segment.IsProper "a/b?%2e".toList := ⟨by decide, by decide, by decide⟩
  have hproper' : Segment.IsProper "a".toList := ⟨by decide, by decide, by decide⟩
  have hdiffer : Assoc.get? (itemRequest "a").pathParams "id" ≠
      Assoc.get? (itemRequest "a/b?%2e").pathParams "id" := by
    decide
  rcases Request.identifiers_stay_in_their_segments isRoot_versioned rfl rfl
    (List.cons_ne_nil _ _) rfl rfl (fills_item hproper) with
    ⟨path, url, hpath, hurl, hspells, hothers⟩
  refine ⟨path, url, hpath, hurl, hspells, ?_⟩
  exact hothers (itemRequest "a") _ rfl rfl (fills_item hproper')
    ⟨['i', 'd'], List.mem_cons_of_mem _ List.mem_cons_self, hdiffer⟩

end Sample
end RestClient
