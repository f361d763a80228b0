import RestClient.Proofs.Refusals
import RestClient.Proofs.Creation

/-!
# Faulty arguments

Identifiers and parameters that are no path segments, the page number zero and page sizes that the
provider does not know are refused by every operation, whatever else is asked and whether or not
the token is canceled.
-/

namespace RestClient

variable {σ : Type}

/-!
## Placeholders
-/

namespace Request

variable {params : List (String × String)}

/-- A placeholder cannot stand for this: for nothing at all, for nothing between two slashes, or for
a segment that means another one. -/
def IsUnassignable (value : Option String) : Prop :=
  value = none ∨ value = some "" ∨ value = some "." ∨ value = some ".."

theorem renderValue_of_unassignable {name : List Char}
    (h : IsUnassignable (Assoc.get? params (String.ofList name))) :
    exists fault, renderValue params name = .error (.invalidArgument fault) := by
  unfold renderValue
  dsimp only
  rcases h with hvalue | hvalue | hvalue | hvalue
  · rw [hvalue]
    exact ⟨_, rfl⟩
  · rw [hvalue]
    exact ⟨_, rfl⟩
  · rw [hvalue]
    exact ⟨_, rfl⟩
  · rw [hvalue]
    exact ⟨_, rfl⟩

theorem renderValue_cases (params : List (String × String)) (name : List Char) :
    (exists text, renderValue params name = .ok text) ∨
      exists fault, renderValue params name = .error (.invalidArgument fault) := by
  unfold renderValue
  dsimp only
  cases Assoc.get? params (String.ofList name) with
  | none => exact Or.inr ⟨_, rfl⟩
  | some value =>
    dsimp only
    by_cases hempty : value = ""
    · rw [if_pos hempty]
      exact Or.inr ⟨_, rfl⟩
    · rw [if_neg hempty]
      by_cases hdots : value = "." ∨ value = ".."
      · rw [if_pos hdots]
        exact Or.inr ⟨_, rfl⟩
      · rw [if_neg hdots]
        exact Or.inl ⟨_, rfl⟩

theorem renderParts_of_unassignable {parts : List (List Char × List Char)}
    {part : List Char × List Char} (hpart : part ∈ parts)
    (h : IsUnassignable (Assoc.get? params (String.ofList part.2))) :
    exists fault, renderParts params parts = .error (.invalidArgument fault) := by
  induction parts with
  | nil => cases hpart
  | cons first rest ih =>
    rcases first with ⟨literal, name⟩
    unfold renderParts
    rcases renderValue_cases params name with ⟨text, hvalue⟩ | ⟨fault, hvalue⟩
    · rcases List.mem_cons.mp hpart with rfl | hrest
      · rcases renderValue_of_unassignable h with ⟨fault, hfault⟩
        rw [hfault]
        exact ⟨fault, rfl⟩
      · rcases ih hrest with ⟨fault, hfault⟩
        rw [hvalue, hfault]
        exact ⟨fault, rfl⟩
    · rw [hvalue]
      exact ⟨fault, rfl⟩

end Request

def Template.names (path : String) : List String :=
  (Template.parse path).placeholders.map fun part => String.ofList part.2

theorem Request.url_of_unassignable {request : Request} {name : String}
    (hname : name ∈ Template.names request.path)
    (h : IsUnassignable (Assoc.get? request.pathParams name)) (root : Url) :
    exists fault, request.url root = .error (.invalidArgument fault) := by
  rcases List.mem_map.mp hname with ⟨part, hpart, rfl⟩
  rcases renderParts_of_unassignable hpart h with ⟨fault, hparts⟩
  exists fault
  unfold Request.url Request.renderPath
  dsimp only
  rw [hparts]

theorem Client.prepare_of_unassignable (client : Client) (request : Request) {name : String}
    (hname : name ∈ Template.names request.path)
    (h : Request.IsUnassignable (Assoc.get? request.pathParams name)) :
    exists fault, forall body, client.prepare request body = .error (.invalidArgument fault) := by
  rcases Request.url_of_unassignable hname h client.root with ⟨fault, hurl⟩
  exists fault
  intro body
  unfold prepare
  rw [hurl]

namespace Collection

variable {α Create Update : Type} {c : Collection Create Update} {options : ListOptions}
  {name path : String} {halt : Halt}

def pathParam? (c : Collection Create Update) (name : String) : Option String :=
  Assoc.get? c.pathParams.reverse name

theorem pathParams_request (c : Collection Create Update) (method : Method) (path : String) :
    (c.request method path).pathParams =
      c.pathParams.foldl (fun entries param => Assoc.set entries param.1 param.2) [] := by
  have hfold : forall (params : List (String × String)) (request : Request),
      (params.foldl (fun request param => request.withPathParam param.1 param.2)
        request).pathParams =
        params.foldl (fun entries param => Assoc.set entries param.1 param.2)
          request.pathParams := by
    intro params
    induction params with
    | nil =>
      intro request
      rfl
    | cons param rest ih =>
      intro request
      exact ih (request.withPathParam param.1 param.2)
  exact hfold c.pathParams (.new method path)

theorem get?_request (c : Collection Create Update) (method : Method) (path name : String) :
    (c.request method path).path = path ∧
      Assoc.get? (c.request method path).pathParams name = c.pathParam? name := by
  constructor
  · rcases c.exists_request_eq method path with ⟨pathParams, hrequest⟩
    rw [hrequest]
    rfl
  · rw [pathParams_request, Assoc.get?_foldl_set]
    exact Option.or_none

theorem get?_itemRequest {method : Method} {id' : String} {request : Request}
    (h : c.itemRequest method id' = .ok request) (name : String) :
    request.path = c.resource.itemPath ∧ Assoc.get? request.pathParams name =
      if name = "id" then some id' else c.pathParam? name := by
  rcases c.get?_request method c.resource.itemPath name with ⟨hpath, hparam⟩
  unfold itemRequest at h
  by_cases hempty : id' = ""
  · rw [if_pos hempty] at h
    cases h
  · rw [if_neg hempty] at h
    cases h
    constructor
    · exact hpath
    · by_cases hname : name = "id"
      · rw [if_pos hname, hname]
        exact Assoc.get?_set_self _ "id" id'
      · rw [if_neg hname, ← hparam]
        exact Assoc.get?_set_of_ne _ id' hname

def RefusesSize (c : Collection Create Update) (options : ListOptions) : Prop :=
  ¬ (25 ≤ (options.pageSize.getD c.client.pageSize).toNat ∧
    (options.pageSize.getD c.client.pageSize).toNat ≤ 500)

theorem apply_of_refusesSize (h : c.RefusesSize options) (request : Request) :
    exists fault, options.apply request c.client.pageSize = .error (.invalidArgument fault) := by
  have houtside : (options.pageSize.getD c.client.pageSize).toNat < leastPageSize ∨
      greatestPageSize < (options.pageSize.getD c.client.pageSize).toNat := by
    rcases not_and_or.mp h with hleast | hgreatest
    · exact Or.inl (Nat.lt_of_not_le hleast)
    · exact Or.inr (Nat.lt_of_not_le hgreatest)
  unfold ListOptions.apply
  rw [if_pos houtside]
  exact ⟨_, rfl⟩

theorem apply_cases (hfilter : forall filter, options.filter = some filter ->
      (Header.Value.ofString? filter.text).isSome) (request : Request) (defaultSize : UInt32) :
    (exists fault, options.apply request defaultSize = .error (.invalidArgument fault)) ∨
      exists headers size, options.apply request defaultSize =
        .ok ({ request with headers }, size) := by
  unfold ListOptions.apply
  dsimp only
  by_cases hsize : (options.pageSize.getD defaultSize).toNat < leastPageSize ∨
      greatestPageSize < (options.pageSize.getD defaultSize).toNat
  · rw [if_pos hsize]
    exact Or.inl ⟨_, rfl⟩
  · rw [if_neg hsize]
    right
    cases hoptions : options.filter with
    | none => exact ⟨request.headers, _, rfl⟩
    | some filter =>
      rcases Option.isSome_iff_exists.mp (hfilter filter hoptions) with ⟨value, hvalue⟩
      dsimp only
      rw [Request.withHeader_filter hvalue]
      exact ⟨_, _, rfl⟩

end Collection

/-!
## Operations
-/

namespace Operation

variable {Item Create Update : Type} {c : Collection Create Update}
  {operation : Operation Create Update}

def template (c : Collection Create Update) : Operation Create Update -> String
  | .call request _ => request.path
  | .find path => path
  | .get _ | .update _ _ | .delete _ => c.resource.itemPath
  | .list _ | .listPage _ _ | .create _ | .createIdempotent _ | .stream _ _ _ =>
    c.resource.collectionPath

def identifier? : Operation Create Update -> Option String
  | .get id' | .update id' _ | .delete id' => some id'
  | _ => none

def assigned? (c : Collection Create Update) (name : String) :
    Operation Create Update -> Option String
  | .call request _ => Assoc.get? request.pathParams name
  | .find _ => none
  | .get id' | .update id' _ | .delete id' =>
    if name = "id" then some id' else c.pathParam? name
  | .list _ | .listPage _ _ | .create _ | .createIdempotent _ | .stream _ _ _ =>
    c.pathParam? name

def options? : Operation Create Update -> Option ListOptions
  | .list options | .listPage _ options | .stream options _ _ => some options
  | _ => none

theorem options?_cases {options : ListOptions} (h : operation.options? = some options) :
    operation = .list options ∨ (exists page, operation = .listPage page options) ∨
      exists steps rest, operation = .stream options steps rest := by
  unfold options? at h
  split at h
  · cases h
    exact Or.inl rfl
  · cases h
    exact Or.inr (Or.inl ⟨_, rfl⟩)
  · cases h
    exact Or.inr (Or.inr ⟨_, _, rfl⟩)
  · cases h

/-- The filter can be sent, and there are items to ask for. -/
def AsksForItems (options : ListOptions) : Prop :=
  options.maxResults ≠ some 0 ∧ forall filter, options.filter = some filter ->
    (Header.Value.ofString? filter.text).isSome

/-- One of the arguments is out of the question. -/
inductive Faulty (c : Collection Create Update) (operation : Operation Create Update) : Prop where
  | emptyIdentifier (hid : operation.identifier? = some "")
  | dotIdentifier {id' : String} (hid : operation.identifier? = some id')
      (hdots : id' = "." ∨ id' = "..") (htemplate : "id" ∈ Template.names c.resource.itemPath)
  | placeholder {name : String} (hname : name ∈ Template.names (operation.template c))
      (hvalue : Request.IsUnassignable (operation.assigned? c name))
      (hoptions : forall options, operation.options? = some options -> AsksForItems options)
  | pageZero {options : ListOptions} (hpage : operation = .listPage 0 options)
  | pageSize {options : ListOptions} (hoptions : operation.options? = some options)
      (hsize : c.RefusesSize options)

def fruitless (halt : Halt) : Operation Create Update -> Outcome Item
  | .call _ _ | .find _ => .response (.error halt)
  | .get _ | .create _ | .createIdempotent _ | .update _ _ => .item (.error halt)
  | .list _ => .items (.error halt)
  | .listPage _ _ => .page (.error halt)
  | .delete _ => .done (.error halt)
  | .stream _ steps rest =>
    .steps (.replicate steps (.error halt)) (if rest then some (.error halt) else none)

/-- The operation comes to nothing but this halt; the listing of a stream may not even begin. -/
def ComesToNothing (operation : Operation Create Update) (halt : Halt) (outcome : Outcome Item) :
    Prop :=
  outcome = operation.fruitless halt ∨
    (exists options steps rest, operation = .stream options steps rest) ∧
      outcome = .items (.error halt)

end Operation

/-!
## Listings
-/

namespace Listing

variable {α : Type} {listing : Listing α} {e : Error} {page : UInt32}

theorem refuses_of_unassignable {name : String}
    (hname : name ∈ Template.names listing.request.path)
    (hvalue : Request.IsUnassignable (Assoc.get? listing.request.pathParams name)) :
    exists fault, listing.Refuses (.invalidArgument fault) := by
  have hfirst : exists fault, forall body, listing.client.prepare
      (listing.request.forPage 1 listing.paginator.pageSize) body =
        .error (.invalidArgument fault) :=
    Client.prepare_of_unassignable _ _ hname hvalue
  rcases hfirst with ⟨fault, hfault⟩
  exists fault
  rcases listing.refuses_or_admits with ⟨e, hrefuses⟩ | hadmits
  · have he := (hrefuses 1).symm.trans (hfault none)
    cases he
    exact hrefuses
  · rcases hadmits 1 with ⟨prepared, hprepare⟩
    rw [hfault none] at hprepare
    cases hprepare

variable [Transport σ] [Json.Decode α]

theorem Refuses.next_of_page (h : listing.Refuses e) (hbuffer : listing.buffer = [])
    (hpage : listing.paginator.nextPage = some page) (w : World σ) :
    listing.next w = (.error (.failed e), listing, w) := by
  rw [Listing.next_of_page hbuffer hpage, h.fetch]
  rfl

theorem Refuses.nexts_of_page (h : listing.Refuses e) (hbuffer : listing.buffer = [])
    (hpage : listing.paginator.nextPage = some page) (n : Nat) (w : World σ) :
    listing.nexts n w = (.replicate n (.error (.failed e)), listing, w) := by
  induction n with
  | zero => rfl
  | succ n ih =>
    unfold Listing.nexts
    rw [h.next_of_page hbuffer hpage]
    dsimp only
    rw [ih]
    rfl

theorem Refuses.collect_of_page (h : listing.Refuses e)
    (hpage : listing.paginator.nextPage = some page) (w : World σ) :
    listing.collect w = (.error (.failed e), w) := by
  rw [Listing.collect_of_page hpage, h.fetch]

end Listing

namespace Collection

variable {α Create Update : Type} {c : Collection Create Update} {options : ListOptions}
  {name : String}

theorem stream_of_unassignable (hname : name ∈ Template.names c.resource.collectionPath)
    (hvalue : Request.IsUnassignable (c.pathParam? name))
    (hoptions : Operation.AsksForItems options) :
    exists fault, (c.stream options : Except Error (Listing α)) = .error (.invalidArgument fault) ∨
      exists listing : Listing α, c.stream options = .ok listing ∧
        listing.Refuses (.invalidArgument fault) ∧ listing.buffer = [] ∧
        listing.paginator.nextPage = some 1 := by
  rcases hoptions with ⟨hmost, hfilter⟩
  rcases c.get?_request .get c.resource.collectionPath name with ⟨hpath, hparam⟩
  rw [← hparam] at hvalue
  rw [← hpath] at hname
  unfold stream Listing.start
  rcases apply_cases hfilter (c.collectionRequest .get) c.client.pageSize with
    ⟨fault, happly⟩ | ⟨headers, size, happly⟩
  · rw [happly]
    exact ⟨fault, Or.inl rfl⟩
  · rw [happly]
    have hlisting : exists fault, Listing.Refuses (α := α)
        ⟨c.client, { c.collectionRequest .get with headers }, .start size options.maxResults, []⟩
        (.invalidArgument fault) :=
      Listing.refuses_of_unassignable hname hvalue
    rcases hlisting with ⟨fault, hrefuses⟩
    exact ⟨fault, Or.inr ⟨_, rfl, hrefuses, rfl, if_neg hmost⟩⟩

theorem stream_of_refusesSize (h : c.RefusesSize options) :
    exists fault,
      (c.stream options : Except Error (Listing α)) = .error (.invalidArgument fault) := by
  rcases apply_of_refusesSize h (c.collectionRequest .get) with ⟨fault, happly⟩
  exists fault
  unfold stream Listing.start
  rw [happly]

variable [Transport σ] [Json.Decode α]

theorem listPage_of_unassignable (hname : name ∈ Template.names c.resource.collectionPath)
    (hvalue : Request.IsUnassignable (c.pathParam? name))
    (hoptions : Operation.AsksForItems options) (page : UInt32) (w : World σ) :
    exists fault, c.listPage page options w =
      ((.error (.failed (.invalidArgument fault)), w) : Except Halt (Page α) × World σ) := by
  rcases c.get?_request .get c.resource.collectionPath name with ⟨hpath, hparam⟩
  rw [← hparam] at hvalue
  rw [← hpath] at hname
  unfold listPage
  by_cases hpage : page = 0
  · rw [if_pos hpage]
    exact ⟨_, rfl⟩
  · rw [if_neg hpage]
    rcases apply_cases hoptions.2 (c.collectionRequest .get) c.client.pageSize with
      ⟨fault, happly⟩ | ⟨headers, size, happly⟩
    · rw [happly]
      exact ⟨fault, rfl⟩
    · rw [happly]
      dsimp only
      have hprepare : exists fault, forall body, c.client.prepare
          ((({ c.collectionRequest .get with headers } : Request)).forPage page size) body =
            .error (.invalidArgument fault) :=
        Client.prepare_of_unassignable _ _ hname hvalue
      rcases hprepare with ⟨fault, hfault⟩
      exists fault
      rw [Client.call_of_refused (hfault none)]
      rfl

omit [Transport σ] [Json.Decode α] in
theorem prepare_of_unassignable (hname : name ∈ Template.names c.resource.collectionPath)
    (hvalue : Request.IsUnassignable (c.pathParam? name)) (method : Method) :
    exists fault, forall body, c.client.prepare (c.collectionRequest method) body =
      .error (.invalidArgument fault) := by
  rcases c.get?_request method c.resource.collectionPath name with ⟨hpath, hparam⟩
  rw [← hparam] at hvalue
  rw [← hpath] at hname
  exact c.client.prepare_of_unassignable _ hname hvalue

omit [Transport σ] [Json.Decode α] in
theorem itemRequest_cases (c : Collection Create Update) (method : Method) (id' : String) :
    c.itemRequest method id' = .error (.invalidArgument (.emptyIdentifier c.resource.name)) ∨
      exists request, c.itemRequest method id' = .ok request := by
  unfold itemRequest
  by_cases hempty : id' = ""
  · rw [if_pos hempty]
    exact Or.inl rfl
  · rw [if_neg hempty]
    exact Or.inr ⟨_, rfl⟩

omit [Transport σ] [Json.Decode α] in
theorem itemRequest_of_unassignable {id' : String}
    (hname : name ∈ Template.names c.resource.itemPath)
    (hvalue : Request.IsUnassignable (if name = "id" then some id' else c.pathParam? name))
    (method : Method) :
    exists fault, c.itemRequest method id' = .error (.invalidArgument fault) ∨
      exists request, c.itemRequest method id' = .ok request ∧
        forall body, c.client.prepare request body = .error (.invalidArgument fault) := by
  rcases c.itemRequest_cases method id' with hempty | ⟨request, hrequest⟩
  · exact ⟨_, Or.inl hempty⟩
  · rcases get?_itemRequest hrequest name with ⟨hpath, hparam⟩
    rw [← hparam] at hvalue
    rw [← hpath] at hname
    rcases c.client.prepare_of_unassignable request hname hvalue with ⟨fault, hfault⟩
    exact ⟨fault, Or.inr ⟨request, hrequest, hfault⟩⟩

end Collection

namespace Operation

variable {α Create Update : Type} [Transport σ] [Json.Decode α]
  {c : Collection Create Update} {operation : Operation Create Update}

theorem run_of_itemRequest {id' : String} (hid : operation.identifier? = some id')
    (h : forall method, exists fault, c.itemRequest method id' = .error (.invalidArgument fault) ∨
      exists request, c.itemRequest method id' = .ok request ∧
        forall body, c.client.prepare request body = .error (.invalidArgument fault))
    (w : World σ) :
    exists fault, (operation.run c w : Outcome α × World σ).1 =
      operation.fruitless (.failed (.invalidArgument fault)) := by
  cases operation with
  | get id₁ =>
    cases hid
    show exists fault, Outcome.item (c.get id' w).1 = _
    unfold Collection.get
    rcases h .get with ⟨fault, herror | ⟨request, hrequest, hprepare⟩⟩
    · rw [herror]
      exact ⟨fault, rfl⟩
    · rw [hrequest]
      dsimp only
      rw [Client.call_of_refused (hprepare none)]
      exact ⟨fault, rfl⟩
  | update id₁ options =>
    cases hid
    show exists fault, Outcome.item (c.update id' options w).1 = _
    unfold Collection.update
    rcases h .put with ⟨fault, herror | ⟨request, hrequest, hprepare⟩⟩
    · rw [herror]
      exact ⟨fault, rfl⟩
    · rw [hrequest]
      dsimp only
      rw [Client.call_of_refused (hprepare _)]
      exact ⟨fault, rfl⟩
  | delete id₁ =>
    cases hid
    show exists fault, Outcome.done (c.delete id' w).1 = _
    unfold Collection.delete
    rcases h .delete with ⟨fault, herror | ⟨request, hrequest, hprepare⟩⟩
    · rw [herror]
      exact ⟨fault, rfl⟩
    · rw [hrequest]
      dsimp only
      rw [Client.call_of_refused (hprepare none)]
      exact ⟨fault, rfl⟩
  | call request body => cases hid
  | find path => cases hid
  | list options => cases hid
  | listPage page options => cases hid
  | create options => cases hid
  | createIdempotent options => cases hid
  | stream options steps rest => cases hid

theorem list_of_unassignable {options : ListOptions} {name : String}
    (hname : name ∈ Template.names c.resource.collectionPath)
    (hvalue : Request.IsUnassignable (c.pathParam? name)) (hoptions : AsksForItems options)
    (w : World σ) :
    exists fault, (c.list options w : Except Halt (List α) × World σ).1 =
      .error (.failed (.invalidArgument fault)) := by
  rcases Collection.stream_of_unassignable (α := α) hname hvalue hoptions with
    ⟨fault, hstream | ⟨listing, hstream, hrefuses, _, hpage⟩⟩
  · unfold Collection.list
    rw [hstream]
    exact ⟨fault, rfl⟩
  · unfold Collection.list
    rw [hstream]
    dsimp only
    rw [hrefuses.collect_of_page hpage]
    exact ⟨fault, rfl⟩

theorem begin_of_unassignable {options : ListOptions} {name : String}
    (hname : name ∈ Template.names c.resource.collectionPath)
    (hvalue : Request.IsUnassignable (c.pathParam? name)) (hoptions : AsksForItems options)
    (steps : Nat) (rest : Bool) (w : World σ) :
    exists fault, ComesToNothing (.stream options steps rest : Operation Create Update)
      (.failed (.invalidArgument fault))
      (begin c options steps rest w : Outcome α × World σ).1 := by
  rcases Collection.stream_of_unassignable (α := α) hname hvalue hoptions with
    ⟨fault, hstream | ⟨listing, hstream, hrefuses, hbuffer, hpage⟩⟩
  · unfold begin
    rw [hstream]
    exact ⟨fault, Or.inr ⟨⟨options, steps, rest, rfl⟩, rfl⟩⟩
  · unfold begin walk
    rw [hstream]
    dsimp only
    rw [hrefuses.nexts_of_page hbuffer hpage]
    dsimp only
    exists fault
    left
    cases rest with
    | false => rfl
    | true =>
      rw [if_pos rfl, hrefuses.collect_of_page hpage]
      rfl

theorem comesToNothing_of_placeholder {name : String}
    (hname : name ∈ Template.names (operation.template c))
    (hvalue : Request.IsUnassignable (operation.assigned? c name))
    (hoptions : forall options, operation.options? = some options -> AsksForItems options)
    (w : World σ) :
    exists fault, operation.ComesToNothing (.failed (.invalidArgument fault))
      (operation.run c w : Outcome α × World σ).1 := by
  have hitem : forall {id' : String}, name ∈ Template.names c.resource.itemPath ->
      Request.IsUnassignable (if name = "id" then some id' else c.pathParam? name) ->
      operation.identifier? = some id' ->
      exists fault, operation.ComesToNothing (.failed (.invalidArgument fault))
        (operation.run c w : Outcome α × World σ).1 := by
    intro id' hname hvalue hid
    rcases run_of_itemRequest (α := α) hid
      (Collection.itemRequest_of_unassignable hname hvalue) w with ⟨fault, hrun⟩
    exact ⟨fault, Or.inl hrun⟩
  cases operation with
  | call request body =>
    rcases c.client.prepare_of_unassignable request hname hvalue with ⟨fault, hfault⟩
    exists fault
    left
    show Outcome.response (c.client.call request body w).1 = _
    rw [Client.call_of_refused (hfault body)]
    rfl
  | find path =>
    rcases c.client.prepare_of_unassignable (.new .get path) hname hvalue with ⟨fault, hfault⟩
    exists fault
    left
    show Outcome.response (c.client.call (.new .get path) none w).1 = _
    rw [Client.call_of_refused (hfault none)]
    rfl
  | get id' => exact hitem hname hvalue rfl
  | update id' options => exact hitem hname hvalue rfl
  | delete id' => exact hitem hname hvalue rfl
  | list options =>
    rcases list_of_unassignable (α := α) hname hvalue (hoptions options rfl) w with
      ⟨fault, hlist⟩
    exact ⟨fault, Or.inl (congrArg Outcome.items hlist)⟩
  | listPage page options =>
    rcases Collection.listPage_of_unassignable (α := α) hname hvalue (hoptions options rfl) page
      w with ⟨fault, hpage⟩
    exact ⟨fault, Or.inl (congrArg Outcome.page (congrArg Prod.fst hpage))⟩
  | create options =>
    rcases Collection.prepare_of_unassignable hname hvalue .post with ⟨fault, hfault⟩
    exists fault
    left
    show Outcome.item (Collection.data (c.client.call _ _ w)).1 = _
    rw [Client.call_of_refused (hfault _)]
    rfl
  | createIdempotent options =>
    rcases Collection.prepare_of_unassignable hname hvalue .post with ⟨fault, hfault⟩
    exists fault
    left
    show Outcome.item (Collection.data (c.client.call _ _ w)).1 = _
    rw [Client.call_of_refused ((c.client.prepare_withIdempotent _ _ true).trans (hfault _))]
    rfl
  | stream options steps rest =>
    exact begin_of_unassignable hname hvalue (hoptions options rfl) steps rest w

theorem Faulty.comesToNothing (h : operation.Faulty c) (w : World σ) :
    exists fault, operation.ComesToNothing (.failed (.invalidArgument fault))
      (operation.run c w : Outcome α × World σ).1 := by
  cases h with
  | emptyIdentifier hid =>
    have hrequest :
        forall method, exists fault, c.itemRequest method "" = .error (.invalidArgument fault) ∨
        exists request, c.itemRequest method "" = .ok request ∧
          forall body, c.client.prepare request body = .error (.invalidArgument fault) :=
      fun _ => ⟨_, Or.inl rfl⟩
    rcases run_of_itemRequest (α := α) hid hrequest w with ⟨fault, hrun⟩
    exact ⟨fault, Or.inl hrun⟩
  | @dotIdentifier id' hid hdots htemplate =>
    have hvalue : Request.IsUnassignable (if "id" = "id" then some id' else c.pathParam? "id") := by
      rw [if_pos rfl]
      rcases hdots with rfl | rfl
      · exact Or.inr (Or.inr (Or.inl rfl))
      · exact Or.inr (Or.inr (Or.inr rfl))
    rcases run_of_itemRequest (α := α) hid
      (Collection.itemRequest_of_unassignable htemplate hvalue) w with ⟨fault, hrun⟩
    exact ⟨fault, Or.inl hrun⟩
  | placeholder hname hvalue hoptions => exact comesToNothing_of_placeholder hname hvalue hoptions w
  | pageZero hpage =>
    subst hpage
    exact ⟨.pageZero, Or.inl rfl⟩
  | @pageSize options hoptions hsize =>
    rcases options?_cases hoptions with rfl | ⟨page, rfl⟩ | ⟨steps, rest, rfl⟩
    · rcases Collection.stream_of_refusesSize (α := α) hsize with ⟨fault, hstream⟩
      exists fault
      left
      show Outcome.items (c.list options w).1 = _
      unfold Collection.list
      rw [hstream]
      rfl
    · show exists fault, ComesToNothing _ _ (Outcome.page (c.listPage page options w).1)
      unfold Collection.listPage
      by_cases hpage : page = 0
      · rw [if_pos hpage]
        exact ⟨_, Or.inl rfl⟩
      · rcases Collection.apply_of_refusesSize hsize (c.collectionRequest .get) with
          ⟨fault, happly⟩
        rw [if_neg hpage, happly]
        exact ⟨fault, Or.inl rfl⟩
    · rcases Collection.stream_of_refusesSize (α := α) hsize with ⟨fault, hstream⟩
      exists fault
      right
      show _ ∧ (begin c options steps rest w : Outcome α × World σ).1 = _
      unfold begin
      rw [hstream]
      exact ⟨⟨options, steps, rest, rfl⟩, rfl⟩

/-- Refused arguments have no effect: an operation with a refusal among its results has sent
nothing, taken no reply and handed no delay to the sleeper.  Arguments that are out of the question
are always refused, also by a client whose token is canceled. -/
theorem refused_arguments_have_no_effect :
    (forall (c : Collection Create Update) (operation : Operation Create Update) (w : World σ)
        (halt : Halt), halt ∈ (operation.run c w : Outcome α × World σ).1.halts ->
      halt.isRefusal = true ->
        World.SameTraffic w (operation.run c w : Outcome α × World σ).2) ∧
      forall (c : Collection Create Update) (operation : Operation Create Update) (w : World σ),
        operation.Faulty c -> exists fault,
          operation.ComesToNothing (.failed (.invalidArgument fault))
            (operation.run c w : Outcome α × World σ).1 := by
  constructor
  · intro c operation w halt hhalt hrefusal
    rcases run_cases (α := α) c operation w with hsame | hunrefused
    · exact hsame
    · rw [hunrefused halt hhalt] at hrefusal
      cases hrefusal
  · intro c operation w hfaulty
    exact hfaulty.comesToNothing w

end Operation

namespace Sample

def insistent : Collection Unit Unit :=
  { numbers with client := { cancelable with predicate := fun _ _ => true } }

/-- Two dots are no identifier, and nobody is asked for them. -/
theorem dots_are_refused :
    (Operation.get ".." : Operation Unit Unit).Faulty insistent ∧
      ((Operation.get "..").run insistent ((world [reply 3 (some (.ok done))]).cancel token) :
        Outcome UInt64 × World Script).1 =
          .item (.error (.failed (.invalidArgument (.dotSegment "id" "..")))) ∧
      World.SameTraffic ((world [reply 3 (some (.ok done))]).cancel token)
        ((Operation.get "..").run insistent ((world [reply 3 (some (.ok done))]).cancel token) :
          Outcome UInt64 × World Script).2 := by
  have hfaulty : (Operation.get ".." : Operation Unit Unit).Faulty insistent :=
    .dotIdentifier rfl (Or.inr rfl) (by decide +kernel)
  have heffects := @Operation.refused_arguments_have_no_effect Script UInt64 Unit Unit _ _
  rcases heffects.2 insistent _ ((world [reply 3 (some (.ok done))]).cancel token) hfaulty with
    ⟨fault, hnothing | ⟨⟨_, _, _, hstream⟩, _⟩⟩
  · have hget : (insistent.get ".." ((world [reply 3 (some (.ok done))]).cancel token) :
        Except Halt UInt64 × World Script).1 =
          .error (.failed (.invalidArgument (.dotSegment "id" ".."))) := by
      decide +kernel
    refine ⟨hfaulty, congrArg Outcome.item hget,
      heffects.1 insistent _ _ (.failed (.invalidArgument fault)) ?_ rfl⟩
    rw [hnothing]
    exact List.mem_singleton_self _
  · cases hstream

end Sample
end RestClient
