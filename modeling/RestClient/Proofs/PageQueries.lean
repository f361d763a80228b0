import RestClient.Proofs.Filters
import RestClient.Proofs.LentQueries
import RestClient.Proofs.Parameters

/-!
# Page queries

The last writes carry over from a handle to what its operations send.  An item is asked for under
its own identifier and the last values of its handle, and a request for a page says once which page
it is and once how many items are on it, behind what the root may have said before.
-/

namespace RestClient

/-!
## Parameters of addresses
-/

theorem Form.read_append (text rest : List Char) :
    read (text ++ '&' :: rest) = read text ++ read rest := by
  have hsplit : splitBy (· == '&') (text ++ '&' :: rest) =
      splitBy (· == '&') text ++ splitBy (· == '&') rest :=
    splitBy_append rfl text rest
  unfold read
  rw [hsplit, List.filter_append, List.map_append]

namespace Url

variable {root url : Url} {reference : List Char} {page size : UInt32}

/-- What a reader of forms finds in the query. -/
def params (url : Url) : List (String × String) := url.query.elim [] Form.read

theorem params_addPairs (url : Url) (pairs : List (String × String)) :
    (url.addPairs pairs).params = url.params ++ pairs := by
  have hwritten := Form.read_intercalate pairs
  unfold params addPairs
  dsimp only
  rcases url.query with _ | _ | ⟨c, rest⟩
  · exact hwritten
  · exact hwritten
  · cases pairs with
    | nil =>
      show Form.read (List.intercalate ['&'] [c :: rest]) = _
      rw [List.intercalate_singleton]
      exact (List.append_nil _).symm
    | cons pair pairs =>
      show Form.read (List.intercalate ['&'] ((c :: rest) :: (pair :: pairs).map pairText)) = _
      rw [List.map_cons] at hwritten ⊢
      rw [List.intercalate_cons_cons, List.append_assoc, List.singleton_append, Form.read_append,
        hwritten]
      rfl

/-- The parameters that a reference takes over from the root. -/
def lent (root : Url) (reference : List Char) : List (String × String) :=
  if root.lendsQuery reference then root.params else []

theorem params_join (h : '?' ∉ reference) (hjoin : root.join reference = .ok url) :
    url.params = root.lent reference := by
  unfold params lent
  rw [query_join h hjoin]
  split
  · rfl
  · rfl

/-- A fragment alone takes over what the root says, another path does not. -/
example :
    lent { Sample.root with query := some "page=3".toList } "#top".toList = [("page", "3")] ∧
      lent { Sample.root with query := some "page=3".toList } "p#top".toList = [] := by
  decide +kernel

def pageParams (page size : UInt32) : List (String × String) :=
  [("page", toString page.toNat), ("page_size", toString size.toNat)]

theorem lent_eq_nil (h : root.query = none ∨ root.lendsQuery reference = false) :
    root.lent reference = [] := by
  unfold lent
  rcases h with hquery | hlends
  · have hnone : root.params = [] := by
      unfold params
      rw [hquery]
      rfl
    rw [hnone]
    exact ite_self _
  · rw [hlends]
    rfl

/-- Behind what the root lends to the reference, the address says which page is asked for and how
many items are on it.  If the root has nothing to lend, it says each of them once. -/
structure ShowsPage (url root : Url) (reference : List Char) (page size : UInt32) : Prop where
  params : url.params = root.lent reference ++ pageParams page size
  page : root.query = none ∨ root.lendsQuery reference = false ->
    (url.params.filter fun param => param.1 = "page") = [("page", toString page.toNat)]
  size : root.query = none ∨ root.lendsQuery reference = false ->
    (url.params.filter fun param => param.1 = "page_size") =
      [("page_size", toString size.toNat)]

theorem showsPage_of_params (h : url.params = root.lent reference ++ pageParams page size) :
    url.ShowsPage root reference page size := by
  constructor
  · exact h
  · intro hnothing
    rw [h, lent_eq_nil hnothing]
    rfl
  · intro hnothing
    rw [h, lent_eq_nil hnothing]
    rfl

end Url

/-!
## Requests for pages
-/

theorem Template.IsFilled.mem {stands : String -> String -> Prop} {template : String}
    {text : List Char} {c : Char} (h : IsFilled stands template text) (hc : c ∈ text) :
    c ∈ template.toList ∨ Percent.isEncoded c = true := by
  rcases h with ⟨s, values, htemplate, -, -, rfl⟩
  rw [← htemplate]
  unfold Splitting.text
  rw [List.mem_append, List.mem_append]
  rcases List.mem_append.mp hc with hfront | hlast
  · rcases Request.mem_fill hfront with hliteral | hencoded
    · rcases List.mem_flatMap.mp hliteral with ⟨part, hpart, hmem⟩
      exact Or.inl (Or.inl (List.mem_flatMap.mpr ⟨part, hpart, List.mem_append_left _ hmem⟩))
    · exact Or.inr hencoded
  · exact Or.inl (Or.inr (Or.inl hlast))

namespace Collection

variable {Create Update : Type} {client : Client} {resource : Resource Create Update}
  {history : List (String × String)} {options : ListOptions} {page size : UInt32}

theorem describes_of_apply {applied : Request × UInt32}
    (h : options.apply (((of client resource).withPathParams history).collectionRequest .get)
      client.pageSize = .ok applied) (page : UInt32) :
    (applied.1.forPage page applied.2).Describes resource.collectionPath (GivenValue history)
      (Url.pageParams page applied.2) := by
  have hresource : ((of client resource).withPathParams history).resource = resource :=
    resource_withPathParams _ _
  unfold collectionRequest at h
  rw [hresource] at h
  rcases ListOptions.exists_headers_of_apply h with ⟨headers, hrequest⟩
  have hquery : applied.1.queryParams = [] := by
    rw [hrequest]
    exact queryParams_request _ _ _
  refine Request.describes_of_get? ?_ (Request.queryParams_forPage hquery page applied.2) ?_
  · rw [hrequest]
    exact (get?_request _ .get resource.collectionPath "").1
  · rw [hrequest]
    exact get?_request_eq_some_iff client resource history .get resource.collectionPath

/-- As it is described, the request asks for one page, and so does the address to which it is
sent, if the template has no query of its own. -/
def AsksOnce (client : Client) (template : String) (history : List (String × String))
    (sent : HttpRequest) : Prop :=
  exists (page size : UInt32) (request : Request) (text : List Char),
    request.Describes template (GivenValue history) (Url.pageParams page size) ∧
      client.prepare request none = .ok sent ∧ request.renderPath = .ok text ∧
      ('?' ∉ template.toList ->
        sent.url.ShowsPage client.root (Request.reference text) page size)

theorem asksOnce_of_describes {template : String} {request : Request} {sent : HttpRequest}
    (h : request.Describes template (GivenValue history) (Url.pageParams page size))
    (hprepare : client.prepare request none = .ok sent) :
    AsksOnce client template history sent := by
  rcases h.exists_of_prepare hprepare with ⟨text, joined, htext, hfilled, hjoin, hurl⟩
  refine ⟨page, size, request, text, h, hprepare, htext, ?_⟩
  intro hmark
  have hinside : '?' ∉ Request.reference text := by
    intro hmem
    rcases hfilled.mem (List.dropWhile_subset _ hmem) with hliteral | hencoded
    · exact hmark hliteral
    · exact Bool.noConfusion hencoded
  apply Url.showsPage_of_params
  rw [hurl, ← Url.params_join hinside hjoin]
  exact Url.params_addPairs joined _

theorem asksWith_asksOnce (client : Client) (resource : Resource Create Update)
    (history : List (String × String)) (options : ListOptions) :
    ((of client resource).withPathParams history).AsksWith options
      (AsksOnce client resource.collectionPath history) := by
  unfold AsksWith
  rw [client_withPathParams]
  intro applied happly page sent hprepare
  exact asksOnce_of_describes (describes_of_apply happly page) hprepare

end Collection

/-!
## Operations
-/

namespace Operation

open World (SendsAll SendsThis)
open Collection (AddressesItem AsksOnce NamesItem)

variable {σ α Create Update : Type} [Transport σ] [Json.Decode α] {client : Client}
  {resource : Resource Create Update} {history : List (String × String)}
  {operation : Operation Create Update} {options : ListOptions} {id' : String}

theorem exists_namesItem (hid : operation.identifier? = some id') (hne : id' ≠ "") :
    exists (request : Request) (body : Option Payload),
      NamesItem resource.itemPath history id' request ∧
        forall w : World σ, SendsThis (client.prepare request body) client.cancel w
          (operation.run ((Collection.of client resource).withPathParams history) w :
            Outcome α × World σ).2 := by
  rcases run_of_identifier (σ := σ) (α := α)
    ((Collection.of client resource).withPathParams history) hid with ⟨method, body, -, hsends⟩
  rw [Collection.client_withPathParams] at hsends
  have hrequest : ((Collection.of client resource).withPathParams history).itemRequest method id' =
      .ok _ := if_neg hne
  exact ⟨_, body, Collection.namesItem_of_itemRequest hrequest, hsends _ hrequest⟩

theorem sendsAll_addressesItem (hid : operation.identifier? = some id') (w : World σ) :
    SendsAll (AddressesItem client.root resource.itemPath history id') w
      (operation.run ((Collection.of client resource).withPathParams history) w :
        Outcome α × World σ).2 := by
  rcases run_of_identifier (σ := σ) (α := α)
    ((Collection.of client resource).withPathParams history) hid with
    ⟨method, body, hnothing, hsends⟩
  rw [Collection.client_withPathParams] at hsends
  cases hrequest : ((Collection.of client resource).withPathParams history).itemRequest method
      id' with
  | error e =>
    rw [hnothing e hrequest w]
    exact World.sendsAll_self w
  | ok request =>
    rcases (hsends request hrequest w).only with ⟨sent, hsent, hall⟩
    refine ⟨sent, hsent, ?_⟩
    intro prepared hprepared
    exact (Collection.namesItem_of_itemRequest hrequest).addressesItem (hall prepared hprepared)

/-- What an operation sends has the last values that were given to its handle, whatever the world
is in which it is run. -/
structure SendsLastValues (σ α : Type) [Transport σ] [Json.Decode α] (client : Client)
    (resource : Resource Create Update) (history : List (String × String))
    (operation : Operation Create Update) : Prop where
  item : forall id', operation.identifier? = some id' -> forall w : World σ,
    SendsAll (AddressesItem client.root resource.itemPath history id') w
      (operation.run ((Collection.of client resource).withPathParams history) w :
        Outcome α × World σ).2
  /-- A single request is all that is sent for an item, however often it is repeated. -/
  request : forall id', operation.identifier? = some id' -> id' ≠ "" ->
    exists (request : Request) (body : Option Payload),
      NamesItem resource.itemPath history id' request ∧
        forall w : World σ, SendsThis (client.prepare request body) client.cancel w
          (operation.run ((Collection.of client resource).withPathParams history) w :
            Outcome α × World σ).2
  pages : forall options, operation.options? = some options -> forall w : World σ,
    operation.SendsPages ((Collection.of client resource).withPathParams history) options
      (AsksOnce client resource.collectionPath history) w
      (operation.run ((Collection.of client resource).withPathParams history) w :
        Outcome α × World σ).2

end Operation

/-- Parameters are the last writes, from the steps of a description to what is sent.  An identifier
takes the place of an `id` that was given to the handle of its collection.  If the template of a
collection has no query of its own, a request for a page has the two parameters of the page alone:
only where the filled template names no path at all, the root's own query stands in front of
them. -/
theorem parameters_are_last_writes {σ α Create Update : Type} [Transport σ] [Json.Decode α] :
    (forall (request : Request) (step : Request.Step),
      Request.SameBut step.part request (request.perform step)) ∧
    (forall (request : Request) (steps : List Request.Step),
      Assoc.Keeps (steps.map Request.Step.pathParam?) request.pathParams
          (request.performAll steps).pathParams ∧
        Assoc.Keeps (steps.map Request.Step.queryParam?) request.queryParams
          (request.performAll steps).queryParams ∧
        forall made, request.takeAll steps = .ok made -> request.performAll steps = made) ∧
    (forall (request other : Request) (steps more : List Request.Step), other.path = request.path ->
      (forall name, name ∈ Template.names request.path -> forall value,
        Assoc.LastValue (more.map Request.Step.pathParam?) other.pathParams name value <->
          Assoc.LastValue (steps.map Request.Step.pathParam?) request.pathParams name value) ->
      (other.performAll more).renderPath = (request.performAll steps).renderPath) ∧
    forall (client : Client) (resource : Resource Create Update) (history : List (String × String))
      (operation : Operation Create Update),
      operation.SendsLastValues σ α client resource history := by
  refine ⟨Request.sameBut_perform, ?_, ?_, ?_⟩
  · intro request steps
    have hremembers := request.remembers_performAll steps
    rw [hremembers.pathParams, hremembers.queryParams]
    exact ⟨Assoc.keeps_writeAll _ _, Assoc.keeps_writeAll _ _,
      fun made => Request.performAll_of_takeAll⟩
  · intro request other steps more
    exact Request.renderPath_performAll_congr
  · intro client resource history operation
    constructor
    · intro id' hid
      exact Operation.sendsAll_addressesItem hid
    · intro id' hid
      exact Operation.exists_namesItem hid
    · intro options hoptions
      exact Operation.sendsPages_run (Collection.asksWith_asksOnce _ _ _ _) hoptions

namespace Sample

def nested : Resource Unit Unit :=
  { name := "leaf", collectionPath := "\x7btree\x7d/leaves", itemPath := "\x7btree\x7d/\x7bid\x7d"
    createBody := fun _ => .ok .null, updateBody := fun _ => .ok .null }

def regiven : List (String × String) := [("tree", "ash"), ("id", "1"), ("tree", "elm")]

def leaves : Collection Unit Unit := (Collection.of client nested).withPathParams regiven

def afterItem : World Script :=
  ((Operation.get "7").run leaves onePage : Outcome UInt64 × _).2

def afterList : World Script :=
  ((Operation.list .default).run leaves onePage : Outcome UInt64 × _).2

theorem last_writes_are_sent :
    (afterItem.requests.map (·.url.path) = [.segments ["elm".toList, "7".toList]] ∧
      World.SendsAll (Collection.AddressesItem root nested.itemPath regiven "7") onePage
        afterItem) ∧
    (afterList.requests.map (·.url.params) = [[("page", "1"), ("page_size", "100")]] ∧
      World.SendsAll (Collection.AsksOnce client nested.collectionPath regiven) onePage
        afterList) ∧
    ((Request.new .get "\x7btree\x7d").performAll
        [.pathParam "tree" "ash", .header "" "", .pathParam "tree" "elm"]).renderPath =
      ((Request.new .get "\x7btree\x7d").performAll [.pathParam "tree" "elm"]).renderPath := by
  have hlast := @parameters_are_last_writes Script UInt64 Unit Unit _ _
  have hoperations := hlast.2.2.2 client nested regiven
  refine ⟨⟨by decide +kernel, (hoperations (.get "7")).item "7" rfl onePage⟩,
    ⟨by decide +kernel, ((hoperations (.list .default)).pages .default rfl onePage).all⟩, ?_⟩
  apply hlast.2.2.1 _ _ _ _ rfl
  have hnames : Template.names (Request.new .get "\x7btree\x7d").path = ["tree"] := by
    decide +kernel
  intro name hname value
  rw [hnames, List.mem_singleton] at hname
  rw [hname, ← (Assoc.keeps_writeAll _ _).get?_eq_some_iff,
    ← (Assoc.keeps_writeAll _ _).get?_eq_some_iff]
  rfl

def pathless : Resource Unit Unit := { nested with collectionPath := "" }

def askedTwice : Except Error (List HttpRequest) :=
  (Client.ofSettings [.root "http://h/v4?page=3"]).map fun client =>
    ((Operation.list .default).run (Collection.of client pathless) onePage :
      Outcome UInt64 × World Script).2.requests

/-- Where the template names no path, a root with a page of its own is in front of the first one. -/
theorem root_asks_for_another_page :
    '?' ∉ pathless.collectionPath.toList ∧ exists sent, askedTwice = .ok [sent] ∧
      sent.url.params = [("page", "3"), ("page", "1"), ("page_size", "100")] ∧
      ¬ exists value, (sent.url.params.filter fun param => param.1 = "page") =
        [("page", value)] := by
  have hparams : askedTwice.toOption.map (List.map (·.url.params)) =
      some [[("page", "3"), ("page", "1"), ("page_size", "100")]] := by
    decide +kernel
  refine ⟨by decide, ?_⟩
  cases hasked : askedTwice with
  | error e =>
    rw [hasked] at hparams
    cases hparams
  | ok requests =>
    rw [hasked] at hparams
    injection hparams with hrequests
    rcases List.map_eq_singleton_iff.mp hrequests with ⟨sent, rfl, hsent⟩
    refine ⟨sent, rfl, hsent, ?_⟩
    intro hexists
    rcases hexists with ⟨value, honce⟩
    rw [hsent] at honce
    cases honce

end Sample
end RestClient
