import RestClient.Proofs.LastWrites
import RestClient.Proofs.Rendering
import RestClient.Proofs.HinderedListing
import RestClient.Proofs.Settings
import RestClient.Proofs.SinglePages
import RestClient.Proofs.FaultyArguments
import RestClient.Proofs.Deletions
import RestClient.Proofs.Destinations

/-!
# Parameters

The parameters of a request are a map that remembers the last writes, through any steps that
describe the request, and so are the values of a handle, through the request that is made of them.
What a path renders as depends on its template and on the last value of each name in it alone.
-/

namespace RestClient

/-!
## Steps of a description
-/

namespace Request

variable {request other made : Request} {steps more : List Step}

inductive Part where
  | pathParams
  | queryParams
  | headers
  | idempotent

namespace Step

def part : Step -> Part
  | .pathParam _ _ => .pathParams
  | .queryParam _ _ => .queryParams
  | .header _ _ => .headers
  | .idempotent _ => .idempotent

def pathParam? : Step -> Option (String × String)
  | .pathParam name value => some (name, value)
  | _ => none

def queryParam? : Step -> Option (String × String)
  | .queryParam name value => some (name, value)
  | _ => none

end Step

/-- The description after a step.  A header field that is refused leaves it as it is. -/
def perform (request : Request) (step : Step) : Request :=
  match request.take step with
  | .error _ => request
  | .ok next => next

def performAll (request : Request) (steps : List Step) : Request := steps.foldl perform request

structure SameBut (part : Part) (request next : Request) : Prop where
  method : next.method = request.method
  path : next.path = request.path
  pathParams : part ≠ .pathParams -> next.pathParams = request.pathParams
  queryParams : part ≠ .queryParams -> next.queryParams = request.queryParams
  headers : part ≠ .headers -> next.headers = request.headers
  idempotent : part ≠ .idempotent -> next.idempotent = request.idempotent

theorem sameBut_perform (request : Request) (step : Step) :
    SameBut step.part request (request.perform step) := by
  cases step with
  | pathParam name value =>
    exact ⟨rfl, rfl, (absurd rfl ·), fun _ => rfl, fun _ => rfl, fun _ => rfl⟩
  | queryParam name value =>
    exact ⟨rfl, rfl, fun _ => rfl, (absurd rfl ·), fun _ => rfl, fun _ => rfl⟩
  | idempotent value => exact ⟨rfl, rfl, fun _ => rfl, fun _ => rfl, fun _ => rfl, (absurd rfl ·)⟩
  | header name value =>
    have hheaders :
        exists headers, request.perform (.header name value) = { request with headers } := by
      unfold perform
      cases htake : request.take (.header name value) with
      | error e => exact ⟨request.headers, rfl⟩
      | ok next => exact exists_headers_of_withHeader htake
    rcases hheaders with ⟨headers, hperform⟩
    rw [hperform]
    exact ⟨rfl, rfl, fun _ => rfl, fun _ => rfl, (absurd rfl ·), fun _ => rfl⟩

theorem pathParams_perform (request : Request) (step : Step) :
    (request.perform step).pathParams = Assoc.write request.pathParams step.pathParam? := by
  have hsame := (request.sameBut_perform step).pathParams
  cases step with
  | pathParam name value => rfl
  | queryParam | header | idempotent => exact hsame nofun

theorem queryParams_perform (request : Request) (step : Step) :
    (request.perform step).queryParams = Assoc.write request.queryParams step.queryParam? := by
  have hsame := (request.sameBut_perform step).queryParams
  cases step with
  | queryParam name value => rfl
  | pathParam | header | idempotent => exact hsame nofun

/-- What steps make of a description: its parameters remember the last writes. -/
structure Remembers (request : Request) (steps : List Step) (made : Request) : Prop where
  method : made.method = request.method
  path : made.path = request.path
  pathParams : made.pathParams = Assoc.writeAll request.pathParams (steps.map Step.pathParam?)
  queryParams : made.queryParams = Assoc.writeAll request.queryParams (steps.map Step.queryParam?)

theorem remembers_performAll (request : Request) (steps : List Step) :
    request.Remembers steps (request.performAll steps) := by
  induction steps generalizing request with
  | nil => exact ⟨rfl, rfl, rfl, rfl⟩
  | cons step rest ih =>
    have hfirst := request.sameBut_perform step
    have hrest := ih (request.perform step)
    constructor
    · exact hrest.method.trans hfirst.method
    · exact hrest.path.trans hfirst.path
    · refine hrest.pathParams.trans ?_
      rw [pathParams_perform]
      rfl
    · refine hrest.queryParams.trans ?_
      rw [queryParams_perform]
      rfl

theorem performAll_of_takeAll (h : request.takeAll steps = .ok made) :
    request.performAll steps = made := by
  induction steps generalizing request with
  | nil => exact Except.ok.inj h
  | cons step rest ih =>
    unfold takeAll at h
    cases htake : request.take step with
    | error e =>
      rw [htake] at h
      cases h
    | ok next =>
      rw [htake] at h
      have hperform : request.perform step = next := by
        unfold perform
        rw [htake]
      show (request.perform step).performAll rest = made
      rw [hperform]
      exact ih h

/-!
## Rendering
-/

theorem renderParts_congr {params params' : List (String × String)}
    {parts : List (List Char × List Char)}
    (h : forall part, part ∈ parts -> Assoc.get? params' (String.ofList part.2) =
      Assoc.get? params (String.ofList part.2)) :
    renderParts params' parts = renderParts params parts := by
  induction parts with
  | nil => rfl
  | cons part rest ih =>
    rcases List.forall_mem_cons.mp h with ⟨hfirst, hrest⟩
    have hvalue : renderValue params' part.2 = renderValue params part.2 := by
      unfold renderValue
      dsimp only
      rw [hfirst]
    unfold renderParts
    rw [hvalue, ih hrest]

theorem renderPath_congr (hpath : other.path = request.path)
    (hparams : forall name, name ∈ Template.names request.path ->
      Assoc.get? other.pathParams name = Assoc.get? request.pathParams name) :
    other.renderPath = request.renderPath := by
  have hparts : renderParts other.pathParams (Template.parse request.path).placeholders =
      renderParts request.pathParams (Template.parse request.path).placeholders := by
    apply renderParts_congr
    intro part hpart
    exact hparams _ (List.mem_map_of_mem hpart)
  unfold renderPath
  dsimp only
  rw [hpath, hparts]

theorem renderPath_performAll_congr (hpath : other.path = request.path)
    (hvalues : forall name, name ∈ Template.names request.path -> forall value,
      Assoc.LastValue (more.map Step.pathParam?) other.pathParams name value <->
        Assoc.LastValue (steps.map Step.pathParam?) request.pathParams name value) :
    (other.performAll more).renderPath = (request.performAll steps).renderPath := by
  have hfirst := request.remembers_performAll steps
  have hsecond := other.remembers_performAll more
  apply renderPath_congr
  · rw [hfirst.path, hsecond.path, hpath]
  · intro name hname
    rw [hfirst.path] at hname
    rw [hfirst.pathParams, hsecond.pathParams]
    apply Option.ext
    intro value
    rw [(Assoc.keeps_writeAll _ _).get?_eq_some_iff, (Assoc.keeps_writeAll _ _).get?_eq_some_iff]
    exact hvalues name hname value

end Request

def Template.IsFilled (stands : String -> String -> Prop) (path : String) (text : List Char) :
    Prop :=
  exists (s : Splitting) (values : List String), s.text = path.toList ∧ s.tail = none ∧
    List.Forall₂ (fun part value => stands (String.ofList part.2) value ∧
      Segment.IsProper value.toList) s.placeholders values ∧
    text = Request.fill s.placeholders values ++ s.last

theorem Request.renderPath_eq_ok_iff_isFilled {request : Request}
    {stands : String -> String -> Prop}
    (h : forall name value, Assoc.get? request.pathParams name = some value <-> stands name value)
    (text : List Char) :
    request.renderPath = .ok text <-> Template.IsFilled stands request.path text := by
  have hassigns : forall (part : List Char × List Char) (value : String),
      Assigns request.pathParams part.2 value <->
        stands (String.ofList part.2) value ∧ Segment.IsProper value.toList :=
    fun part value => and_congr_left' (h _ value)
  rcases Template.Splitting.exists_text_eq request.path.toList with ⟨s, hs⟩
  rw [renderPath_eq_ok_iff hs]
  constructor
  · rintro ⟨htail, values, hall, htext⟩
    exact ⟨s, values, hs, htail, hall.imp fun part value => (hassigns part value).mp, htext⟩
  · rintro ⟨other, values, hother, htail, hall, htext⟩
    rw [Template.Splitting.eq_of_text_eq (hother.trans hs.symm)] at htail hall htext
    exact ⟨htail, values, hall.imp fun part value => (hassigns part value).mpr, htext⟩

namespace Request

variable {client : Client} {request : Request} {template : String}
  {stands : String -> String -> Prop} {params : List (String × String)}

/-- The request has this path, with values that stand in it, and these parameters in its query. -/
structure Describes (request : Request) (template : String) (stands : String -> String -> Prop)
    (params : List (String × String)) : Prop where
  path : request.path = template
  queryParams : request.queryParams = params
  renders : forall text, request.renderPath = .ok text <-> Template.IsFilled stands template text

theorem describes_of_get? (hpath : request.path = template)
    (hparams : request.queryParams = params)
    (hstands : forall name value,
      Assoc.get? request.pathParams name = some value <-> stands name value) :
    request.Describes template stands params := by
  refine ⟨hpath, hparams, ?_⟩
  rw [← hpath]
  exact renderPath_eq_ok_iff_isFilled hstands

theorem Describes.exists_of_prepare (h : request.Describes template stands params)
    {body : Option Payload} {prepared : HttpRequest}
    (hprepare : client.prepare request body = .ok prepared) :
    exists text joined, request.renderPath = .ok text ∧ Template.IsFilled stands template text ∧
      client.root.join (reference text) = .ok joined ∧
      prepared.url = if params.isEmpty then joined else joined.addPairs params := by
  rcases url_cases (Client.url_of_prepare hprepare) with ⟨text, joined, htext, hjoin, hurl⟩
  rw [h.queryParams] at hurl
  exact ⟨text, joined, htext, (h.renders text).mp htext, hjoin, hurl⟩

end Request

/-!
## Handles
-/

namespace Collection

variable {Create Update : Type} {client : Client} {resource : Resource Create Update}
  {history : List (String × String)} {id' : String} {request : Request}

def withPathParams (c : Collection Create Update) (history : List (String × String)) :
    Collection Create Update :=
  history.foldl (fun c param => c.withPathParam param.1 param.2) c

theorem withPathParams_eq (c : Collection Create Update) (history : List (String × String)) :
    c.withPathParams history =
      { c with pathParams := Assoc.writeAll c.pathParams (history.map some) } := by
  induction history generalizing c with
  | nil => rfl
  | cons param rest ih => exact ih (c.withPathParam param.1 param.2)

theorem resource_withPathParams (c : Collection Create Update) (history : List (String × String)) :
    (c.withPathParams history).resource = c.resource := by
  rw [withPathParams_eq]

theorem client_withPathParams (c : Collection Create Update) (history : List (String × String)) :
    (c.withPathParams history).client = c.client := by
  rw [withPathParams_eq]

/-- A request is given what its handle was given, as if that were done for the request alone. -/
theorem pathParams_request_of_history (client : Client) (resource : Resource Create Update)
    (history : List (String × String)) (method : Method) (path : String) :
    (((of client resource).withPathParams history).request method path).pathParams =
      Assoc.writeAll [] (history.map some) := by
  have hparams : ((of client resource).withPathParams history).pathParams =
      Assoc.writeAll [] (history.map some) := by
    rw [withPathParams_eq]
    rfl
  have hagain := Assoc.writeAll_writeAll (history.map some)
  unfold Assoc.writeAll at hagain
  rw [List.foldl_map] at hagain
  rw [pathParams_request, hparams]
  exact hagain

def GivenValue (history : List (String × String)) (name value : String) : Prop :=
  exists time, Assoc.IsLastWrite (history.map some) time (name, value)

theorem get?_request_eq_some_iff (client : Client) (resource : Resource Create Update)
    (history : List (String × String)) (method : Method) (path name value : String) :
    Assoc.get? (((of client resource).withPathParams history).request method path).pathParams
      name = some value <-> GivenValue history name value := by
  rw [pathParams_request_of_history, (Assoc.keeps_writeAll _ _).get?_eq_some_iff]
  exact or_iff_left (by simp [Assoc.get?])

/-- What a placeholder in the path of an item stands for: the identifier, or the value that was
given to its name last. -/
def ItemValue (history : List (String × String)) (id' name value : String) : Prop :=
  if name = "id" then value = id' else GivenValue history name value

/-- The request is one for this item, and its identifier is what was written last. -/
structure NamesItem (template : String) (history : List (String × String)) (id' : String)
    (request : Request) : Prop where
  describes : request.Describes template (ItemValue history id') []
  pathParams : Assoc.Keeps ((history ++ [("id", id')]).map some) [] request.pathParams

theorem namesItem_of_itemRequest {method : Method}
    (h : ((of client resource).withPathParams history).itemRequest method id' = .ok request) :
    NamesItem resource.itemPath history id' request := by
  have hresource : ((of client resource).withPathParams history).resource = resource :=
    resource_withPathParams _ _
  have hparams := pathParams_request_of_history client resource history method resource.itemPath
  have hpath := (get?_itemRequest h "id").1
  rw [hresource] at hpath
  unfold itemRequest at h
  rw [hresource] at h
  split_ifs at h
  have hrequest := Except.ok.inj h
  have hwritten : request.pathParams =
      Assoc.writeAll [] ((history ++ [("id", id')]).map some) := by
    rw [List.map_append, List.map_singleton, Assoc.writeAll_snoc, ← hparams, ← hrequest]
    rfl
  constructor
  · apply Request.describes_of_get? hpath
    · rw [← hrequest]
      exact queryParams_request _ _ _
    · intro name value
      unfold ItemValue
      rw [← hrequest]
      show Assoc.get? (Assoc.set _ "id" id') name = some value <-> _
      by_cases hname : name = "id"
      · rw [if_pos hname, hname, Assoc.get?_set_self, Option.some.injEq]
        exact eq_comm
      · rw [if_neg hname, Assoc.get?_set_of_ne _ _ hname]
        exact get?_request_eq_some_iff client resource history method _ name value
  · rw [hwritten]
    exact Assoc.keeps_writeAll _ _

/-- The request goes to this item: its address is what the path says of it at the root. -/
def AddressesItem (root : Url) (template : String) (history : List (String × String))
    (id' : String) (request : HttpRequest) : Prop :=
  exists text, Template.IsFilled (ItemValue history id') template text ∧
    root.join (Request.reference text) = .ok request.url

theorem NamesItem.addressesItem {template : String} (h : NamesItem template history id' request)
    {body : Option Payload} {prepared : HttpRequest}
    (hprepare : client.prepare request body = .ok prepared) :
    AddressesItem client.root template history id' prepared := by
  rcases h.describes.exists_of_prepare hprepare with ⟨text, joined, -, hfilled, hjoin, hurl⟩
  have hbare : prepared.url = joined := hurl
  exact ⟨text, hfilled, hbare ▸ hjoin⟩

end Collection

namespace Operation

variable {σ α Create Update : Type} [Transport σ] [Json.Decode α] {client : Client}
  {resource : Resource Create Update} {operation : Operation Create Update} {id' : String}

theorem run_of_identifier (c : Collection Create Update) (hid : operation.identifier? = some id') :
    exists (method : Method) (body : Option Payload),
      (forall e, c.itemRequest method id' = .error e -> forall w : World σ,
        (operation.run c w : Outcome α × World σ).2 = w) ∧
      forall request, c.itemRequest method id' = .ok request -> forall w : World σ,
        World.SendsThis (c.client.prepare request body) c.client.cancel w
          (operation.run c w : Outcome α × World σ).2 := by
  cases operation with
  | get id₁ =>
    cases hid
    refine ⟨.get, none, ?_, ?_⟩
    · intro e he w
      show (c.get id' w : Except Halt α × World σ).2 = w
      unfold Collection.get
      rw [he]
    · intro request hrequest w
      show World.SendsThis _ _ w (c.get id' w : Except Halt α × World σ).2
      unfold Collection.get
      rw [hrequest]
      exact (c.client.sendsThis_call (α := α) request none w).congr (Collection.requests_data _)
  | update id₁ options =>
    cases hid
    refine ⟨.put, some (c.resource.updateBody options), ?_, ?_⟩
    · intro e he w
      show (c.update id' options w : Except Halt α × World σ).2 = w
      unfold Collection.update
      rw [he]
    · intro request hrequest w
      show World.SendsThis _ _ w (c.update id' options w : Except Halt α × World σ).2
      unfold Collection.update
      rw [hrequest]
      exact (c.client.sendsThis_call (α := α) request _ w).congr (Collection.requests_data _)
  | delete id₁ =>
    cases hid
    refine ⟨.delete, none, ?_, ?_⟩
    · intro e he w
      show (c.delete id' w : Except Halt Unit × World σ).2 = w
      unfold Collection.delete
      rw [he]
    · intro request hrequest w
      show World.SendsThis _ _ w (c.delete id' w : Except Halt Unit × World σ).2
      -- What is reported before the call sends nothing and cancels nothing.
      have hreport := w.sendsNothing_report (.deleting c.resource.name id')
      have hcall := c.client.sendsThis_call (α := Json.Ignored) request none
        (w.report (.deleting c.resource.name id'))
      rw [Collection.delete_of_call hrequest rfl]
      exact ⟨hreport.requests ▸ hcall.only, hreport.requests ▸ hcall.first⟩
  | call request body => cases hid
  | find path => cases hid
  | list options => cases hid
  | listPage page options => cases hid
  | create options => cases hid
  | createIdempotent options => cases hid
  | stream options steps rest => cases hid

end Operation

end RestClient
