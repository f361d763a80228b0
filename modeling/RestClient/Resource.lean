import RestClient.Listing

/-!
# Resources

A resource is a collection of items of one shape under a path of the interface.  Its operations
are those of any collection: get, list, create, update and delete.
-/

namespace RestClient

/-- A collection: what its items are called, where it is found, and what is sent to create or
update an item. -/
structure Resource (Create Update : Type) where
  name : String
  collectionPath : String
  /-- The path of an item; the placeholder `id` stands for its identifier. -/
  itemPath : String
  createBody : Create -> Payload
  updateBody : Update -> Payload

structure Collection (Create Update : Type) where
  resource : Resource Create Update
  client : Client
  pathParams : List (String × String)

namespace Collection

variable {σ Item Create Update : Type}

def of (client : Client) (resource : Resource Create Update) : Collection Create Update :=
  { resource, client, pathParams := [] }

def withPathParam (c : Collection Create Update) (name value : String) :
    Collection Create Update :=
  { c with pathParams := Assoc.set c.pathParams name value }

def request (c : Collection Create Update) (method : Method) (path : String) : Request :=
  c.pathParams.foldl (fun request param => request.withPathParam param.1 param.2)
    (.new method path)

def collectionRequest (c : Collection Create Update) (method : Method) : Request :=
  c.request method c.resource.collectionPath

def itemRequest (c : Collection Create Update) (method : Method) (id : String) :
    Except Error Request :=
  if id = "" then .error (.invalidArgument (.emptyIdentifier c.resource.name))
  else .ok ((c.request method c.resource.itemPath).withPathParam "id" id)

def data : Except Halt (Response Item) × World σ -> Except Halt Item × World σ
  | (.ok response, w) => (.ok response.data, w)
  | (.error halt, w) => (.error halt, w)

variable [Transport σ]

def get [Json.Decode Item] (c : Collection Create Update) (id : String) (w : World σ) :
    Except Halt Item × World σ :=
  match c.itemRequest .get id with
  | .error e => (.error (.failed e), w)
  | .ok request => data (c.client.call request none w)

def stream (c : Collection Create Update) (options : ListOptions) :
    Except Error (Listing Item) :=
  Listing.start c.client (c.collectionRequest .get) options

def list [Json.Decode Item] (c : Collection Create Update) (options : ListOptions)
    (w : World σ) : Except Halt (List Item) × World σ :=
  match c.stream options with
  | .error e => (.error (.failed e), w)
  | .ok listing => listing.collect w

/-- One page.  The most items to hand out do not count here. -/
def listPage [Json.Decode Item] (c : Collection Create Update) (page : UInt32)
    (options : ListOptions) (w : World σ) : Except Halt (Page Item) × World σ :=
  if page = 0 then (.error (.failed (.invalidArgument .pageZero)), w)
  else
    match options.apply (c.collectionRequest .get) c.client.pageSize with
    | .error e => (.error (.failed e), w)
    | .ok (request, size) => data (c.client.call (request.forPage page size) none w)

/-- Creates an item.  The request is never repeated. -/
def create [Json.Decode Item] (c : Collection Create Update) (options : Create) (w : World σ) :
    Except Halt Item × World σ :=
  data (c.client.call (c.collectionRequest .post) (some (c.resource.createBody options)) w)

/-- Creates an item, where a repetition cannot create another one. -/
def createIdempotent [Json.Decode Item] (c : Collection Create Update) (options : Create)
    (w : World σ) : Except Halt Item × World σ :=
  data (c.client.call ((c.collectionRequest .post).withIdempotent true)
    (some (c.resource.createBody options)) w)

def update [Json.Decode Item] (c : Collection Create Update) (id : String) (options : Update)
    (w : World σ) : Except Halt Item × World σ :=
  match c.itemRequest .put id with
  | .error e => (.error (.failed e), w)
  | .ok request => data (c.client.call request (some (c.resource.updateBody options)) w)

def delete (c : Collection Create Update) (id : String) (w : World σ) :
    Except Halt Unit × World σ :=
  match c.itemRequest .delete id with
  | .error e => (.error (.failed e), w)
  | .ok request =>
    let w := w.report (.deleting c.resource.name id)
    match (c.client.call request none w : Except Halt (Response Json.Ignored) × World σ) with
    | (.ok _, w) => (.ok (), w)
    | (.error halt, w) => (.error halt, w)

end Collection
end RestClient
