import RestClient.Resource

/-!
# Operations

Everything that can be asked of a collection and its client, and what comes of it.
-/

namespace RestClient

inductive Operation (Create Update : Type) where
  | call (request : Request) (body : Option Payload)
  | find (path : String)
  | get (id : String)
  | list (options : ListOptions)
  | listPage (page : UInt32) (options : ListOptions)
  | create (options : Create)
  | createIdempotent (options : Create)
  | update (id : String) (options : Update)
  | delete (id : String)
  /-- Takes so many items of a listing, and then perhaps all that remain. -/
  | stream (options : ListOptions) (steps : Nat) (rest : Bool)

inductive Outcome (Item : Type) where
  | response (result : Except Halt (Response Item))
  | item (result : Except Halt Item)
  | items (result : Except Halt (List Item))
  | page (result : Except Halt (Page Item))
  | done (result : Except Halt Unit)
  | steps (results : List (Except Halt (Option Item))) (rest : Option (Except Halt (List Item)))

namespace Operation

variable {σ Item Create Update : Type} [Transport σ] [Json.Decode Item]

def walk (listing : Listing Item) (steps : Nat) (rest : Bool) (w : World σ) :
    Outcome Item × World σ :=
  let (results, listing, w) := listing.nexts steps w
  if rest then
    let (items, w) := listing.collect w
    (.steps results (some items), w)
  else (.steps results none, w)

def begin (c : Collection Create Update) (options : ListOptions) (steps : Nat) (rest : Bool)
    (w : World σ) : Outcome Item × World σ :=
  match c.stream options with
  | .error e => (.items (.error (.failed e)), w)
  | .ok listing => walk listing steps rest w

def run (c : Collection Create Update) (operation : Operation Create Update) (w : World σ) :
    Outcome Item × World σ :=
  match operation with
  | .call request body => (c.client.call request body w).map .response id
  | .find path => (c.client.get path w).map .response id
  | .get id' => (c.get id' w).map .item id
  | .list options => (c.list options w).map .items id
  | .listPage page options => (c.listPage page options w).map .page id
  | .create options => (c.create options w).map .item id
  | .createIdempotent options => (c.createIdempotent options w).map .item id
  | .update id' options => (c.update id' options w).map .item id
  | .delete id' => (c.delete id' w).map .done id
  | .stream options steps rest => begin c options steps rest w

end Operation
end RestClient
