import RestClient.Json.Record

/-!
# Pages

One page of a listing, and the rules by which a listing goes from page to page: it begins with the
first, ends behind the last or when it has as many items as were asked for, and cuts the last page
so that their number is met exactly.
-/

namespace RestClient

structure PageDescriptor where
  page : UInt32
  pages : UInt32
  results : UInt64
deriving DecidableEq

namespace PageDescriptor

def record : Json.Record [UInt32, UInt32, UInt64] PageDescriptor where
  name := "PageDescriptor"
  fields :=
    .cons "page" Json.decoder none <|
    .cons "pages" Json.decoder none <|
    .cons "results" Json.decoder none .nil
  build := fun (page, pages, results, _) => { page, pages, results }

instance : Json.Decode PageDescriptor := ⟨record.decoder⟩

instance : Json.Encode PageDescriptor :=
  ⟨fun d => .object
    [("page", Json.encode d.page), ("pages", Json.encode d.pages),
      ("results", Json.encode d.results)]⟩

end PageDescriptor

structure Page (α : Type) where
  /-- The items in the order of the server. -/
  data : List α
  page : UInt32
  pages : UInt32
  results : UInt64
deriving DecidableEq

namespace Page

variable {α : Type}

def descriptor (page : Page α) : PageDescriptor := ⟨page.page, page.pages, page.results⟩

def record [Json.Decode α] : Json.Record [List α, UInt32, UInt32, UInt64] (Page α) where
  name := "Page"
  fields :=
    .cons "data" Json.decoder none <|
    .cons "page" Json.decoder none <|
    .cons "pages" Json.decoder none <|
    .cons "results" Json.decoder none .nil
  build := fun (data, page, pages, results, _) => { data, page, pages, results }

instance [Json.Decode α] : Json.Decode (Page α) := ⟨record.decoder⟩

instance [Json.Encode α] : Json.Encode (Page α) :=
  ⟨fun p => .object
    [("data", Json.encode p.data), ("page", Json.encode p.page),
      ("pages", Json.encode p.pages), ("results", Json.encode p.results)]⟩

end Page

structure Paginator where
  pageSize : UInt32
  maxResults : Option Nat
  /-- The page to ask for next, unless the listing has ended. -/
  nextPage : Option UInt32
  yielded : Nat
deriving DecidableEq

namespace Paginator

/-- A listing before its first page.  Without any item to hand out it has ended already. -/
def start (pageSize : UInt32) (maxResults : Option Nat) : Paginator :=
  { pageSize, maxResults, nextPage := if maxResults = some 0 then none else some 1, yielded := 0 }

def isDone (p : Paginator) : Bool := p.nextPage.isNone

def admitted {α : Type} (p : Paginator) (items : List α) : List α :=
  match p.maxResults with
  | some most => items.take (most - p.yielded)
  | none => items

/-- As many items were handed out as were asked for. -/
def isFull (maxResults : Option Nat) (yielded : Nat) : Bool :=
  match maxResults with
  | some most => most ≤ yielded
  | none => false

/-- Takes the answer to a request for a page: the items to hand out, and where the listing stands
then. -/
def accept {α : Type} (p : Paginator) (requested : UInt32) (page : Page α) :
    List α × Paginator :=
  let items := p.admitted page.data
  let yielded := p.yielded + items.length
  let nextPage :=
    if isFull p.maxResults yielded || page.pages ≤ requested then none else some (requested + 1)
  (items, { p with nextPage, yielded })

theorem yielded_accept {α : Type} (p : Paginator) (requested : UInt32) (page : Page α) :
    (p.accept requested page).2.yielded =
      p.yielded + (p.accept requested page).1.length := rfl

end Paginator
end RestClient
