import RestClient.Client.Call
import RestClient.Page

/-!
# Listings

A listing walks the pages of a collection in order and hands out their items one at a time.  It
asks for a page only when no item is left, and after a failure it asks for the same page again.
-/

namespace RestClient

structure ListOptions where
  /-- Items on a page, unless the client decides. -/
  pageSize : Option UInt32
  maxResults : Option Nat
  filter : Option Json

namespace ListOptions

def default : ListOptions := ⟨none, none, none⟩

def filterHeader : String := "X-Filter"

def apply (options : ListOptions) (request : Request) (defaultSize : UInt32) :
    Except Error (Request × UInt32) :=
  let size := options.pageSize.getD defaultSize
  if size.toNat < leastPageSize ∨ greatestPageSize < size.toNat then
    .error (.invalidArgument (.pageSize size.toNat))
  else
    match options.filter with
    | none => .ok (request, size)
    | some filter =>
      match request.withHeader filterHeader filter.text with
      | .error e => .error e
      | .ok request => .ok (request, size)

end ListOptions

def Request.forPage (request : Request) (page size : UInt32) : Request :=
  (request.withQueryParam "page" (toString page.toNat)).withQueryParam "page_size"
    (toString size.toNat)

structure Listing (α : Type) where
  client : Client
  request : Request
  paginator : Paginator
  /-- Items that were received and not yet handed out. -/
  buffer : List α

namespace Listing

variable {σ α : Type}

def start (client : Client) (request : Request) (options : ListOptions) :
    Except Error (Listing α) :=
  match options.apply request client.pageSize with
  | .error e => .error e
  | .ok (request, size) =>
    .ok { client, request, paginator := .start size options.maxResults, buffer := [] }

/-- Asks for a page and puts its items behind those that are left. -/
def fetch [Transport σ] [Json.Decode α] (listing : Listing α) (page : UInt32) (w : World σ) :
    Except Halt (Listing α) × World σ :=
  let request := listing.request.forPage page listing.paginator.pageSize
  match (listing.client.call request none w : Except Halt (Response (Page α)) × World σ) with
  | (.error halt, w) => (.error halt, w)
  | (.ok response, w) =>
    let w := w.report (.fetched listing.request.path response.data.descriptor)
    let (items, paginator) := listing.paginator.accept page response.data
    (.ok { listing with paginator, buffer := listing.buffer ++ items }, w)

/-- A bound on the pages that can still be asked for: page numbers are 32-bit words and grow. -/
def pagesLeft (listing : Listing α) : Nat :=
  match listing.paginator.nextPage with
  | some page => UInt32.size - page.toNat
  | none => 0

/-- Asks for pages until there is an item or the listing ends.  If a page fails, the listing
stands where the page before it put it. -/
def nextWithin [Transport σ] [Json.Decode α] :
    Nat -> Listing α -> World σ -> Except Halt (Option α) × Listing α × World σ
  | fuel, listing, w =>
    match listing.buffer, listing.paginator.nextPage with
    | item :: rest, _ => (.ok (some item), { listing with buffer := rest }, w)
    | [], none => (.ok none, listing, w)
    | [], some page =>
      match fuel with
      | 0 => (.error .pending, listing, w)
      | fuel + 1 =>
        match listing.fetch page w with
        | (.error halt, w) => (.error halt, listing, w)
        | (.ok listing, w) => nextWithin fuel listing w

def next [Transport σ] [Json.Decode α] (listing : Listing α) (w : World σ) :
    Except Halt (Option α) × Listing α × World σ :=
  nextWithin listing.pagesLeft listing w

/-- Takes the next item so many times, whether or not it is there. -/
def nexts [Transport σ] [Json.Decode α] :
    Nat -> Listing α -> World σ -> List (Except Halt (Option α)) × Listing α × World σ
  | 0, listing, w => ([], listing, w)
  | n + 1, listing, w =>
    let (first, listing, w) := listing.next w
    let (rest, listing, w) := nexts n listing w
    (first :: rest, listing, w)

def collectWithin [Transport σ] [Json.Decode α] :
    Nat -> Listing α -> World σ -> Except Halt (List α) × World σ
  | fuel, listing, w =>
    match listing.paginator.nextPage with
    | none => (.ok listing.buffer, w)
    | some page =>
      match fuel with
      | 0 => (.error .pending, w)
      | fuel + 1 =>
        match listing.fetch page w with
        | (.error halt, w) => (.error halt, w)
        | (.ok listing, w) => collectWithin fuel listing w

/-- All remaining items.  If a page fails, none of them is returned. -/
def collect [Transport σ] [Json.Decode α] (listing : Listing α) (w : World σ) :
    Except Halt (List α) × World σ :=
  collectWithin listing.pagesLeft listing w

end Listing
end RestClient
