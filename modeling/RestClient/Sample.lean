import RestClient.Resource

/-!
# A sample

A small client, its requests and some replies, at which general statements can be looked at.
-/

namespace RestClient
namespace Sample

def root : Url :=
  { scheme := ['h', 't', 't', 'p'], username := [], password := [], host := some (.domain ['h'])
    port := none, path := .segments [[]], query := none, fragment := none }

/-- Two retries after five milliseconds each, and a hundred milliseconds for each attempt. -/
def client : Client :=
  { root, headers := .empty, strategy := .linear (.ofMillis 5) 2, predicate := .retryable
    timeout := some (.ofMillis 100), deadline := none, rateLimit := .default, pageSize := 100
    sleeper := .timer, cancel := none }

def request : Request := .new .get "p"

def prepared : HttpRequest :=
  { method := .get, url := { root with path := .segments [['p']] }, headers := .empty
    body := none, timeout := some (.ofMillis 100) }

def done : HttpResponse := ⟨⟨200, by decide, by decide⟩, .empty, []⟩

def unavailable : HttpResponse := ⟨⟨503, by decide, by decide⟩, .empty, []⟩

def listed (data : List UInt64) (page pages : UInt32) : HttpResponse :=
  ⟨done.status, .empty, (Json.encode (⟨data, page, pages, 0⟩ : Page UInt64)).toBytes⟩

def numbers : Collection Unit Unit :=
  .of client
    { name := "number", collectionPath := "p", itemPath := "p/\x7bid\x7d"
      createBody := fun _ => .ok .null, updateBody := fun _ => .ok .null }

def token : Token := ⟨0⟩

def cancelable : Client := client.withCancelToken token

def reply (millis : Nat) (outcome : Option (Except TransportFault HttpResponse)) : Reply :=
  ⟨.ofMillis millis, none, outcome⟩

/-- The same reply, which also cancels the sample token. -/
def canceling (reply : Reply) : Reply := { reply with cancels := some token }

def world (replies : List Reply) : World Script := .initial ⟨replies⟩ ⟨0⟩ fun _ => .whole

end Sample
end RestClient
