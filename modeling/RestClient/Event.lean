import RestClient.Error
import RestClient.Page

/-!
# Events

What a client reports about its work while it goes on: a level, a message, and named fields.
-/

namespace RestClient

inductive Level where
  | debug
  | info
  | warn
  | error
deriving DecidableEq

def Level.text : Level -> String
  | .debug => "DEBUG"
  | .info => "INFO"
  | .warn => "WARN"
  | .error => "ERROR"

inductive Event where
  | noToken
  | executing (method : Method) (url : Url) (attempt : Nat)
  | received (status : Status) (attempts : Nat)
  | notFound (response : String)
  | clientError (status : Status) (response : String)
  | serverError (status : Status) (response : String)
  | undecodable (detail rawResponse : String)
  | failed (e : Error) (attempt : Nat) (method : Method) (path : String)
  | retrying (delay : Duration) (attempt : Nat) (rateLimited : Bool)
  | exhausted (attempts : Nat) (backoff : Duration)
  | canceled
  | deadlineExceeded (deadline : Duration)
  | fetched (path : String) (page : PageDescriptor)
  | deleting (resource id : String)
deriving DecidableEq

namespace Event

def level : Event -> Level
  | .noToken | .executing .. | .notFound .. | .canceled | .fetched .. | .deleting .. => .debug
  | .received .. | .retrying .. => .info
  | .serverError .. | .failed .. | .exhausted .. | .deadlineExceeded .. => .warn
  | .clientError .. | .undecodable .. => .error

def message : Event -> String
  | .noToken => "No token configured; requests will be unauthenticated"
  | .executing .. => "Executing HTTP request"
  | .received .. => "Received HTTP response"
  | .notFound .. => "Resource not found"
  | .clientError .. => "Client error (4xx)"
  | .serverError .. => "Server error (5xx)"
  | .undecodable .. => "Failed to deserialize response"
  | .failed .. => "Request failed"
  | .retrying .. => "Retrying request after delay"
  | .exhausted .. => "Retries exhausted"
  | .canceled => "Call canceled"
  | .deadlineExceeded .. => "Call deadline exceeded"
  | .fetched .. => "Fetched page"
  | .deleting .. => "Deleting resource"

def fields : Event -> List (String × String)
  | .noToken => []
  | .executing method url attempt =>
    [("method", method.token), ("url", url.text), ("attempt", toString attempt)]
  | .received status attempts =>
    [("status", toString status.code), ("attempts", toString attempts)]
  | .notFound response => [("response", response)]
  | .clientError status response | .serverError status response =>
    [("status", toString status.code), ("response", response)]
  | .undecodable detail rawResponse => [("error", detail), ("raw_response", rawResponse)]
  | .failed e attempt method path =>
    [("error", e.text), ("attempt", toString attempt), ("method", method.token), ("path", path)]
  | .retrying delay attempt rateLimited =>
    [("delay_ms", toString delay.millis), ("attempt", toString attempt),
      ("rate_limited", toString rateLimited)]
  | .exhausted attempts backoff =>
    [("attempts", toString attempts), ("backoff_ms", toString backoff.millis)]
  | .canceled => []
  | .deadlineExceeded deadline => [("deadline_ms", toString deadline.millis)]
  | .fetched path page =>
    [("path", path), ("page", toString page.page.toNat), ("pages", toString page.pages.toNat),
      ("results", toString page.results.toNat)]
  | .deleting resource id => [("resource", resource), ("id", id)]

end Event
end RestClient
