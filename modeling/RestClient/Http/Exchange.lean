import RestClient.Duration
import RestClient.Http.Header
import RestClient.Http.Status
import RestClient.Url.Basic

/-!
# Exchanges

One request and what becomes of it: a response, or a failure below HTTP.
-/

namespace RestClient

structure Method where
  token : String
deriving DecidableEq

namespace Method

def get : Method := ⟨"GET"⟩
def post : Method := ⟨"POST"⟩
def put : Method := ⟨"PUT"⟩
def delete : Method := ⟨"DELETE"⟩

end Method

structure HttpRequest where
  method : Method
  url : Url
  headers : Headers
  body : Option (List UInt8)
  /-- The time that this request alone may take. -/
  timeout : Option Duration
deriving DecidableEq

structure HttpResponse where
  status : Status
  headers : Headers
  body : List UInt8
deriving DecidableEq

inductive TransportFault where
  | timeout
  | connection (reason : String)
  | other (reason : String)
deriving DecidableEq

def TransportFault.text : TransportFault -> String
  | .timeout => "timed out"
  | .connection reason => "connection failed: " ++ reason
  | .other reason => reason

end RestClient
