import RestClient.Http.Exchange
import RestClient.Json.Record
import RestClient.RateLimit

/-!
# Errors

Everything that can go wrong with a call.  A response outside the 2xx class is decoded into the
reasons that the provider gives; all other errors arise on this side.  Every error belongs to one
kind, and the kind decides whether a repetition may help.
-/

namespace RestClient

/-!
## Reasons
-/

structure Reason where
  field : Option String
  reason : String
deriving DecidableEq

namespace Reason

def text (r : Reason) : String :=
  match r.field with
  | some field => "[" ++ field ++ "] " ++ r.reason
  | none => r.reason

def record : Json.Record [Option String, String] Reason where
  name := "ErrorReason"
  fields :=
    .cons "field" Json.decoder (some none) <|
    .cons "reason" Json.decoder none .nil
  build := fun (field, reason, _) => { field, reason }

instance : Json.Decode Reason := ⟨record.decoder⟩

/-- The field is left out if there is none. -/
instance : Json.Encode Reason :=
  ⟨fun r => .object (Json.optionalMember "field" r.field ++ [("reason", .string r.reason)])⟩

end Reason

structure ErrorEnvelope where
  errors : List Reason
deriving DecidableEq

namespace ErrorEnvelope

def record : Json.Record [List Reason] ErrorEnvelope where
  name := "ErrorEnvelope"
  fields := .cons "errors" Json.decoder none .nil
  build := fun (errors, _) => { errors }

instance : Json.Decode ErrorEnvelope := ⟨record.decoder⟩

instance : Json.Encode ErrorEnvelope :=
  ⟨fun envelope => .object [("errors", Json.encode envelope.errors)]⟩

end ErrorEnvelope

/-!
## Rejections
-/

/-- The classes of failures that callers tell apart. -/
inductive ErrorKind where
  | notFound
  | validation
  | unauthorized
  | forbidden
  | rateLimited
  | serverError
  | clientError
  | canceled
  | network
  | deadlineExceeded
  | local
deriving DecidableEq

def ErrorKind.isRetryable : ErrorKind -> Bool
  | .rateLimited | .serverError | .network => true
  | _ => false

structure ApiError where
  status : Status
  errors : List Reason
  rawResponse : String
  headers : Headers
  rateLimit : Option RateLimit
deriving DecidableEq

namespace ApiError

def fallback (status : Status) : Reason := ⟨none, status.phrase?.getD "Unknown error"⟩

/-- The reasons of a response: those of its envelope, unless it has none. -/
def reasons (status : Status) (body : List UInt8) : List Reason :=
  match (Json.decode body : Except Json.Error ErrorEnvelope) with
  | .ok ⟨[]⟩ => [fallback status]
  | .ok ⟨errors⟩ => errors
  | .error _ => [fallback status]

/-- Decodes a response.  Rate limit advice is kept if the response is about a rate limit. -/
def ofResponse (now : Moment) (response : HttpResponse) : Except Overflow ApiError :=
  match RateLimit.ofHeaders now response.headers with
  | .error overflow => .error overflow
  | .ok info =>
    .ok
      { status := response.status
        errors := reasons response.status response.body
        rawResponse := String.ofList (Utf8.decodeLossy response.body)
        headers := response.headers
        rateLimit :=
          if info.isLimited || response.status.code == 429 then some info else none }

def kind (e : ApiError) : ErrorKind :=
  match e.status.code with
  | 404 => .notFound
  | 401 => .unauthorized
  | 403 => .forbidden
  | 429 => .rateLimited
  | code =>
    if (code == 400 || code == 422) && e.errors.any (·.field.isSome) then .validation
    else if e.status.isServerError then .serverError
    else .clientError

def fieldErrors (e : ApiError) : List (String × String) :=
  e.errors.filterMap fun r => r.field.map (·, r.reason)

def fieldError? (e : ApiError) (field : String) : Option String :=
  (e.fieldErrors.find? (·.1 = field)).map (·.2)

def message (e : ApiError) : String := "; ".intercalate (e.errors.map Reason.text)

def text (e : ApiError) : String := "[" ++ toString e.status.code ++ "] " ++ e.message

end ApiError

/-!
## Faults of arguments and configuration
-/

/-- Why an argument is rejected before anything is sent. -/
inductive ArgumentFault where
  | emptyIdentifier (resource : String)
  | missingParameter (name : String)
  | emptyParameter (name : String)
  | dotSegment (name value : String)
  | pageZero
  | pageSize (size : Nat)
  /-- A reason that the caller states. -/
  | stated (reason : String)
deriving DecidableEq

def leastPageSize : Nat := 25

def greatestPageSize : Nat := 500

def pageSizeText (size : Nat) : String :=
  " must be between " ++ toString leastPageSize ++ " and " ++ toString greatestPageSize ++
    ", got " ++ toString size

def ArgumentFault.text : ArgumentFault -> String
  | .emptyIdentifier resource => resource ++ " identifier must not be empty"
  | .missingParameter name => "missing path parameter `" ++ name ++ "`"
  | .emptyParameter name => "path parameter `" ++ name ++ "` must not be empty"
  | .dotSegment name value =>
    "path parameter `" ++ name ++ "` must not be a dot segment, got `" ++ value ++ "`"
  | .pageZero => "page numbers start at 1"
  | .pageSize size => "page size" ++ pageSizeText size
  | .stated reason => reason

inductive ConfigurationFault where
  | headerName
  | headerValue
  | userAgent
  | token
  | pageSize (size : Nat)
  | unterminatedPlaceholder (template : String)
  /-- A reason that the caller states. -/
  | stated (reason : String)
deriving DecidableEq

def ConfigurationFault.text : ConfigurationFault -> String
  | .headerName => "Invalid header name: invalid HTTP header name"
  | .headerValue => "Invalid header value: failed to parse header value"
  | .userAgent => "Invalid user agent: failed to parse header value"
  | .token => "Invalid token: failed to parse header value"
  | .pageSize size => "Page size" ++ pageSizeText size
  | .unterminatedPlaceholder template =>
    "Unterminated placeholder in path `" ++ template ++ "`"
  | .stated reason => reason

/-!
## Errors of calls
-/

inductive Error where
  /-- The provider answered outside the 2xx class. -/
  | api (e : ApiError)
  | network (fault : TransportFault)
  | timeout
  | deadlineExceeded (deadline : Duration)
  | canceled
  /-- A 2xx response has another shape than was asked for. -/
  | deserializationFailed (rawResponse detail : String) (status : Status)
  | serializationFailed (detail : String)
  | invalidArgument (fault : ArgumentFault)
  | configuration (fault : ConfigurationFault)
  | invalidUrl (fault : UrlFault)
deriving DecidableEq

namespace Error

/-- A transport's own timeout counts as a timeout of the attempt. -/
def ofTransport : TransportFault -> Error
  | .timeout => .timeout
  | fault => .network fault

def kind : Error -> ErrorKind
  | .api e => e.kind
  | .network _ | .timeout => .network
  | .canceled => .canceled
  | .deadlineExceeded _ => .deadlineExceeded
  | _ => .local

def isRetryable (e : Error) : Bool := e.kind.isRetryable

def isNotFound (e : Error) : Bool := e.kind = .notFound

def api? : Error -> Option ApiError
  | .api e => some e
  | _ => none

def status? : Error -> Option Status
  | .api e => some e.status
  | .deserializationFailed _ _ status => some status
  | _ => none

def rawResponse? : Error -> Option String
  | .api e => some e.rawResponse
  | .deserializationFailed raw _ _ => some raw
  | _ => none

def rateLimit? (e : Error) : Option RateLimit := e.api?.bind (·.rateLimit)

def rateLimitDelay? (e : Error) (now : Moment) (longest : Duration) : Option Duration :=
  e.rateLimit?.bind (·.delay? now longest)

def text : Error -> String
  | .api e => e.text
  | .network fault => "Network error: " ++ fault.text
  | .timeout => "Request timed out"
  | .deadlineExceeded deadline => "Call deadline of " ++ deadline.text ++ " exceeded"
  | .canceled => "Request canceled"
  | .deserializationFailed _ detail status =>
    "Failed to deserialize response (status " ++ status.text ++ "): " ++ detail
  | .serializationFailed detail => "Failed to serialize request: " ++ detail
  | .invalidArgument fault => "Invalid argument: " ++ fault.text
  | .configuration fault => "Configuration error: " ++ fault.text
  | .invalidUrl fault => "Invalid URL: " ++ fault.text

end Error
end RestClient
