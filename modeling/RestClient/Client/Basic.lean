import RestClient.Cancel
import RestClient.Event
import RestClient.Request
import RestClient.Retry.Policy

/-!
# Clients

The configuration that all calls of a client share, and the settings that make one.
-/

namespace RestClient

inductive Sleeper where
  | timer
  | skip
deriving DecidableEq

structure Client where
  /-- The root of the interface, with a slash at the end of its path. -/
  root : Url
  headers : Headers
  strategy : Strategy
  predicate : Predicate
  /-- The time that one attempt may take. -/
  timeout : Option Duration
  /-- The time that a call may take with all its attempts and delays. -/
  deadline : Option Duration
  rateLimit : RateLimit.Config
  /-- The page size of listings that do not choose their own. -/
  pageSize : UInt32
  sleeper : Sleeper
  /-- The token that cancels calls of this handle. -/
  cancel : Option Token

namespace Client

def withCancelToken (client : Client) (token : Token) : Client :=
  { client with cancel := some token }

def defaultRoot : String := "https://api.linode.com/v4/"

def defaultUserAgent : String := "linode-rest/0.1.0"

def defaultPageSize : UInt32 := 100

structure Builder where
  root : Option Url
  token : Option String
  userAgent : String
  headers : Headers
  strategy : Strategy
  predicate : Predicate
  timeout : Option Duration
  deadline : Option Duration
  rateLimit : RateLimit.Config
  pageSize : UInt32
  sleeper : Sleeper

namespace Builder

def default : Builder :=
  { root := none, token := none, userAgent := defaultUserAgent, headers := .empty,
    strategy := .default, predicate := .retryable, timeout := none, deadline := none,
    rateLimit := .default, pageSize := defaultPageSize, sleeper := .timer }

/-- The root is used with a slash at the end of its path. -/
def withRoot (builder : Builder) (text : String) : Except Error Builder :=
  match Url.parse text with
  | .error fault => .error (.invalidUrl fault)
  | .ok url => .ok { builder with root := some url.closed }

def withToken (builder : Builder) (token : String) : Builder :=
  { builder with token := some token }

def withUserAgent (builder : Builder) (userAgent : String) : Builder :=
  { builder with userAgent }

def withHeader (builder : Builder) (name value : String) : Except Error Builder :=
  match Header.field? name value with
  | .error e => .error e
  | .ok (name, value) => .ok { builder with headers := builder.headers.insert name value }

def withStrategy (builder : Builder) (strategy : Strategy) : Builder :=
  { builder with strategy }

def withPredicate (builder : Builder) (predicate : Predicate) : Builder :=
  { builder with predicate }

def withTimeout (builder : Builder) (timeout : Duration) : Builder :=
  { builder with timeout := some timeout }

def withDeadline (builder : Builder) (deadline : Duration) : Builder :=
  { builder with deadline := some deadline }

def withRateLimit (builder : Builder) (rateLimit : RateLimit.Config) : Builder :=
  { builder with rateLimit }

def withPageSize (builder : Builder) (size : UInt32) : Except Error Builder :=
  if leastPageSize ≤ size.toNat ∧ size.toNat ≤ greatestPageSize then
    .ok { builder with pageSize := size }
  else .error (.configuration (.pageSize size.toNat))

def withSleeper (builder : Builder) (sleeper : Sleeper) : Builder :=
  { builder with sleeper }

/-- The header fields of all requests of a client: the builder's, except that the accepted media
type, the user agent and the credentials are the client's own. -/
def fixedHeaders (builder : Builder) : Except Error Headers :=
  match Header.Value.ofString? builder.userAgent with
  | none => .error (.configuration .userAgent)
  | some userAgent =>
    let headers :=
      (builder.headers.insert Header.accept Header.json).insert Header.userAgent userAgent
    match builder.token with
    | none => .ok headers
    | some token =>
      match Header.Value.ofString? ("Bearer " ++ token) with
      | none => .error (.configuration .token)
      | some credentials => .ok (headers.insert Header.authorization credentials)

def fixedRoot (builder : Builder) : Except Error Url :=
  match builder.root with
  | some url => .ok url
  | none =>
    match Url.parse defaultRoot with
    | .error fault => .error (.invalidUrl fault)
    | .ok url => .ok url

def build (builder : Builder) : Except Error Client :=
  match builder.fixedRoot with
  | .error e => .error e
  | .ok root =>
    match builder.fixedHeaders with
    | .error e => .error e
    | .ok headers =>
      .ok
        { root, headers, strategy := builder.strategy, predicate := builder.predicate,
          timeout := builder.timeout, deadline := builder.deadline,
          rateLimit := builder.rateLimit, pageSize := builder.pageSize,
          sleeper := builder.sleeper, cancel := none }

def events (builder : Builder) : List Event :=
  if builder.token.isNone && builder.fixedHeaders.isOk then [.noToken] else []

end Builder
end Client
end RestClient
