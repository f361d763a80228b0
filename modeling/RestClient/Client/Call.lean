import RestClient.Client.Basic
import RestClient.Client.World
import RestClient.Text.Blank

/-!
# Calls

One logical call: the request is prepared once, sent as often as the retry policy allows, and its
last outcome is returned.  A deadline spans all attempts and delays; a canceled token ends the
call wherever it waits.
-/

namespace RestClient

/-- Why a call does not return a value. -/
inductive Halt where
  | failed (e : Error)
  | expired
  /-- The call never ends. -/
  | pending
  | overflow (cause : Overflow)
deriving DecidableEq

structure Response (α : Type) where
  data : α
  rawBody : String
  status : Status
  headers : Headers
  attempts : Nat
deriving DecidableEq

def Response.wasRetried {α : Type} (response : Response α) : Bool := 1 < response.attempts

/-- What is sent along with a request: a JSON value, or the reason why there is none. -/
abbrev Payload := Except String Json

def Payload.bytes : Payload -> Except Error (List UInt8)
  | .ok value => .ok value.toBytes
  | .error message => .error (.serializationFailed (Json.reported message))

namespace Client

variable {σ α : Type}

/-!
## Preparation
-/

/-- The request that every attempt sends.  The call's own header fields replace the client's, and
the type of a body cannot be changed. -/
def prepare (client : Client) (request : Request) (body : Option Payload) :
    Except Error HttpRequest :=
  match request.url client.root with
  | .error e => .error e
  | .ok url =>
    let headers := client.headers.overlay request.headers
    match body with
    | none =>
      .ok { method := request.method, url, headers, body := none, timeout := client.timeout }
    | some payload =>
      match payload.bytes with
      | .error e => .error e
      | .ok bytes =>
        .ok
          { method := request.method, url
            headers := headers.insert Header.contentType Header.json
            body := some bytes, timeout := client.timeout }

/-!
## Attempts
-/

/-- Waits, unless the wait is cut short. -/
def wait (client : Client) (horizon target : Option Nat) (w : World σ) :
    Except Halt Unit × World σ :=
  match w.wait client.cancel horizon target with
  | (.reached, w) => (.ok (), w)
  | (.canceled, w) => (.error (.failed .canceled), w.report .canceled)
  | (.expired, w) => (.error .expired, w)
  | (.never, w) => (.error .pending, w)

def awaitTimeout (client : Client) (horizon limit : Option Nat) (w : World σ) :
    Except Halt (Except TransportFault HttpResponse) × World σ :=
  match client.wait horizon limit w with
  | (.ok _, w) => (.ok (.error .timeout), w)
  | (.error halt, w) => (.error halt, w)

def deliver (client : Client) (horizon limit : Option Nat) (reply : Reply) (w : World σ) :
    Except Halt (Except TransportFault HttpResponse) × World σ :=
  match reply.outcome with
  | some outcome => (.ok outcome, w)
  | none => client.awaitTimeout horizon limit w

def limit (client : Client) (w : World σ) : Option Nat :=
  client.timeout.map fun timeout => w.now + timeout.ticks

/-- Waits for the outcome of a request that was just sent, at most as long as an attempt may
take. -/
def receive (client : Client) (horizon : Option Nat) (reply : Reply) (w : World σ) :
    Except Halt (Except TransportFault HttpResponse) × World σ :=
  let limit := client.limit w
  let arrival := w.now + reply.wait.ticks
  if limit.all (arrival ≤ ·) then
    match client.wait horizon (some arrival) w with
    | (.error halt, w) => (.error halt, w)
    | (.ok _, w) => client.deliver horizon limit reply (w.arrive reply)
  else client.awaitTimeout horizon limit w

def exchange [Transport σ] (client : Client) (horizon : Option Nat) (request : HttpRequest)
    (attempt : Nat) (w : World σ) :
    Except Halt (Except TransportFault HttpResponse) × World σ :=
  if w.isCanceled client.cancel then (.error (.failed .canceled), w.report .canceled)
  else
    let (reply, w) := (w.report (.executing request.method request.url attempt)).send request
    client.receive horizon reply w

structure Verdict (α : Type) where
  result : Except Error (Response α)
  events : List Event

def reject (e : ApiError) (attempt : Nat) : Verdict α :=
  let detail : Event :=
    if e.status.code == 404 then .notFound e.rawResponse
    else if e.status.isClientError then .clientError e.status e.rawResponse
    else .serverError e.status e.rawResponse
  ⟨.error (.api e), [.received e.status attempt, detail]⟩

/-- Judges a 2xx response.  A body of blanks is read as null. -/
def accept [Json.Decode α] (response : HttpResponse) (attempt : Nat) : Verdict α :=
  let received := Event.received response.status attempt
  let raw := Utf8.decodeLossy response.body
  let rawBody := String.ofList raw
  let text := if (Blank.trim raw).isEmpty then ['n', 'u', 'l', 'l'] else raw
  match (Json.decode (Utf8.encode text) : Except Json.Error α) with
  | .ok data =>
    ⟨.ok { data, rawBody, status := response.status, headers := response.headers,
           attempts := attempt }, [received]⟩
  | .error e =>
    ⟨.error (.deserializationFailed rawBody e.text response.status),
      [received, .undecodable e.text rawBody]⟩

def judge [Json.Decode α] (clock : Moment) (attempt : Nat) :
    Except TransportFault HttpResponse -> Except Overflow (Verdict α)
  | .error fault => .ok ⟨.error (.ofTransport fault), []⟩
  | .ok response =>
    if response.status.isSuccess then .ok (accept response attempt)
    else
      match ApiError.ofResponse clock response with
      | .error overflow => .error overflow
      | .ok e => .ok (reject e attempt)

def pause (client : Client) (horizon : Option Nat) (delay : Duration) (w : World σ) :
    Except Halt Unit × World σ :=
  let w := w.note (.paused delay)
  if w.isCanceled client.cancel then (.error (.failed .canceled), w.report .canceled)
  else
    match client.sleeper with
    | .skip => (.ok (), w)
    | .timer => client.wait horizon (some (w.now + delay.ticks)) w

inductive Progress (α : Type) where
  | ended (result : Except Halt (Response α))
  | again (policy : Policy)

/-- What follows a failed attempt: a delay and another attempt, or the end of the call. -/
def afterFailure (client : Client) (path : String) (horizon : Option Nat) (method : Method)
    (policy : Policy) (e : Error) (w : World σ) : Progress α × World σ :=
  let attempt := policy.attempt
  let w := w.report (.failed e attempt method path)
  match policy.recordFailure w.clock (w.jitter w.delays.length) e with
  | .error overflow => (.ended (.error (.overflow overflow)), w)
  | .ok policy =>
    match policy.state with
    | .backingOff _ delay =>
      let w := w.report (.retrying delay attempt e.rateLimit?.isSome)
      match client.pause horizon delay w with
      | (.error halt, w) => (.ended (.error halt), w)
      | (.ok _, w) => (.again policy.resume, w)
    | .failedExhausted made =>
      (.ended (.error (.failed e)), w.report (.exhausted made policy.elapsed))
    | _ => (.ended (.error (.failed e)), w)

def conclude (client : Client) (path : String) (horizon : Option Nat) (method : Method)
    (policy : Policy) (verdict : Verdict α) (w : World σ) : Progress α × World σ :=
  let w := w.reportAll verdict.events
  match verdict.result with
  | .ok response => (.ended (.ok response), w)
  | .error e => client.afterFailure path horizon method policy e w

def attempt [Transport σ] [Json.Decode α] (client : Client) (path : String)
    (horizon : Option Nat) (request : HttpRequest) (policy : Policy) (w : World σ) :
    Progress α × World σ :=
  match client.exchange horizon request policy.attempt w with
  | (.error halt, w) => (.ended (.error halt), w)
  | (.ok outcome, w) =>
    match judge w.clock policy.attempt outcome with
    | .error overflow => (.ended (.error (.overflow overflow)), w)
    | .ok verdict => client.conclude path horizon request.method policy verdict w

/-- Makes attempts until one of them decides the call.  The strategy bounds their number. -/
def attempts [Transport σ] [Json.Decode α] (client : Client) (path : String)
    (horizon : Option Nat) (request : HttpRequest) :
    Nat -> Policy -> World σ -> Except Halt (Response α) × World σ
  | 0, _, w => (.error (.overflow .attempts), w)
  | fuel + 1, policy, w =>
    match client.attempt path horizon request policy w with
    | (.ended result, w) => (result, w)
    | (.again policy, w) => attempts client path horizon request fuel policy w

/-!
## Whole calls
-/

def policy (client : Client) (request : Request) : Policy :=
  .start client.strategy client.predicate client.rateLimit request.idempotent

/-- A call until the horizon. -/
def callUntil [Transport σ] [Json.Decode α] (client : Client) (horizon : Option Nat)
    (request : Request) (body : Option Payload) (w : World σ) :
    Except Halt (Response α) × World σ :=
  match client.prepare request body with
  | .error e => (.error (.failed e), w)
  | .ok prepared =>
    client.attempts request.path horizon prepared client.strategy.attemptLimit
      (client.policy request) w

def call [Transport σ] [Json.Decode α] (client : Client) (request : Request)
    (body : Option Payload) (w : World σ) : Except Halt (Response α) × World σ :=
  match client.deadline with
  | none => client.callUntil none request body w
  | some deadline =>
    match client.callUntil (some (w.now + deadline.ticks)) request body w with
    | (.error .expired, w) =>
      (.error (.failed (.deadlineExceeded deadline)), w.report (.deadlineExceeded deadline))
    | result => result

def get [Transport σ] [Json.Decode α] (client : Client) (path : String) (w : World σ) :
    Except Halt (Response α) × World σ :=
  client.call (.new .get path) none w

end Client
end RestClient
