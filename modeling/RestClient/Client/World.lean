import RestClient.Cancel
import RestClient.Event
import RestClient.Retry.Strategy

/-!
# The world of a client

Everything outside a client that a call can observe or change: a clock that moves only while
something waits, the other side of the network, cancellation, and the history of what was sent,
awaited, canceled and reported.
-/

namespace RestClient

structure Reply where
  wait : Duration
  /-- A token that is canceled just before the outcome. -/
  cancels : Option Token
  /-- A response or a failure; without an outcome the exchange never completes. -/
  outcome : Option (Except TransportFault HttpResponse)

class Transport (σ : Type) where
  send : σ -> HttpRequest -> Reply × σ

structure Script where
  replies : List Reply

/-- What a script says when all its replies have been given. -/
def Script.spent : Reply :=
  ⟨.zero, none, some (.error (.other "no scripted reply left"))⟩

def Script.next (script : Script) : Reply × Script :=
  match script.replies with
  | [] => (spent, script)
  | reply :: rest => (reply, ⟨rest⟩)

instance : Transport Script where
  send script _ := script.next

structure Server where
  answer : HttpRequest -> Except TransportFault HttpResponse

instance : Transport Server where
  send server request := (⟨.zero, none, some (server.answer request)⟩, server)

/-!
## Histories
-/

inductive Deed where
  | sent (request : HttpRequest)
  /-- A delay was handed to the sleeper. -/
  | paused (delay : Duration)
  | canceled (token : Token)
  | reported (event : Event)
deriving DecidableEq

structure Entry where
  time : Nat
  deed : Deed
deriving DecidableEq

namespace Entry

def request? (entry : Entry) : Option HttpRequest :=
  match entry.deed with
  | .sent request => some request
  | _ => none

def delay? (entry : Entry) : Option Duration :=
  match entry.deed with
  | .paused delay => some delay
  | _ => none

def event? (entry : Entry) : Option Event :=
  match entry.deed with
  | .reported event => some event
  | _ => none

end Entry

/-!
## Worlds
-/

structure World (σ : Type) where
  /-- Milliseconds since the beginning. -/
  now : Nat
  /-- The reading of the calendar clock. -/
  clock : Moment
  transport : σ
  tokens : Tokens
  scheduled : List (Nat × Token)
  /-- The random part of the delay before each retry, by the number of delays before it. -/
  jitter : Nat -> Jitter
  /-- Everything that was done so far, in its order. -/
  history : List Entry

inductive Waking where
  | reached
  | canceled
  | expired
  | never
deriving DecidableEq

namespace World

variable {σ : Type}

def initial (transport : σ) (clock : Moment) (jitter : Nat -> Jitter) : World σ :=
  { now := 0, clock, transport, tokens := .none, scheduled := [], jitter, history := [] }

def requests (w : World σ) : List HttpRequest := w.history.filterMap Entry.request?

def delays (w : World σ) : List Duration := w.history.filterMap Entry.delay?

def events (w : World σ) : List Event := w.history.filterMap Entry.event?

def note (w : World σ) (deed : Deed) : World σ :=
  { w with history := w.history ++ [⟨w.now, deed⟩] }

def report (w : World σ) (event : Event) : World σ := w.note (.reported event)

def reportAll (w : World σ) (events : List Event) : World σ :=
  { w with history := w.history ++ events.map fun event => ⟨w.now, .reported event⟩ }

def cancel (w : World σ) (token : Token) : World σ :=
  { w with tokens := w.tokens.cancel token }.note (.canceled token)

def cancelLater (w : World σ) (millis : Nat) (token : Token) : World σ :=
  { w with scheduled := w.scheduled ++ [(w.now + millis, token)] }

def isCanceled (w : World σ) (token : Option Token) : Bool :=
  token.any w.tokens.isCanceled

/-- When the token's cancellation takes effect: now if it is canceled, or when that is scheduled. -/
def cancelTime? (w : World σ) (token : Option Token) : Option Nat :=
  if w.isCanceled token then some w.now
  else ((w.scheduled.filter fun entry => some entry.2 = token).map (·.1)).min?

/-- Moves the clock to a later time and cancels the tokens that are due then. -/
def advance (w : World σ) (time : Nat) : World σ :=
  let due := w.scheduled.filter fun entry => entry.1 ≤ time
  { w with
    now := max w.now time
    tokens := due.foldl (fun tokens entry => tokens.cancel entry.2) w.tokens
    scheduled := w.scheduled.filter fun entry => time < entry.1
    history := w.history ++ due.map fun entry => ⟨max w.now entry.1, .canceled entry.2⟩ }

/-- Whether a time comes before another one, which may never come. -/
def before (time : Nat) (other : Option Nat) : Bool := other.all (time < ·)

/-- Waits until `target`, unless the token is canceled or the horizon is reached before that.
What is due already does not wait. -/
def wait (w : World σ) (token : Option Token) (horizon target : Option Nat) :
    Waking × World σ :=
  if target.any (· ≤ w.now) then (.reached, w)
  else
    let canceled := (w.cancelTime? token).map (max w.now)
    match canceled with
    | some time =>
      if before time target && before time horizon then (.canceled, w.advance time)
      else settle w horizon target
    | none => settle w horizon target
where
  /-- The end of a wait that no cancellation cuts short. -/
  settle (w : World σ) (horizon target : Option Nat) : Waking × World σ :=
    match target, horizon with
    | some target, some horizon =>
      if target ≤ horizon then (.reached, w.advance target) else (.expired, w.advance horizon)
    | some target, none => (.reached, w.advance target)
    | none, some horizon => (.expired, w.advance horizon)
    | none, none => (.never, w)

def arrive (w : World σ) (reply : Reply) : World σ :=
  match reply.cancels with
  | some token => w.cancel token
  | none => w

def send [Transport σ] (w : World σ) (request : HttpRequest) : Reply × World σ :=
  let (reply, transport) := Transport.send w.transport request
  (reply, { w with transport }.note (.sent request))

end World
end RestClient
