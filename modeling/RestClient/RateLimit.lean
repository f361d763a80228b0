import RestClient.Http.Date
import RestClient.Http.Header

/-!
# Rate limits

What a response says about its rate limit, and how long it advises to wait.  `Retry-After` counts
more than the end of the window, and no advice is followed beyond the configured longest wait.
-/

namespace RestClient

/-- A number that its type cannot hold, which ends the program. -/
inductive Overflow where
  /-- The end of a rate limit window lies beyond the clock's signed 64-bit seconds. -/
  | resetTime
  /-- The delays of a call add up to more than the longest duration. -/
  | totalBackoff
  | attempts
deriving DecidableEq

structure RateLimit where
  resetAt : Option Moment
  retryAfter : Option Duration
  remaining : Option Nat
deriving DecidableEq

namespace RateLimit

def word? (headers : Headers) (name : Header.Name) : Option Nat :=
  (headers.read? name).bind fun text => Numeral.signedWord? (Blank.trim text)

/-- The wait that `Retry-After` asks for, in seconds or by a date.  A past date asks for none. -/
def retryAfter? (now : Moment) (headers : Headers) : Option Duration :=
  (headers.read? Header.retryAfter).bind fun text =>
    match Numeral.signedWord? (Blank.trim text) with
    | some seconds => some (.ofSeconds seconds)
    | none => (Date.ofText? text).map fun date => (date.moment.since? now).getD .zero

def reset? (headers : Headers) : Except Overflow (Option Moment) :=
  match Header.resets.findSome? (word? headers) with
  | none => .ok none
  | some seconds =>
    if seconds < 1 <<< 63 then .ok (some (.ofSeconds seconds)) else .error .resetTime

def ofHeaders (now : Moment) (headers : Headers) : Except Overflow RateLimit :=
  match reset? headers with
  | .error overflow => .error overflow
  | .ok resetAt =>
    .ok { resetAt, retryAfter := retryAfter? now headers,
          remaining := word? headers Header.remaining }

def isLimited (info : RateLimit) : Bool :=
  info.retryAfter.isSome || info.remaining == some 0

/-- The advised wait, at most `longest`. -/
def delay? (info : RateLimit) (now : Moment) (longest : Duration) : Option Duration :=
  match info.retryAfter with
  | some wait => some (min wait longest)
  | none => (info.resetAt.bind (·.since? now)).map (min · longest)

structure Config where
  /-- Advice takes the place of the strategy's delay. -/
  enabled : Bool
  /-- The longest wait that is taken from advice. -/
  maxWait : Duration
deriving DecidableEq

namespace Config

def default : Config := ⟨true, .ofSeconds 300⟩

def disabled : Config := { default with enabled := false }

def make (enabled : Option Bool) (maxWait : Option Duration) : Config :=
  { enabled := enabled.getD default.enabled, maxWait := maxWait.getD default.maxWait }

end Config
end RateLimit
end RestClient
