import RestClient.Proofs.Views

/-!
# Late replies

A client does not notice what a reply says that comes when the time of its attempt is over.  In
every call it may as well be the transport's own timeout.
-/

namespace RestClient

variable {σ α : Type} {client : Client} {timeout : Duration}

def Reply.IsLate (timeout : Duration) (reply : Reply) : Prop :=
  timeout.ticks < reply.wait.ticks

instance (timeout : Duration) (reply : Reply) : Decidable (reply.IsLate timeout) :=
  inferInstanceAs (Decidable (timeout.ticks < reply.wait.ticks))

/-- What an attempt notices of a reply: a late one is a timeout, whatever it says and does. -/
def Reply.noticed (timeout : Duration) (reply : Reply) : Reply :=
  if reply.IsLate timeout then ⟨timeout, none, some (.error .timeout)⟩ else reply

namespace World

def noticed (timeout : Duration) (w : World Script) : World Script :=
  { w with transport := ⟨w.transport.replies.map (·.noticed timeout)⟩ }

theorem settle_noticed (w : World Script) (horizon target : Option Nat) :
    wait.settle (w.noticed timeout) horizon target =
      (wait.settle w horizon target).map id (·.noticed timeout) := by
  unfold wait.settle
  cases target with
  | none => cases horizon <;> rfl
  | some target =>
    cases horizon with
    | none => rfl
    | some horizon =>
      dsimp only
      by_cases h : target ≤ horizon
      · rw [if_pos h, if_pos h]
        rfl
      · rw [if_neg h, if_neg h]
        rfl

theorem wait_noticed (token : Option Token) (horizon target : Option Nat) (w : World Script) :
    (w.noticed timeout).wait token horizon target =
      (w.wait token horizon target).map id (·.noticed timeout) := by
  unfold wait
  rw [show (w.noticed timeout).now = w.now from rfl,
    show (w.noticed timeout).cancelTime? token = w.cancelTime? token from rfl]
  by_cases hdue : target.any (· ≤ w.now) = true
  · rw [if_pos hdue, if_pos hdue]
    rfl
  · rw [if_neg hdue, if_neg hdue]
    cases (w.cancelTime? token).map (max w.now) with
    | none => exact settle_noticed w horizon target
    | some time =>
      dsimp only
      by_cases hfirst : (before time target && before time horizon) = true
      · rw [if_pos hfirst, if_pos hfirst]
        rfl
      · rw [if_neg hfirst, if_neg hfirst]
        exact settle_noticed w horizon target

theorem arrive_noticed (w : World Script) (reply : Reply) :
    (w.noticed timeout).arrive reply = (w.arrive reply).noticed timeout := by
  unfold arrive
  cases reply.cancels <;> rfl

theorem send_noticed (w : World Script) (request : HttpRequest) :
    (w.noticed timeout).send request =
      (w.send request).map (·.noticed timeout) (·.noticed timeout) := by
  have hspent : Script.spent.noticed timeout = Script.spent := by
    have hintime : ¬ Script.spent.IsLate timeout := Nat.not_lt_zero _
    exact if_neg hintime
  rcases w with ⟨now, clock, ⟨replies⟩, tokens, scheduled, jitter, history⟩
  cases replies with
  | nil => exact congrArg (Prod.mk · _) hspent.symm
  | cons reply rest => rfl

end World

namespace Client

theorem wait_noticed (client : Client) (horizon target : Option Nat) (w : World Script) :
    client.wait horizon target (w.noticed timeout) =
      (client.wait horizon target w).map id (·.noticed timeout) := by
  unfold wait
  rw [World.wait_noticed]
  rcases w.wait client.cancel horizon target with ⟨waking, w'⟩
  cases waking <;> rfl

theorem awaitTimeout_noticed (client : Client) (horizon limit : Option Nat) (w : World Script) :
    client.awaitTimeout horizon limit (w.noticed timeout) =
      (client.awaitTimeout horizon limit w).map id (·.noticed timeout) := by
  unfold awaitTimeout
  rw [wait_noticed]
  rcases client.wait horizon limit w with ⟨halt | _, w'⟩ <;> rfl

theorem receive_noticed_reply (htimeout : client.timeout = some timeout) (horizon : Option Nat)
    (reply : Reply) (w : World σ) :
    client.receive horizon (reply.noticed timeout) w = client.receive horizon reply w := by
  unfold Reply.noticed
  by_cases hlate : reply.IsLate timeout
  · have hlimit : client.limit w = some (w.now + timeout.ticks) := by
      unfold limit
      rw [htimeout]
      rfl
    have hbehind : ¬ (some (w.now + timeout.ticks)).all (w.now + reply.wait.ticks ≤ ·) = true := by
      unfold Reply.IsLate at hlate
      simpa using hlate
    rw [if_pos hlate]
    unfold receive
    dsimp only
    rw [hlimit, if_pos (by simp), if_neg hbehind]
    unfold awaitTimeout
    rcases client.wait horizon (some (w.now + timeout.ticks)) w with ⟨halt | _, w'⟩ <;> rfl
  · rw [if_neg hlate]

theorem receive_noticed (client : Client) (horizon : Option Nat) (reply : Reply)
    (w : World Script) :
    client.receive horizon reply (w.noticed timeout) =
      (client.receive horizon reply w).map id (·.noticed timeout) := by
  unfold receive
  rw [show (w.noticed timeout).now = w.now from rfl,
    show client.limit (w.noticed timeout) = client.limit w from rfl]
  dsimp only
  by_cases hlimit : (client.limit w).all (w.now + reply.wait.ticks ≤ ·) = true
  · rw [if_pos hlimit, if_pos hlimit, wait_noticed]
    rcases client.wait horizon (some (w.now + reply.wait.ticks)) w with ⟨halt | _, w'⟩
    · rfl
    · dsimp only [Prod.map, id]
      rw [World.arrive_noticed]
      unfold deliver
      cases reply.outcome with
      | some outcome => rfl
      | none => exact client.awaitTimeout_noticed horizon _ _
  · rw [if_neg hlimit, if_neg hlimit]
    exact client.awaitTimeout_noticed horizon _ w

theorem exchange_noticed (htimeout : client.timeout = some timeout) (horizon : Option Nat)
    (request : HttpRequest) (attempt : Nat) (w : World Script) :
    client.exchange horizon request attempt (w.noticed timeout) =
      (client.exchange horizon request attempt w).map id (·.noticed timeout) := by
  unfold exchange
  rw [show (w.noticed timeout).isCanceled client.cancel = w.isCanceled client.cancel from rfl]
  by_cases hcanceled : w.isCanceled client.cancel = true
  · rw [if_pos hcanceled, if_pos hcanceled]
    rfl
  · rw [if_neg hcanceled, if_neg hcanceled]
    rw [show (w.noticed timeout).report (.executing request.method request.url attempt) =
      (w.report (.executing request.method request.url attempt)).noticed timeout from rfl,
      World.send_noticed]
    dsimp only [Prod.map]
    rw [receive_noticed_reply htimeout, receive_noticed]
    rfl

theorem respects_noticed (htimeout : client.timeout = some timeout) :
    client.Respects (World.noticed timeout) where
  now _ := rfl
  clock _ := rfl
  jitter _ := rfl
  delays _ := rfl
  isCanceled _ := rfl
  report _ _ := rfl
  paused _ _ := rfl
  wait := client.wait_noticed
  exchange := exchange_noticed htimeout

theorem call_noticed [Json.Decode α] (htimeout : client.timeout = some timeout)
    (request : Request) (body : Option Payload) (w : World Script) :
    client.call request body (w.noticed timeout) =
      ((client.call request body w).map id (·.noticed timeout) :
        Except Halt (Response α) × World Script) :=
  (respects_noticed htimeout).call request body w

end Client
end RestClient
