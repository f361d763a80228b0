import RestClient.Proofs.UnderWay

/-!
# Lockstep

Two clients with the same settings in two worlds that are related.  If the relation is kept by
what they wait for, exchange and report, and the two waits and exchanges come to the same, then so
do whole calls, listings and operations.
-/

namespace RestClient

variable {σ τ α β : Type}

/-- The second run comes to the same as the first one and leaves its world in the relation. -/
def InStep (R : World σ -> World τ -> Prop) (p : β × World σ) (p' : β × World τ) : Prop :=
  exists b w w', p = (b, w) ∧ p' = (b, w') ∧ R w w'

theorem InStep.of {R : World σ -> World τ -> Prop} {w : World σ} {w' : World τ} (h : R w w')
    (b : β) : InStep R (b, w) (b, w') :=
  ⟨b, w, w', rfl, rfl, h⟩

theorem InStep.map {γ : Type} {R : World σ -> World τ -> Prop} {p : β × World σ} {p' : β × World τ}
    (h : InStep R p p') (f : β -> γ) : InStep R (p.map f id) (p'.map f id) := by
  rcases h with ⟨b, w, w', rfl, rfl, hw⟩
  exact .of hw (f b)

namespace Client

/-- The clients have the same settings, but for roots and header fields. -/
structure SameSettings (client twin : Client) : Prop where
  strategy : twin.strategy = client.strategy
  predicate : twin.predicate = client.predicate
  timeout : twin.timeout = client.timeout
  deadline : twin.deadline = client.deadline
  rateLimit : twin.rateLimit = client.rateLimit
  pageSize : twin.pageSize = client.pageSize
  sleeper : twin.sleeper = client.sleeper
  cancel : twin.cancel = client.cancel

/-- The clients prepare related requests, or none for the same reason. -/
def PreparesAlike (client twin : Client) (Q : HttpRequest -> HttpRequest -> Prop) : Prop :=
  forall request body,
    (exists e, client.prepare request body = .error e ∧ twin.prepare request body = .error e) ∨
      exists prepared prepared', client.prepare request body = .ok prepared ∧
        twin.prepare request body = .ok prepared' ∧ Q prepared prepared'

theorem preparesAlike_self (client : Client) : PreparesAlike client client Eq := by
  intro request body
  cases client.prepare request body with
  | error e => exact .inl ⟨e, rfl, rfl⟩
  | ok prepared => exact .inr ⟨prepared, prepared, rfl, rfl, rfl⟩

/-- What the clients do in related worlds with related requests is the same in both and keeps the
worlds related. -/
structure Lockstep [Transport σ] [Transport τ] (client twin : Client)
    (R : World σ -> World τ -> Prop) (Q : HttpRequest -> HttpRequest -> Prop) : Prop where
  settings : SameSettings client twin
  prepare : PreparesAlike client twin Q
  now : forall {w w'}, R w w' -> w'.now = w.now
  clock : forall {w w'}, R w w' -> w'.clock = w.clock
  backoff : forall {w w'}, R w w' -> forall retry,
    client.strategy.delay? retry (w'.jitter w'.delays.length) =
      client.strategy.delay? retry (w.jitter w.delays.length)
  isCanceled : forall {w w'}, R w w' -> w'.isCanceled client.cancel = w.isCanceled client.cancel
  report : forall {w w'}, R w w' -> forall event, R (w.report event) (w'.report event)
  paused :
    forall {w w'}, R w w' -> forall delay, R (w.note (.paused delay)) (w'.note (.paused delay))
  wait : forall {w w'}, R w w' -> forall horizon target,
    InStep R (client.wait horizon target w) (twin.wait horizon target w')
  method : forall {request request'}, Q request request' -> request'.method = request.method
  exchange : forall {w w'}, R w w' -> forall {request request'}, Q request request' ->
    forall horizon attempt,
    InStep R (client.exchange horizon request attempt w)
      (twin.exchange horizon request' attempt w')

namespace Lockstep

variable [Transport σ] [Transport τ] {client twin : Client} {R : World σ -> World τ -> Prop}
  {Q : HttpRequest -> HttpRequest -> Prop} {w : World σ} {w' : World τ} {policy : Policy}
  {request : Request} {n : Nat} {prepared prepared' : HttpRequest}

theorem reportAll (h : Lockstep client twin R Q) (hw : R w w') (events : List Event) :
    R (w.reportAll events) (w'.reportAll events) := by
  induction events generalizing w w' with
  | nil =>
    rw [World.reportAll_nil, World.reportAll_nil]
    exact hw
  | cons event rest ih =>
    rw [World.reportAll_cons, World.reportAll_cons]
    exact ih (h.report hw event)

theorem pause (h : Lockstep client twin R Q) (hw : R w w') (horizon : Option Nat)
    (delay : Duration) :
    InStep R (client.pause horizon delay w) (twin.pause horizon delay w') := by
  have hpaused := h.paused hw delay
  unfold Client.pause
  dsimp only
  rw [h.settings.cancel, h.settings.sleeper, h.isCanceled hpaused, h.now hpaused]
  by_cases hcanceled : (w.note (.paused delay)).isCanceled client.cancel = true
  · rw [if_pos hcanceled, if_pos hcanceled]
    exact .of (h.report hpaused _) _
  · rw [if_neg hcanceled, if_neg hcanceled]
    cases client.sleeper with
    | skip => exact .of hpaused _
    | timer => exact h.wait hpaused horizon _

theorem recordFailure (h : Lockstep client twin R Q) (hw : R w w')
    (hpolicy : client.InFlight request n policy) (e : Error) :
    policy.recordFailure w'.clock (w'.jitter w'.delays.length) e =
      policy.recordFailure w.clock (w.jitter w.delays.length) e := by
  have hbackoff := h.backoff hw policy.attempt
  rw [← hpolicy.strategy] at hbackoff
  unfold Policy.recordFailure
  dsimp only
  rw [h.clock hw, hbackoff]

theorem afterFailure (h : Lockstep client twin R Q) (hw : R w w')
    (hpolicy : client.InFlight request n policy) (path : String) (horizon : Option Nat)
    (method : Method) (e : Error) :
    InStep R (client.afterFailure path horizon method policy e w : Progress α × World σ)
      (twin.afterFailure path horizon method policy e w') := by
  have hfailed := h.report hw (.failed e policy.attempt method path)
  unfold Client.afterFailure
  dsimp only
  rw [h.recordFailure hfailed hpolicy]
  cases policy.recordFailure _ _ e with
  | error overflow => exact .of hfailed _
  | ok next =>
    dsimp only
    cases next.state with
    | backingOff attempt delay =>
      have hpause := h.pause
        (h.report hfailed (.retrying delay policy.attempt e.rateLimit?.isSome)) horizon delay
      rcases hpause with ⟨result, w₁, w₁', hfirst, hsecond, hpaused⟩
      dsimp only
      rw [hfirst, hsecond]
      cases result with
      | error halt => exact .of hpaused _
      | ok _ => exact .of hpaused _
    | failedExhausted made => exact .of (h.report hfailed _) _
    | attempting attempt => exact .of hfailed _
    | succeeded attempts => exact .of hfailed _
    | failedTerminal attempts => exact .of hfailed _

variable [Json.Decode α]

theorem attempt (h : Lockstep client twin R Q) (hw : R w w') (hQ : Q prepared prepared')
    (hpolicy : client.InFlight request n policy) (path : String) (horizon : Option Nat) :
    InStep R (client.attempt path horizon prepared policy w : Progress α × World σ)
      (twin.attempt path horizon prepared' policy w') := by
  rcases h.exchange hw hQ horizon policy.attempt with
    ⟨result, w₁, w₁', hfirst, hsecond, hw₁⟩
  unfold Client.attempt
  rw [hfirst, hsecond]
  cases result with
  | error halt => exact .of hw₁ _
  | ok outcome =>
    dsimp only
    rw [h.clock hw₁, h.method hQ]
    cases (judge w₁.clock policy.attempt outcome : Except Overflow (Verdict α)) with
    | error overflow => exact .of hw₁ _
    | ok verdict =>
      have hreported := h.reportAll hw₁ verdict.events
      dsimp only
      unfold conclude
      dsimp only
      cases verdict.result with
      | ok response => exact .of hreported _
      | error e => exact h.afterFailure hreported hpolicy path horizon prepared.method e

theorem attempts (h : Lockstep client twin R Q) (hw : R w w') (hQ : Q prepared prepared')
    (hpolicy : client.InFlight request n policy) (path : String) (horizon : Option Nat)
    (fuel : Nat) :
    InStep R (client.attempts path horizon prepared fuel policy w :
        Except Halt (Response α) × World σ)
      (twin.attempts path horizon prepared' fuel policy w') := by
  induction fuel generalizing n policy w w' with
  | zero => exact .of hw _
  | succ fuel ih =>
    rcases h.attempt (α := α) hw hQ hpolicy path horizon with
      ⟨progress, w₁, w₁', hfirst, hsecond, hw₁⟩
    unfold Client.attempts
    rw [hfirst, hsecond]
    cases progress with
    | ended result => exact .of hw₁ _
    | again next => exact ih hw₁ (inFlight_of_again hpolicy hfirst)

theorem callUntil (h : Lockstep client twin R Q) (hw : R w w') (horizon : Option Nat)
    (request : Request) (body : Option Payload) :
    InStep R (client.callUntil horizon request body w : Except Halt (Response α) × World σ)
      (twin.callUntil horizon request body w') := by
  rcases h.prepare request body with
    ⟨e, hfirst, hsecond⟩ | ⟨prepared, prepared', hfirst, hsecond, hQ⟩
  · rw [callUntil_of_error hfirst, callUntil_of_error hsecond]
    exact .of hw _
  · have hpolicy : twin.policy request = client.policy request := by
      unfold Client.policy
      rw [h.settings.strategy, h.settings.predicate, h.settings.rateLimit]
    rw [callUntil_of_ok hfirst, callUntil_of_ok hsecond, hpolicy, h.settings.strategy]
    exact h.attempts hw hQ (client.inFlight_policy request) request.path horizon _

theorem call (h : Lockstep client twin R Q) (hw : R w w') (request : Request)
    (body : Option Payload) :
    InStep R (client.call request body w : Except Halt (Response α) × World σ)
      (twin.call request body w') := by
  unfold Client.call
  rw [h.settings.deadline]
  cases client.deadline with
  | none => exact h.callUntil hw none request body
  | some deadline =>
    rcases h.callUntil (α := α) hw (some (w.now + deadline.ticks)) request body with
      ⟨result, w₁, w₁', hfirst, hsecond, hw₁⟩
    dsimp only
    rw [h.now hw, hfirst, hsecond]
    cases result with
    | ok response => exact .of hw₁ _
    | error halt =>
      cases halt with
      | expired => exact .of (h.report hw₁ _) _
      | failed e => exact .of hw₁ _
      | pending => exact .of hw₁ _
      | overflow cause => exact .of hw₁ _

end Lockstep
end Client

/-!
## Single steps
-/

namespace Client

/-- What a world does at one time is the same in both worlds and keeps them related. -/
structure StepByStep [Transport σ] [Transport τ] (client twin : Client)
    (R : World σ -> World τ -> Prop) (Q : HttpRequest -> HttpRequest -> Prop) : Prop where
  settings : SameSettings client twin
  prepare : PreparesAlike client twin Q
  now : forall {w w'}, R w w' -> w'.now = w.now
  clock : forall {w w'}, R w w' -> w'.clock = w.clock
  backoff : forall {w w'}, R w w' -> forall retry,
    client.strategy.delay? retry (w'.jitter w'.delays.length) =
      client.strategy.delay? retry (w.jitter w.delays.length)
  isCanceled : forall {w w'}, R w w' -> w'.isCanceled client.cancel = w.isCanceled client.cancel
  cancelTime : forall {w w'}, R w w' -> w'.cancelTime? client.cancel = w.cancelTime? client.cancel
  advance : forall {w w'}, R w w' -> forall time, R (w.advance time) (w'.advance time)
  report : forall {w w'}, R w w' -> forall event, R (w.report event) (w'.report event)
  paused :
    forall {w w'}, R w w' -> forall delay, R (w.note (.paused delay)) (w'.note (.paused delay))
  method : forall {request request'}, Q request request' -> request'.method = request.method
  url : forall {request request'}, Q request request' -> request'.url = request.url
  send : forall {w w'}, R w w' -> forall {request request'}, Q request request' ->
    exists reply reply' v v', w.send request = (reply, v) ∧ w'.send request' = (reply', v') ∧
      R v v' ∧ reply'.wait = reply.wait ∧ reply'.outcome = reply.outcome ∧
        forall {u u'}, R u u' -> R (u.arrive reply) (u'.arrive reply')

namespace StepByStep

variable [Transport σ] [Transport τ] {client twin : Client} {R : World σ -> World τ -> Prop}
  {Q : HttpRequest -> HttpRequest -> Prop} {w : World σ} {w' : World τ}

theorem settle (h : StepByStep client twin R Q) (hw : R w w') (horizon target : Option Nat) :
    InStep R (World.wait.settle w horizon target) (World.wait.settle w' horizon target) := by
  unfold World.wait.settle
  cases target with
  | none =>
    cases horizon with
    | none => exact .of hw _
    | some horizon => exact .of (h.advance hw horizon) _
  | some target =>
    cases horizon with
    | none => exact .of (h.advance hw target) _
    | some horizon =>
      dsimp only
      by_cases htarget : target ≤ horizon
      · rw [if_pos htarget, if_pos htarget]
        exact .of (h.advance hw target) _
      · rw [if_neg htarget, if_neg htarget]
        exact .of (h.advance hw horizon) _

theorem wait_world (h : StepByStep client twin R Q) (hw : R w w') (horizon target : Option Nat) :
    InStep R (w.wait client.cancel horizon target) (w'.wait client.cancel horizon target) := by
  unfold World.wait
  rw [h.now hw, h.cancelTime hw]
  by_cases hdue : target.any (· ≤ w.now) = true
  · rw [if_pos hdue, if_pos hdue]
    exact .of hw _
  · rw [if_neg hdue, if_neg hdue]
    cases (w.cancelTime? client.cancel).map (max w.now) with
    | none => exact h.settle hw horizon target
    | some time =>
      dsimp only
      by_cases hfirst : (World.before time target && World.before time horizon) = true
      · rw [if_pos hfirst, if_pos hfirst]
        exact .of (h.advance hw time) _
      · rw [if_neg hfirst, if_neg hfirst]
        exact h.settle hw horizon target

theorem wait (h : StepByStep client twin R Q) (hw : R w w') (horizon target : Option Nat) :
    InStep R (client.wait horizon target w) (twin.wait horizon target w') := by
  rcases h.wait_world hw horizon target with ⟨waking, v, v', hfirst, hsecond, hv⟩
  unfold Client.wait
  rw [h.settings.cancel, hfirst, hsecond]
  cases waking with
  | reached => exact .of hv _
  | canceled => exact .of (h.report hv _) _
  | expired => exact .of hv _
  | never => exact .of hv _

theorem awaitTimeout (h : StepByStep client twin R Q) (hw : R w w')
    (horizon limit : Option Nat) :
    InStep R (client.awaitTimeout horizon limit w) (twin.awaitTimeout horizon limit w') := by
  rcases h.wait hw horizon limit with ⟨result, v, v', hfirst, hsecond, hv⟩
  unfold Client.awaitTimeout
  rw [hfirst, hsecond]
  cases result with
  | ok _ => exact .of hv _
  | error halt => exact .of hv _

theorem receive (h : StepByStep client twin R Q) (hw : R w w') {reply reply' : Reply}
    (hwait : reply'.wait = reply.wait) (houtcome : reply'.outcome = reply.outcome)
    (harrive : forall {u u'}, R u u' -> R (u.arrive reply) (u'.arrive reply'))
    (horizon : Option Nat) :
    InStep R (client.receive horizon reply w) (twin.receive horizon reply' w') := by
  have hlimit : twin.limit w' = client.limit w := by
    unfold Client.limit
    rw [h.settings.timeout, h.now hw]
  unfold Client.receive
  dsimp only
  rw [hlimit, hwait, h.now hw]
  by_cases hintime : (client.limit w).all (w.now + reply.wait.ticks ≤ ·) = true
  · rw [if_pos hintime, if_pos hintime]
    rcases h.wait hw horizon (some (w.now + reply.wait.ticks)) with
      ⟨result, v, v', hfirst, hsecond, hv⟩
    rw [hfirst, hsecond]
    cases result with
    | error halt => exact .of hv _
    | ok _ =>
      dsimp only
      unfold Client.deliver
      rw [houtcome]
      cases reply.outcome with
      | some outcome => exact .of (harrive hv) _
      | none => exact h.awaitTimeout (harrive hv) horizon _
  · rw [if_neg hintime, if_neg hintime]
    exact h.awaitTimeout hw horizon _

theorem exchange (h : StepByStep client twin R Q) (hw : R w w') {request request' : HttpRequest}
    (hQ : Q request request') (horizon : Option Nat) (attempt : Nat) :
    InStep R (client.exchange horizon request attempt w)
      (twin.exchange horizon request' attempt w') := by
  unfold Client.exchange
  rw [h.settings.cancel, h.isCanceled hw, h.method hQ, h.url hQ]
  by_cases hcanceled : w.isCanceled client.cancel = true
  · rw [if_pos hcanceled, if_pos hcanceled]
    exact .of (h.report hw _) _
  · rw [if_neg hcanceled, if_neg hcanceled]
    rcases h.send (h.report hw (.executing request.method request.url attempt)) hQ with
      ⟨reply, reply', v, v', hfirst, hsecond, hv, hwait, houtcome, harrive⟩
    rw [hfirst, hsecond]
    exact h.receive hv hwait houtcome harrive horizon

theorem lockstep (h : StepByStep client twin R Q) : Lockstep client twin R Q where
  settings := h.settings
  prepare := h.prepare
  now := h.now
  clock := h.clock
  backoff := h.backoff
  isCanceled := h.isCanceled
  report := h.report
  paused := h.paused
  wait := h.wait
  method := h.method
  exchange := h.exchange

end StepByStep
end Client

/-!
## Listings
-/

def Listing.of (listing : Listing α) (client : Client) : Listing α :=
  { listing with client }

namespace Client.Lockstep

variable [Transport σ] [Transport τ] {client twin : Client} {R : World σ -> World τ -> Prop}
  {Q : HttpRequest -> HttpRequest -> Prop} {w : World σ} {w' : World τ} [Json.Decode α]
  {listing : Listing α}

theorem fetch (h : Lockstep client twin R Q) (hw : R w w') (hclient : listing.client = client)
    (page : UInt32) :
    (exists halt v v', listing.fetch page w = (.error halt, v) ∧
      (listing.of twin).fetch page w' = (.error halt, v') ∧ R v v') ∨
    exists next v v', listing.fetch page w = (.ok next, v) ∧
      (listing.of twin).fetch page w' = (.ok (next.of twin), v') ∧ next.client = client ∧
        R v v' := by
  rcases h.call (α := Page α) hw (listing.request.forPage page listing.paginator.pageSize) none
    with ⟨result, v, v', hfirst, hsecond, hv⟩
  rw [← hclient] at hfirst
  unfold Listing.fetch
  dsimp only [Listing.of]
  rw [hfirst, hsecond]
  cases result with
  | error halt => exact .inl ⟨halt, v, v', rfl, rfl, hv⟩
  | ok response => exact .inr ⟨_, _, _, rfl, rfl, hclient, h.report hv _⟩

theorem nextWithin (h : Lockstep client twin R Q) (hw : R w w')
    (hclient : listing.client = client) (fuel : Nat) :
    exists result next v v', listing.nextWithin fuel w = (result, next, v) ∧
      (listing.of twin).nextWithin fuel w' = (result, next.of twin, v') ∧
      next.client = client ∧ R v v' := by
  induction fuel generalizing listing w w' with
  | zero =>
    rcases listing with ⟨own, request, paginator, buffer⟩
    unfold Listing.nextWithin Listing.of
    cases buffer with
    | cons item rest => exact ⟨_, ⟨own, request, paginator, rest⟩, _, _, rfl, rfl, hclient, hw⟩
    | nil =>
      dsimp only
      cases paginator.nextPage with
      | none => exact ⟨_, ⟨own, request, paginator, []⟩, _, _, rfl, rfl, hclient, hw⟩
      | some page => exact ⟨_, ⟨own, request, paginator, []⟩, _, _, rfl, rfl, hclient, hw⟩
  | succ fuel ih =>
    have hfetch := h.fetch hw hclient
    rcases listing with ⟨own, request, paginator, buffer⟩
    unfold Listing.nextWithin
    dsimp only [Listing.of] at hfetch ⊢
    cases buffer with
    | cons item rest => exact ⟨_, ⟨own, request, paginator, rest⟩, _, _, rfl, rfl, hclient, hw⟩
    | nil =>
      cases paginator.nextPage with
      | none => exact ⟨_, ⟨own, request, paginator, []⟩, _, _, rfl, rfl, hclient, hw⟩
      | some page =>
        rcases hfetch page with
          ⟨halt, v, v', hfirst, hsecond, hv⟩ | ⟨next, v, v', hfirst, hsecond, hnext, hv⟩
        · dsimp only
          rw [hfirst, hsecond]
          exact ⟨_, ⟨own, request, paginator, []⟩, _, _, rfl, rfl, hclient, hv⟩
        · dsimp only
          rw [hfirst, hsecond]
          exact ih hv hnext

theorem nexts (h : Lockstep client twin R Q) (hw : R w w') (hclient : listing.client = client)
    (n : Nat) :
    exists results next v v', listing.nexts n w = (results, next, v) ∧
      (listing.of twin).nexts n w' = (results, next.of twin, v') ∧
      next.client = client ∧ R v v' := by
  induction n generalizing listing w w' with
  | zero => exact ⟨_, _, _, _, rfl, rfl, hclient, hw⟩
  | succ n ih =>
    rcases h.nextWithin hw hclient listing.pagesLeft with
      ⟨result, next, v, v', hfirst, hsecond, hnext, hv⟩
    rcases ih hv hnext with ⟨results, last, v₁, v₁', hfirst₁, hsecond₁, hlast, hv₁⟩
    have hpages : (listing.of twin).pagesLeft = listing.pagesLeft := rfl
    unfold Listing.nexts Listing.next
    rw [hpages, hfirst, hsecond]
    dsimp only
    rw [hfirst₁, hsecond₁]
    exact ⟨_, _, _, _, rfl, rfl, hlast, hv₁⟩

theorem collectWithin (h : Lockstep client twin R Q) (hw : R w w')
    (hclient : listing.client = client) (fuel : Nat) :
    InStep R (listing.collectWithin fuel w) ((listing.of twin).collectWithin fuel w') := by
  induction fuel generalizing listing w w' with
  | zero =>
    unfold Listing.collectWithin
    dsimp only [Listing.of]
    cases listing.paginator.nextPage with
    | none => exact .of hw _
    | some page => exact .of hw _
  | succ fuel ih =>
    unfold Listing.collectWithin
    rw [show (listing.of twin).paginator = listing.paginator from rfl]
    cases listing.paginator.nextPage with
    | none => exact .of hw _
    | some page =>
      dsimp only
      rcases h.fetch hw hclient page with
        ⟨halt, v, v', hfirst, hsecond, hv⟩ | ⟨next, v, v', hfirst, hsecond, hnext, hv⟩
      · rw [hfirst, hsecond]
        exact .of hv _
      · rw [hfirst, hsecond]
        exact ih hv hnext

theorem collect (h : Lockstep client twin R Q) (hw : R w w')
    (hclient : listing.client = client) :
    InStep R (listing.collect w) ((listing.of twin).collect w') :=
  h.collectWithin hw hclient listing.pagesLeft

/-!
## Operations
-/

theorem walk (h : Lockstep client twin R Q) (hw : R w w') (hclient : listing.client = client)
    (steps : Nat) (rest : Bool) :
    InStep R (Operation.walk listing steps rest w)
      (Operation.walk (listing.of twin) steps rest w') := by
  rcases h.nexts hw hclient steps with ⟨results, next, v, v', hfirst, hsecond, hnext, hv⟩
  unfold Operation.walk
  rw [hfirst, hsecond]
  cases rest with
  | false => exact .of hv _
  | true =>
    rcases h.collect hv hnext with ⟨items, v₁, v₁', hfirst₁, hsecond₁, hv₁⟩
    dsimp only
    rw [if_pos rfl, if_pos rfl, hfirst₁, hsecond₁]
    exact .of hv₁ _

variable {Create Update : Type} {c : Collection Create Update}

theorem data (h : Lockstep client twin R Q) (hw : R w w') (request : Request)
    (body : Option Payload) :
    InStep R (Collection.data (client.call request body w) : Except Halt α × World σ)
      (Collection.data (twin.call request body w')) := by
  rcases h.call (α := α) hw request body with ⟨result, v, v', hfirst, hsecond, hv⟩
  rw [hfirst, hsecond]
  cases result with
  | ok response => exact .of hv _
  | error halt => exact .of hv _

omit [Json.Decode α] in
theorem stream (h : Lockstep client twin R Q) (hclient : c.client = client)
    (options : ListOptions) :
    (exists e, (c.stream options : Except Error (Listing α)) = .error e ∧
      ({ c with client := twin }.stream options : Except Error (Listing α)) = .error e) ∨
    exists listing : Listing α, c.stream options = .ok listing ∧ listing.client = client ∧
      { c with client := twin }.stream options = .ok (listing.of twin) := by
  have hrequest : { c with client := twin }.collectionRequest .get = c.collectionRequest .get :=
    rfl
  unfold Collection.stream Listing.start
  rw [hrequest]
  dsimp only
  rw [h.settings.pageSize, hclient]
  cases options.apply (c.collectionRequest .get) client.pageSize with
  | error e => exact .inl ⟨e, rfl, rfl⟩
  | ok applied => exact .inr ⟨_, rfl, rfl, rfl⟩

theorem begin (h : Lockstep client twin R Q) (hw : R w w') (hclient : c.client = client)
    (options : ListOptions) (steps : Nat) (rest : Bool) :
    InStep R (Operation.begin c options steps rest w : Outcome α × World σ)
      (Operation.begin { c with client := twin } options steps rest w') := by
  unfold Operation.begin
  rcases h.stream (α := α) hclient options with
    ⟨e, hfirst, hsecond⟩ | ⟨listing, hfirst, hlisting, hsecond⟩
  · rw [hfirst, hsecond]
    exact .of hw _
  · rw [hfirst, hsecond]
    exact h.walk hw hlisting steps rest

theorem get (h : Lockstep client twin R Q) (hw : R w w') (hclient : c.client = client)
    (id' : String) :
    InStep R (c.get id' w : Except Halt α × World σ)
      ({ c with client := twin }.get id' w') := by
  have hrequest : { c with client := twin }.itemRequest .get id' = c.itemRequest .get id' := rfl
  unfold Collection.get
  rw [hrequest, hclient]
  cases c.itemRequest .get id' with
  | error e => exact .of hw _
  | ok request => exact h.data hw request none

theorem list (h : Lockstep client twin R Q) (hw : R w w') (hclient : c.client = client)
    (options : ListOptions) :
    InStep R (c.list options w : Except Halt (List α) × World σ)
      ({ c with client := twin }.list options w') := by
  unfold Collection.list
  rcases h.stream (α := α) hclient options with
    ⟨e, hfirst, hsecond⟩ | ⟨listing, hfirst, hlisting, hsecond⟩
  · rw [hfirst, hsecond]
    exact .of hw _
  · rw [hfirst, hsecond]
    exact h.collect hw hlisting

theorem listPage (h : Lockstep client twin R Q) (hw : R w w') (hclient : c.client = client)
    (page : UInt32) (options : ListOptions) :
    InStep R (c.listPage page options w : Except Halt (Page α) × World σ)
      ({ c with client := twin }.listPage page options w') := by
  have hrequest : { c with client := twin }.collectionRequest .get = c.collectionRequest .get :=
    rfl
  unfold Collection.listPage
  by_cases hpage : page = 0
  · rw [if_pos hpage, if_pos hpage]
    exact .of hw _
  · rw [if_neg hpage, if_neg hpage, hrequest]
    dsimp only
    rw [h.settings.pageSize, hclient]
    cases options.apply (c.collectionRequest .get) client.pageSize with
    | error e => exact .of hw _
    | ok applied => exact h.data hw _ none

theorem update (h : Lockstep client twin R Q) (hw : R w w') (hclient : c.client = client)
    (id' : String) (options : Update) :
    InStep R (c.update id' options w : Except Halt α × World σ)
      ({ c with client := twin }.update id' options w') := by
  have hrequest : { c with client := twin }.itemRequest .put id' = c.itemRequest .put id' := rfl
  unfold Collection.update
  rw [hrequest, hclient]
  cases c.itemRequest .put id' with
  | error e => exact .of hw _
  | ok request => exact h.data hw request _

theorem delete (h : Lockstep client twin R Q) (hw : R w w') (hclient : c.client = client)
    (id' : String) :
    InStep R (c.delete id' w) ({ c with client := twin }.delete id' w') := by
  have hrequest : { c with client := twin }.itemRequest .delete id' =
      c.itemRequest .delete id' := rfl
  unfold Collection.delete
  rw [hrequest]
  cases c.itemRequest .delete id' with
  | error e => exact .of hw _
  | ok request =>
    rcases h.call (α := Json.Ignored) (h.report hw (.deleting c.resource.name id')) request none
      with ⟨result, v, v', hfirst, hsecond, hv⟩
    rw [← hclient] at hfirst
    dsimp only
    rw [hfirst, hsecond]
    cases result with
    | ok response => exact .of hv _
    | error halt => exact .of hv _

theorem run (h : Lockstep client twin R Q) (hw : R w w') (hclient : c.client = client)
    (operation : Operation Create Update) :
    InStep R (operation.run c w : Outcome α × World σ)
      (operation.run { c with client := twin } w') := by
  cases operation with
  | call request body =>
    subst hclient
    exact (h.call hw request body).map Outcome.response
  | find path =>
    subst hclient
    exact (h.call hw (.new .get path) none).map Outcome.response
  | get id' => exact (h.get hw hclient id').map Outcome.item
  | list options => exact (h.list hw hclient options).map Outcome.items
  | listPage page options => exact (h.listPage hw hclient page options).map Outcome.page
  | create options =>
    subst hclient
    exact (h.data hw _ _).map Outcome.item
  | createIdempotent options =>
    subst hclient
    exact (h.data hw _ _).map Outcome.item
  | update id' options => exact (h.update hw hclient id' options).map Outcome.item
  | delete id' => exact (h.delete hw hclient id').map Outcome.done
  | stream options steps rest => exact h.begin hw hclient options steps rest

end Client.Lockstep
end RestClient
