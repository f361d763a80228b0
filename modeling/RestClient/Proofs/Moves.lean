import RestClient.Operation
import RestClient.Proofs.World

/-!
# Operations as moves

Every operation, from a single wait to a whole listing, takes the world through moves that heed
the token of its client.
-/

namespace RestClient

variable {σ α : Type}

theorem World.drifts_wait (token : Option Token) (horizon target : Option Nat) (w : World σ) :
    World.Drifts w (w.wait token horizon target).2 := by
  have hadvance : forall time, World.Drifts w (w.advance time) :=
    fun time => Relation.ReflTransGen.single (World.Drift.advance w time)
  have hsettle : World.Drifts w (World.wait.settle w horizon target).2 := by
    unfold World.wait.settle
    cases target with
    | none =>
      cases horizon with
      | none => exact Relation.ReflTransGen.refl
      | some horizon => exact hadvance horizon
    | some target =>
      cases horizon with
      | none => exact hadvance target
      | some horizon =>
        by_cases h : target ≤ horizon
        · simpa only [if_pos h] using hadvance target
        · simpa only [if_neg h] using hadvance horizon
  unfold World.wait
  by_cases hdue : target.any (· ≤ w.now) = true
  · rw [if_pos hdue]
  · rw [if_neg hdue]
    cases (w.cancelTime? token).map (max w.now) with
    | none => exact hsettle
    | some time =>
      by_cases h : (World.before time target && World.before time horizon) = true
      · simpa only [if_pos h] using hadvance time
      · simpa only [if_neg h] using hsettle

theorem World.drifts_arrive (w : World σ) (reply : Reply) :
    World.Drifts w (w.arrive reply) := by
  unfold World.arrive
  cases reply.cancels with
  | none => exact Relation.ReflTransGen.refl
  | some token => exact Relation.ReflTransGen.single (World.Drift.cancel w token)

namespace Client

open World (Drifts Moves)

/-!
## Waiting and exchanging
-/

theorem drifts_canceled (w : World σ) :
    Drifts w (w.report .canceled) :=
  World.drifts_report w _ (by simp [Event.failure?])

theorem drifts_wait (client : Client) (horizon target : Option Nat) (w : World σ) :
    Drifts w (client.wait horizon target w).2 := by
  have hdrifts := World.drifts_wait client.cancel horizon target w
  unfold wait
  rcases hwait : w.wait client.cancel horizon target with ⟨waking, w'⟩
  rw [hwait] at hdrifts
  cases waking with
  | canceled => exact hdrifts.trans (drifts_canceled w')
  | reached => exact hdrifts
  | expired => exact hdrifts
  | never => exact hdrifts

theorem drifts_awaitTimeout (client : Client) (horizon limit : Option Nat) (w : World σ) :
    Drifts w (client.awaitTimeout horizon limit w).2 := by
  have hdrifts := client.drifts_wait horizon limit w
  unfold awaitTimeout
  rcases hwait : client.wait horizon limit w with ⟨result, w'⟩
  rw [hwait] at hdrifts
  cases result with
  | ok _ => exact hdrifts
  | error halt => exact hdrifts

theorem drifts_deliver (client : Client) (horizon limit : Option Nat) (reply : Reply)
    (w : World σ) : Drifts w (client.deliver horizon limit reply w).2 := by
  unfold deliver
  cases reply.outcome with
  | some outcome => exact Relation.ReflTransGen.refl
  | none => exact client.drifts_awaitTimeout horizon limit w

theorem drifts_receive (client : Client) (horizon : Option Nat) (reply : Reply) (w : World σ) :
    Drifts w (client.receive horizon reply w).2 := by
  unfold receive
  dsimp only
  by_cases hlimit : (client.limit w).all (w.now + reply.wait.ticks ≤ ·) = true
  · rw [if_pos hlimit]
    have hdrifts := client.drifts_wait horizon (some (w.now + reply.wait.ticks)) w
    rcases hwait : client.wait horizon (some (w.now + reply.wait.ticks)) w with ⟨result, w'⟩
    rw [hwait] at hdrifts
    cases result with
    | error halt => exact hdrifts
    | ok _ =>
      exact (hdrifts.trans (World.drifts_arrive w' reply)).trans
        (client.drifts_deliver horizon _ reply _)
  · rw [if_neg hlimit]
    exact client.drifts_awaitTimeout horizon _ w

theorem exchange_of_canceled [Transport σ] {client : Client} {w : World σ}
    (hcanceled : w.isCanceled client.cancel = true) (horizon : Option Nat)
    (request : HttpRequest) (attempt : Nat) :
    client.exchange horizon request attempt w =
      (.error (.failed .canceled), w.report .canceled) := by
  unfold exchange
  rw [if_pos hcanceled]

theorem exchange_of_open [Transport σ] {client : Client} {w : World σ}
    (hopen : w.isCanceled client.cancel = false) (horizon : Option Nat)
    (request : HttpRequest) (attempt : Nat) :
    client.exchange horizon request attempt w =
      client.receive horizon (Transport.send w.transport request).1
        ((w.report (.executing request.method request.url attempt)).send request).2 := by
  unfold exchange
  rw [if_neg (Bool.eq_false_iff.mp hopen)]
  rfl

theorem moves_exchange [Transport σ] (client : Client) (horizon : Option Nat)
    (request : HttpRequest) (attempt : Nat) (w : World σ) :
    Moves client.cancel w (client.exchange horizon request attempt w).2 := by
  cases hcanceled : w.isCanceled client.cancel with
  | true =>
    rw [exchange_of_canceled hcanceled]
    exact (drifts_canceled w).moves
  | false =>
    rw [exchange_of_open hcanceled]
    have hexecuting : Moves client.cancel w
        (w.report (.executing request.method request.url attempt)) :=
      World.moves_report w _ (by simp [Event.failure?])
    have hsent := hexecuting.tail
      (World.Move.send _ (Transport.send w.transport request).2 request hcanceled)
    exact hsent.trans (client.drifts_receive horizon _ _).moves

/-!
## Attempts and calls
-/

theorem moves_pause (client : Client) (horizon : Option Nat) (delay : Duration) (w : World σ) :
    Moves client.cancel w (client.pause horizon delay w).2 := by
  have hpaused : Moves client.cancel w (w.note (.paused delay)) :=
    Relation.ReflTransGen.single (World.Move.pause w delay)
  refine hpaused.trans ?_
  unfold pause
  dsimp only
  by_cases hcanceled : (w.note (.paused delay)).isCanceled client.cancel = true
  · rw [if_pos hcanceled]
    exact (drifts_canceled _).moves
  · rw [if_neg hcanceled]
    cases client.sleeper with
    | skip => exact Relation.ReflTransGen.refl
    | timer => exact (client.drifts_wait horizon _ _).moves

theorem judge_cases [Json.Decode α] {clock : Moment} {attempt : Nat}
    {outcome : Except TransportFault HttpResponse} {verdict : Verdict α}
    (h : judge clock attempt outcome = .ok verdict) :
    (exists fault, outcome = .error fault ∧ verdict = ⟨.error (.ofTransport fault), []⟩) ∨
    (exists response, outcome = .ok response ∧ response.status.isSuccess = true ∧
      verdict = accept response attempt) ∨
    (exists response e, outcome = .ok response ∧ response.status.isSuccess = false ∧
      ApiError.ofResponse clock response = .ok e ∧ verdict = reject e attempt) := by
  cases outcome with
  | error fault =>
    cases h
    exact Or.inl ⟨fault, rfl, rfl⟩
  | ok response =>
    unfold judge at h
    by_cases hsuccess : response.status.isSuccess = true
    · simp only [if_pos hsuccess] at h
      cases h
      exact Or.inr (Or.inl ⟨response, rfl, hsuccess, rfl⟩)
    · simp only [if_neg hsuccess] at h
      cases hdecoded : ApiError.ofResponse clock response with
      | error overflow =>
        rw [hdecoded] at h
        cases h
      | ok e =>
        rw [hdecoded] at h
        cases h
        have hfailure := Bool.eq_false_iff.mpr hsuccess
        exact Or.inr (Or.inr ⟨response, e, rfl, hfailure, hdecoded, rfl⟩)

theorem judge_ne_canceled [Json.Decode α] {clock : Moment} {attempt : Nat}
    {outcome : Except TransportFault HttpResponse} {verdict : Verdict α}
    (h : judge clock attempt outcome = .ok verdict) : verdict.result ≠ .error .canceled := by
  rcases judge_cases h with ⟨fault, _, rfl⟩ | ⟨response, _, _, rfl⟩ | ⟨_, e, _, _, _, rfl⟩
  · cases fault <;> simp [Error.ofTransport]
  · unfold accept
    dsimp only
    cases (Json.decode _ : Except Json.Error α) <;> simp
  · simp [reject]

theorem failure?_of_mem_judge [Json.Decode α] {clock : Moment} {attempt : Nat}
    {outcome : Except TransportFault HttpResponse} {verdict : Verdict α}
    (h : judge clock attempt outcome = .ok verdict) {event : Event}
    (hevent : event ∈ verdict.events) : event.failure? = none := by
  rcases judge_cases h with ⟨fault, _, rfl⟩ | ⟨response, _, _, rfl⟩ | ⟨_, e, _, _, _, rfl⟩
  · cases hevent
  · unfold accept at hevent
    dsimp only at hevent
    cases hdecoded : (Json.decode _ : Except Json.Error α) with
    | ok data =>
      rw [hdecoded, List.mem_singleton] at hevent
      rw [hevent]
      rfl
    | error e =>
      rw [hdecoded] at hevent
      rcases List.mem_pair.mp hevent with rfl | rfl <;> rfl
  · rcases List.mem_pair.mp hevent with rfl | rfl
    · rfl
    · split_ifs <;> rfl

theorem moves_afterFailure (client : Client) (path : String) (horizon : Option Nat)
    (method : Method) (policy : Policy) {e : Error} (he : e ≠ .canceled) (w : World σ) :
    Moves client.cancel w
      (client.afterFailure path horizon method policy e w : Progress α × World σ).2 := by
  have hfailed : Moves client.cancel w (w.report (.failed e policy.attempt method path)) :=
    World.moves_report w _ (by simpa [Event.failure?] using he)
  refine hfailed.trans ?_
  unfold afterFailure
  dsimp only
  cases policy.recordFailure _ _ e with
  | error overflow => exact Relation.ReflTransGen.refl
  | ok next =>
    dsimp only
    cases next.state with
    | backingOff attempt delay =>
      dsimp only
      refine (World.moves_report _ (.retrying delay policy.attempt e.rateLimit?.isSome)
        (by simp [Event.failure?])).trans ?_
      have hmoves := client.moves_pause horizon delay
        ((w.report (.failed e policy.attempt method path)).report
          (.retrying delay policy.attempt e.rateLimit?.isSome))
      rcases hpause : client.pause horizon delay _ with ⟨result, w'⟩
      rw [hpause] at hmoves
      cases result with
      | error halt => exact hmoves
      | ok _ => exact hmoves
    | failedExhausted made => exact World.moves_report _ _ (by simp [Event.failure?])
    | attempting attempt => exact Relation.ReflTransGen.refl
    | succeeded attempts => exact Relation.ReflTransGen.refl
    | failedTerminal attempts => exact Relation.ReflTransGen.refl

theorem drifts_verdict [Json.Decode α] {clock : Moment} {attempt : Nat}
    {outcome : Except TransportFault HttpResponse} {verdict : Verdict α}
    (h : judge clock attempt outcome = .ok verdict) (w : World σ) :
    Drifts w (w.reportAll verdict.events) := by
  apply World.drifts_reportAll
  intro event hevent
  rw [failure?_of_mem_judge h hevent]
  simp

theorem moves_conclude [Json.Decode α] {clock : Moment} {attempt : Nat}
    {outcome : Except TransportFault HttpResponse} {verdict : Verdict α}
    (h : judge clock attempt outcome = .ok verdict) (client : Client) (path : String)
    (horizon : Option Nat) (method : Method) (policy : Policy) (w : World σ) :
    Moves client.cancel w (client.conclude path horizon method policy verdict w).2 := by
  have hne := judge_ne_canceled h
  refine (drifts_verdict h w).moves.trans ?_
  unfold conclude
  cases hresult : verdict.result with
  | ok response => exact Relation.ReflTransGen.refl
  | error e =>
    have he : e ≠ .canceled := fun hcanceled => hne (hcanceled ▸ hresult)
    exact client.moves_afterFailure path horizon method policy he _

variable [Transport σ] [Json.Decode α]

theorem attempt_of_halt {client : Client} {horizon : Option Nat} {request : HttpRequest}
    {policy : Policy} {w w' : World σ} {halt : Halt}
    (h : client.exchange horizon request policy.attempt w = (.error halt, w')) (path : String) :
    client.attempt path horizon request policy w =
      ((.ended (.error halt), w') : Progress α × World σ) := by
  unfold attempt
  rw [h]

theorem attempt_of_verdict {client : Client} {horizon : Option Nat} {request : HttpRequest}
    {policy : Policy} {w w' : World σ} {outcome : Except TransportFault HttpResponse}
    {verdict : Verdict α}
    (h : client.exchange horizon request policy.attempt w = (.ok outcome, w'))
    (hjudge : judge w'.clock policy.attempt outcome = .ok verdict) (path : String) :
    client.attempt path horizon request policy w =
      client.conclude path horizon request.method policy verdict w' := by
  unfold attempt
  rw [h]
  dsimp only
  rw [hjudge]

theorem attempt_of_overflow {client : Client} {horizon : Option Nat} {request : HttpRequest}
    {policy : Policy} {w w' : World σ} {outcome : Except TransportFault HttpResponse}
    {overflow : Overflow}
    (h : client.exchange horizon request policy.attempt w = (.ok outcome, w'))
    (hjudge : (judge w'.clock policy.attempt outcome : Except Overflow (Verdict α)) =
      .error overflow) (path : String) :
    client.attempt path horizon request policy w =
      ((.ended (.error (.overflow overflow)), w') : Progress α × World σ) := by
  unfold attempt
  rw [h]
  dsimp only
  rw [hjudge]

theorem moves_attempt_of_exchange (client : Client) (path : String) (horizon : Option Nat)
    (request : HttpRequest) (policy : Policy) (w : World σ) :
    Moves client.cancel (client.exchange horizon request policy.attempt w).2
      (client.attempt path horizon request policy w : Progress α × World σ).2 := by
  rcases hexchange : client.exchange horizon request policy.attempt w with ⟨result, w'⟩
  cases result with
  | error halt => rw [attempt_of_halt hexchange]
  | ok outcome =>
    cases hjudge : (judge w'.clock policy.attempt outcome : Except Overflow (Verdict α)) with
    | error overflow => rw [attempt_of_overflow hexchange hjudge]
    | ok verdict =>
      rw [attempt_of_verdict hexchange hjudge]
      exact moves_conclude hjudge client path horizon request.method policy w'

theorem moves_attempt (client : Client) (path : String) (horizon : Option Nat)
    (request : HttpRequest) (policy : Policy) (w : World σ) :
    Moves client.cancel w
      (client.attempt path horizon request policy w : Progress α × World σ).2 :=
  (client.moves_exchange horizon request policy.attempt w).trans
    (client.moves_attempt_of_exchange path horizon request policy w)

theorem moves_attempts (client : Client) (path : String) (horizon : Option Nat)
    (request : HttpRequest) (fuel : Nat) (policy : Policy) (w : World σ) :
    Moves client.cancel w
      (client.attempts path horizon request fuel policy w :
        Except Halt (Response α) × World σ).2 := by
  induction fuel generalizing policy w with
  | zero => exact Relation.ReflTransGen.refl
  | succ fuel ih =>
    have hmoves := client.moves_attempt (α := α) path horizon request policy w
    unfold attempts
    rcases hattempt : (client.attempt path horizon request policy w : Progress α × World σ)
      with ⟨progress, w'⟩
    rw [hattempt] at hmoves
    cases progress with
    | ended result => exact hmoves
    | again next => exact hmoves.trans (ih next w')

theorem moves_attempts_of_exchange (client : Client) (path : String) (horizon : Option Nat)
    (request : HttpRequest) (fuel : Nat) (policy : Policy) (w : World σ) :
    Moves client.cancel (client.exchange horizon request policy.attempt w).2
      (client.attempts path horizon request (fuel + 1) policy w :
        Except Halt (Response α) × World σ).2 := by
  have hmoves := client.moves_attempt_of_exchange (α := α) path horizon request policy w
  unfold attempts
  rcases hattempt : (client.attempt path horizon request policy w : Progress α × World σ)
    with ⟨progress, w'⟩
  rw [hattempt] at hmoves
  cases progress with
  | ended result => exact hmoves
  | again next => exact hmoves.trans (client.moves_attempts path horizon request fuel next w')

def horizon (client : Client) (w : World σ) : Option Nat :=
  client.deadline.map fun deadline => w.now + deadline.ticks

theorem call_of_callUntil {client : Client} {request : Request} {body : Option Payload}
    {w w' : World σ} {result : Except Halt (Response α)}
    (h : client.callUntil (client.horizon w) request body w = (result, w'))
    (hresult : result ≠ .error .expired) : client.call request body w = (result, w') := by
  unfold call
  unfold horizon at h
  cases hdeadline : client.deadline with
  | none =>
    rw [hdeadline] at h
    exact h
  | some deadline =>
    rw [hdeadline] at h
    dsimp only
    rw [show client.callUntil (some (w.now + deadline.ticks)) request body w = (result, w') from h]
    rcases result with halt | response
    · cases halt with
      | expired => exact absurd rfl hresult
      | failed e => rfl
      | pending => rfl
      | overflow cause => rfl
    · rfl

theorem call_of_expired {client : Client} {request : Request} {body : Option Payload}
    {w w' : World σ} {deadline : Duration} (hdeadline : client.deadline = some deadline)
    (h : client.callUntil (some (w.now + deadline.ticks)) request body w =
      ((.error .expired, w') : Except Halt (Response α) × World σ)) :
    client.call request body w =
      ((.error (.failed (.deadlineExceeded deadline)), w'.report (.deadlineExceeded deadline)) :
        Except Halt (Response α) × World σ) := by
  unfold call
  rw [hdeadline]
  dsimp only
  rw [h]

/-- Unless a call runs out of time as a whole, its deadline makes no difference to its result. -/
theorem callUntil_eq_of_call {client : Client} {request : Request} {body : Option Payload}
    {w w' : World σ} {result : Except Halt (Response α)}
    (h : client.call request body w = (result, w'))
    (hresult : forall deadline, result ≠ .error (.failed (.deadlineExceeded deadline))) :
    client.callUntil (client.horizon w) request body w = (result, w') := by
  rcases hcall : (client.callUntil (client.horizon w) request body w :
    Except Halt (Response α) × World σ) with ⟨other, w₁⟩
  by_cases hexpired : other = .error .expired
  · subst hexpired
    unfold horizon at hcall
    cases hdeadline : client.deadline with
    | none =>
      rw [hdeadline] at hcall
      unfold call at h
      rw [hdeadline] at h
      exact hcall.symm.trans h
    | some deadline =>
      rw [hdeadline] at hcall
      rw [call_of_expired hdeadline hcall] at h
      cases h
      exact absurd rfl (hresult deadline)
  · rw [call_of_callUntil hcall hexpired] at h
    exact h

theorem callUntil_of_call {client : Client} {request : Request} {body : Option Payload}
    {w w' : World σ} {response : Response α}
    (h : client.call request body w = (.ok response, w')) :
    client.callUntil (client.horizon w) request body w = (.ok response, w') :=
  callUntil_eq_of_call h fun _ => by simp

theorem callUntil_of_error {client : Client} {request : Request} {body : Option Payload}
    {e : Error} (h : client.prepare request body = .error e) (horizon : Option Nat)
    (w : World σ) :
    client.callUntil horizon request body w =
      ((.error (.failed e), w) : Except Halt (Response α) × World σ) := by
  unfold callUntil
  rw [h]

theorem callUntil_of_ok {client : Client} {request : Request} {body : Option Payload}
    {prepared : HttpRequest} (h : client.prepare request body = .ok prepared)
    (horizon : Option Nat) (w : World σ) :
    client.callUntil horizon request body w =
      (client.attempts request.path horizon prepared client.strategy.attemptLimit
        (client.policy request) w : Except Halt (Response α) × World σ) := by
  unfold callUntil
  rw [h]

theorem drifts_call (client : Client) (request : Request) (body : Option Payload) (w : World σ) :
    Drifts (client.callUntil (client.horizon w) request body w :
        Except Halt (Response α) × World σ).2
      (client.call request body w : Except Halt (Response α) × World σ).2 := by
  rcases hcall : (client.callUntil (client.horizon w) request body w :
    Except Halt (Response α) × World σ) with ⟨result, w'⟩
  by_cases hresult : result = .error .expired
  · subst hresult
    cases hdeadline : client.deadline with
    | none =>
      unfold call
      unfold horizon at hcall
      rw [hdeadline] at hcall ⊢
      rw [show client.callUntil none request body w = _ from hcall]
    | some deadline =>
      unfold horizon at hcall
      rw [hdeadline] at hcall
      rw [call_of_expired hdeadline hcall]
      exact World.drifts_report w' _ (by simp [Event.failure?])
  · rw [call_of_callUntil hcall hresult]

theorem moves_call (client : Client) (request : Request) (body : Option Payload)
    (w : World σ) :
    Moves client.cancel w
      (client.call request body w : Except Halt (Response α) × World σ).2 := by
  refine Relation.ReflTransGen.trans ?_ (client.drifts_call request body w).moves
  cases hprepare : client.prepare request body with
  | error e => rw [callUntil_of_error hprepare]
  | ok prepared =>
    rw [callUntil_of_ok hprepare]
    exact client.moves_attempts request.path _ prepared _ _ w

end Client

/-!
## Listings
-/

namespace Listing

open World (Moves)

theorem start_eq_ok_iff {client : Client} {request : Request} {options : ListOptions}
    {listing : Listing α} :
    start client request options = .ok listing <->
      exists applied, options.apply request client.pageSize = .ok applied ∧
        listing = ⟨client, applied.1, .start applied.2 options.maxResults, []⟩ := by
  unfold start
  cases options.apply request client.pageSize with
  | error e => simp
  | ok applied =>
    constructor
    · intro h
      cases h
      exact ⟨applied, rfl, rfl⟩
    · intro h
      rcases h with ⟨_, happlied, rfl⟩
      cases happlied
      rfl

variable [Transport σ] [Json.Decode α]

theorem fetch_cases {listing next : Listing α} {page : UInt32} {w w' : World σ}
    (h : listing.fetch page w = (.ok next, w')) :
    exists (response : Response (Page α)) (w₁ : World σ),
      listing.client.call (listing.request.forPage page listing.paginator.pageSize) none w =
          (.ok response, w₁) ∧
        w' = w₁.report (.fetched listing.request.path response.data.descriptor) ∧
        next = { listing with
          paginator := (listing.paginator.accept page response.data).2
          buffer := listing.buffer ++ (listing.paginator.accept page response.data).1 } := by
  unfold fetch at h
  dsimp only at h
  rcases hcall : (listing.client.call (listing.request.forPage page listing.paginator.pageSize)
    none w : Except Halt (Response (Page α)) × World σ) with ⟨result, w₁⟩
  rw [hcall] at h
  cases result with
  | error halt => cases h
  | ok response =>
    cases h
    exact ⟨response, w₁, rfl, rfl, rfl⟩

theorem client_of_fetch {listing next : Listing α} {page : UInt32} {w w' : World σ}
    (h : listing.fetch page w = (.ok next, w')) : next.client = listing.client := by
  rcases fetch_cases h with ⟨_, _, _, _, rfl⟩
  rfl

theorem moves_fetch (listing : Listing α) (page : UInt32) (w : World σ) :
    Moves listing.client.cancel w (listing.fetch page w).2 := by
  have hmoves := listing.client.moves_call (α := Page α)
    (listing.request.forPage page listing.paginator.pageSize) none w
  unfold fetch
  dsimp only
  rcases hcall : (listing.client.call (listing.request.forPage page listing.paginator.pageSize)
    none w : Except Halt (Response (Page α)) × World σ) with ⟨result, w'⟩
  rw [hcall] at hmoves
  cases result with
  | error halt => exact hmoves
  | ok response => exact hmoves.trans (World.moves_report w' _ (by simp [Event.failure?]))

theorem moves_nextWithin (fuel : Nat) (listing : Listing α) (w : World σ) :
    (nextWithin fuel listing w).2.1.client = listing.client ∧
      Moves listing.client.cancel w (nextWithin fuel listing w).2.2 := by
  induction fuel generalizing listing w with
  | zero =>
    unfold nextWithin
    cases listing.buffer with
    | cons item rest => exact ⟨rfl, Relation.ReflTransGen.refl⟩
    | nil => cases listing.paginator.nextPage <;> exact ⟨rfl, Relation.ReflTransGen.refl⟩
  | succ fuel ih =>
    unfold nextWithin
    cases listing.buffer with
    | cons item rest => exact ⟨rfl, Relation.ReflTransGen.refl⟩
    | nil =>
      cases listing.paginator.nextPage with
      | none => exact ⟨rfl, Relation.ReflTransGen.refl⟩
      | some page =>
        have hmoves := listing.moves_fetch page w
        dsimp only
        rcases hfetch : listing.fetch page w with ⟨result, w'⟩
        rw [hfetch] at hmoves
        cases result with
        | error halt => exact ⟨rfl, hmoves⟩
        | ok next =>
          have hclient := client_of_fetch hfetch
          rcases ih next w' with ⟨hkept, hrest⟩
          rw [hclient] at hkept hrest
          exact ⟨hkept, hmoves.trans hrest⟩

theorem moves_nexts (n : Nat) (listing : Listing α) (w : World σ) :
    (listing.nexts n w).2.1.client = listing.client ∧
      Moves listing.client.cancel w (listing.nexts n w).2.2 := by
  induction n generalizing listing w with
  | zero => exact ⟨rfl, Relation.ReflTransGen.refl⟩
  | succ n ih =>
    rcases moves_nextWithin listing.pagesLeft listing w with ⟨hclient, hfirst⟩
    rcases ih (listing.next w).2.1 (listing.next w).2.2 with ⟨hkept, hrest⟩
    rw [show (listing.next w).2.1.client = listing.client from hclient] at hkept hrest
    exact ⟨hkept, hfirst.trans hrest⟩

theorem moves_collectWithin (fuel : Nat) (listing : Listing α) (w : World σ) :
    Moves listing.client.cancel w (collectWithin fuel listing w).2 := by
  induction fuel generalizing listing w with
  | zero =>
    unfold collectWithin
    cases listing.paginator.nextPage <;> exact Relation.ReflTransGen.refl
  | succ fuel ih =>
    unfold collectWithin
    cases listing.paginator.nextPage with
    | none => exact Relation.ReflTransGen.refl
    | some page =>
      have hmoves := listing.moves_fetch page w
      dsimp only
      rcases hfetch : listing.fetch page w with ⟨result, w'⟩
      rw [hfetch] at hmoves
      cases result with
      | error halt => exact hmoves
      | ok next =>
        have hrest := ih next w'
        rw [client_of_fetch hfetch] at hrest
        exact hmoves.trans hrest

end Listing

/-!
## Collections
-/

namespace Operation

open World (Moves)

variable {Item Create Update : Type}

theorem moves_data {token : Option Token} {w : World σ}
    {answer : Except Halt (Response Item) × World σ} (h : Moves token w answer.2) :
    Moves token w (Collection.data answer).2 := by
  rcases answer with ⟨halt | response, w'⟩
  · exact h
  · exact h

theorem client_of_stream {c : Collection Create Update} {options : ListOptions}
    {listing : Listing Item} (h : c.stream options = .ok listing) :
    listing.client = c.client := by
  rcases Listing.start_eq_ok_iff.mp h with ⟨applied, _, rfl⟩
  rfl

variable [Transport σ] [Json.Decode Item]

theorem moves_walk {listing : Listing Item} {token : Option Token}
    (htoken : listing.client.cancel = token) (steps : Nat) (rest : Bool) (w : World σ) :
    Moves token w (walk listing steps rest w).2 := by
  rcases Listing.moves_nexts steps listing w with ⟨hclient, hmoves⟩
  unfold walk
  rcases hnexts : listing.nexts steps w with ⟨results, next, w'⟩
  rw [hnexts] at hclient hmoves
  rw [htoken] at hmoves
  cases rest with
  | false => exact hmoves
  | true =>
    have hcollect := Listing.moves_collectWithin next.pagesLeft next w'
    rw [hclient, htoken] at hcollect
    exact hmoves.trans hcollect

theorem moves_run (c : Collection Create Update) (operation : Operation Create Update)
    (w : World σ) :
    Moves c.client.cancel w (operation.run c w : Outcome Item × World σ).2 := by
  cases operation with
  | call request body => exact c.client.moves_call (α := Item) request body w
  | find path => exact c.client.moves_call (α := Item) (.new .get path) none w
  | get id' =>
    show Moves c.client.cancel w (c.get id' w : Except Halt Item × World σ).2
    unfold Collection.get
    cases c.itemRequest .get id' with
    | error e => exact Relation.ReflTransGen.refl
    | ok request => exact moves_data (c.client.moves_call request none w)
  | list options =>
    show Moves c.client.cancel w (c.list options w : Except Halt (List Item) × World σ).2
    unfold Collection.list
    cases hstream : (c.stream options : Except Error (Listing Item)) with
    | error e => exact Relation.ReflTransGen.refl
    | ok listing =>
      have hmoves := Listing.moves_collectWithin listing.pagesLeft listing w
      rw [client_of_stream hstream] at hmoves
      exact hmoves
  | listPage page options =>
    show Moves c.client.cancel w (c.listPage page options w : Except Halt (Page Item) × World σ).2
    unfold Collection.listPage
    by_cases hpage : page = 0
    · rw [if_pos hpage]
    · rw [if_neg hpage]
      cases options.apply (c.collectionRequest .get) c.client.pageSize with
      | error e => exact Relation.ReflTransGen.refl
      | ok applied =>
        exact moves_data (c.client.moves_call (applied.1.forPage page applied.2) none w)
  | create options => exact moves_data (c.client.moves_call _ _ w)
  | createIdempotent options => exact moves_data (c.client.moves_call _ _ w)
  | update id' options =>
    show Moves c.client.cancel w (c.update id' options w : Except Halt Item × World σ).2
    unfold Collection.update
    cases c.itemRequest .put id' with
    | error e => exact Relation.ReflTransGen.refl
    | ok request => exact moves_data (c.client.moves_call request _ w)
  | delete id' =>
    show Moves c.client.cancel w (c.delete id' w).2
    unfold Collection.delete
    cases c.itemRequest .delete id' with
    | error e => exact Relation.ReflTransGen.refl
    | ok request =>
      refine (World.moves_report w (.deleting c.resource.name id')
        (by simp [Event.failure?])).trans ?_
      have hmoves := c.client.moves_call (α := Json.Ignored) request none
        (w.report (.deleting c.resource.name id'))
      dsimp only
      rcases hcall : (c.client.call request none (w.report (.deleting c.resource.name id')) :
        Except Halt (Response Json.Ignored) × World σ) with ⟨halt | response, w'⟩
      · rw [hcall] at hmoves
        exact hmoves
      · rw [hcall] at hmoves
        exact hmoves
  | stream options steps rest =>
    show Moves c.client.cancel w (begin c options steps rest w : Outcome Item × World σ).2
    unfold begin
    cases hstream : (c.stream options : Except Error (Listing Item)) with
    | error e => exact Relation.ReflTransGen.refl
    | ok listing => exact moves_walk (congrArg Client.cancel (client_of_stream hstream)) _ _ w

end Operation
end RestClient
