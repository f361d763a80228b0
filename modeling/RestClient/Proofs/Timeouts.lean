import RestClient.Proofs.Rejections
import RestClient.Proofs.RetryBudget
import RestClient.Proofs.Transient
import RestClient.Proofs.Waits
import Mathlib.Tactic.Ring

/-!
# Timeouts of attempts

Whatever becomes of its requests, a call of a client with a timeout comes to an end.  Each attempt
takes at most as long as the timeout, each pause at most as long as the longest delay, and the
strategy bounds the number of both.
-/

namespace RestClient

variable {σ α : Type}

/-!
## The longest delay
-/

/-- The strategy allows so many retries, and no delay before one of them is longer than the cap. -/
def Strategy.IsCapped (strategy : Strategy) (retries : Nat) (cap : Duration) : Prop :=
  strategy = .linear cap retries ∨
    exists initial jitter, strategy = .exponential initial cap retries jitter

namespace Strategy

variable {strategy : Strategy} {retries retry : Nat} {cap delay : Duration} {jitter : Jitter}

theorem IsCapped.maxRetries (h : strategy.IsCapped retries cap) :
    strategy.maxRetries? = some retries := by
  rcases h with rfl | ⟨initial, jitter, rfl⟩ <;> rfl

theorem IsCapped.nominal_le (h : strategy.IsCapped retries cap)
    (hdelay : strategy.nominal? retry = some delay) : delay.nanos ≤ cap.nanos := by
  rcases h with rfl | ⟨initial, jitter, rfl⟩
  · rcases Option.ite_none_left_eq_some.mp hdelay with ⟨_, heq⟩
    rw [Option.some.inj heq]
  · rcases Option.ite_none_left_eq_some.mp hdelay with ⟨_, heq⟩
    rw [← Option.some.inj heq, Duration.nanos_min]
    exact Nat.min_le_right _ _

theorem IsCapped.delay_le (h : strategy.IsCapped retries cap)
    (hdelay : strategy.delay? retry jitter = some delay) : delay.nanos ≤ cap.nanos := by
  rcases Option.map_eq_some_iff.mp hdelay with ⟨nominal, hnominal, _⟩
  exact Nat.le_trans (delay_le_nominal hdelay hnominal) (h.nominal_le hnominal)

end Strategy

def RateLimit.Config.longest (config : RateLimit.Config) (cap : Duration)
    (unit : Duration -> Nat) : Nat :=
  max (unit cap) (if config.enabled then unit config.maxWait else 0)

theorem Error.rateLimitDelay?_le {e : Error} {now : Moment} {longest delay : Duration}
    (h : e.rateLimitDelay? now longest = some delay) : delay.nanos ≤ longest.nanos := by
  rcases Option.bind_eq_some_iff.mp h with ⟨info, _, hdelay⟩
  unfold RateLimit.delay? at hdelay
  cases hretry : info.retryAfter with
  | some wait =>
    rw [hretry] at hdelay
    cases hdelay
    rw [Duration.nanos_min]
    exact Nat.min_le_right _ _
  | none =>
    rw [hretry] at hdelay
    rcases Option.map_eq_some_iff.mp hdelay with ⟨wait, _, rfl⟩
    rw [Duration.nanos_min]
    exact Nat.min_le_right _ _

/-- The delay is no longer than the cap, or advice is followed and it is no longer than such waits
may be. -/
def RateLimit.Config.Admits (config : RateLimit.Config) (cap delay : Duration) : Prop :=
  delay.nanos ≤ cap.nanos ∨ config.enabled = true ∧ delay.nanos ≤ config.maxWait.nanos

theorem Policy.admits_delayAfter {policy : Policy} {now : Moment} {e : Error}
    {backoff cap : Duration} (hbackoff : backoff.nanos ≤ cap.nanos) :
    policy.rateLimit.Admits cap (policy.delayAfter now e backoff) := by
  unfold delayAfter
  by_cases henabled : policy.rateLimit.enabled = true
  · rw [if_pos henabled]
    cases hadvised : e.rateLimitDelay? now policy.rateLimit.maxWait with
    | none => exact Or.inl hbackoff
    | some delay => exact Or.inr ⟨henabled, Error.rateLimitDelay?_le hadvised⟩
  · rw [if_neg henabled]
    exact Or.inl hbackoff

theorem RateLimit.Config.le_longest {config : RateLimit.Config} {cap delay : Duration}
    (h : config.Admits cap delay) {measure unit : Duration -> Nat}
    (hunit : forall other, other = cap ∨ other = config.maxWait ->
      delay.nanos ≤ other.nanos -> measure delay ≤ unit other) :
    measure delay ≤ config.longest cap unit := by
  unfold longest
  rcases h with hcap | ⟨henabled, hwait⟩
  · exact Nat.le_trans (hunit cap (Or.inl rfl) hcap) (Nat.le_max_left _ _)
  · rw [if_pos henabled]
    exact Nat.le_trans (hunit _ (Or.inr rfl) hwait) (Nat.le_max_right _ _)

/-!
## Attempts
-/

/-- All responses of the script can be decoded: none of them announces a reset beyond the clock. -/
def Script.IsReadable (script : Script) : Prop :=
  forall reply, reply ∈ script.replies -> forall response, reply.outcome = some (.ok response) ->
    forall seconds, response.headers.AnnouncesReset seconds -> seconds < 1 <<< 63

theorem Script.IsReadable.send {script : Script} (h : script.IsReadable) (request : HttpRequest) :
    (Transport.send script request).2.IsReadable := by
  intro reply hreply
  rw [Script.replies_send] at hreply
  exact h reply (List.mem_of_mem_drop hreply)

theorem Script.IsReadable.early {script : Script} (h : script.IsReadable) {request : HttpRequest}
    {response : HttpResponse}
    (houtcome : (Transport.send script request).1.outcome = some (.ok response)) :
    forall seconds, response.headers.AnnouncesReset seconds -> seconds < 1 <<< 63 := by
  rcases script with ⟨_ | ⟨reply, rest⟩⟩
  · cases houtcome
  · exact h reply List.mem_cons_self response houtcome

theorem Client.SendsOnly.isReadable {prepared : HttpRequest} {w w' : World Script}
    (h : SendsOnly prepared w w') (hreadable : w.transport.IsReadable) :
    w'.transport.IsReadable := by
  rcases h with ⟨sent, -, htransport, -⟩
  rw [htransport]
  clear htransport
  generalize w.transport = script at hreadable ⊢
  induction sent generalizing script with
  | nil => exact hreadable
  | cons request rest ih => exact ih _ (hreadable.send request)

namespace Client

open World (Spends)

theorem exists_verdict [Json.Decode α] (clock : Moment) (n : Nat)
    {outcome : Except TransportFault HttpResponse}
    (h : forall response, outcome = .ok response ->
      forall seconds, response.headers.AnnouncesReset seconds -> seconds < 1 <<< 63) :
    exists verdict : Verdict α, judge clock n outcome = .ok verdict := by
  cases outcome with
  | error fault => exact ⟨_, rfl⟩
  | ok response =>
    unfold judge
    by_cases hsuccess : response.status.isSuccess = true
    · exact ⟨_, if_pos hsuccess⟩
    · rcases RateLimit.ofHeaders_cases clock response.headers with
        ⟨⟨info, hinfo⟩, _⟩ | ⟨_, seconds, hreset, hlate⟩
      · rcases ApiError.reports_of_ofHeaders hinfo with ⟨e, he, _⟩
        dsimp only
        rw [if_neg hsuccess, he]
        exact ⟨_, rfl⟩
      · exact absurd (h response rfl seconds hreset) (Nat.not_lt_of_le hlate)

/-- The client gives each attempt so much time and leaves its delays to the timer, its strategy
allows so many retries after delays up to the cap, and all of this is in whole milliseconds. -/
structure IsTimed (client : Client) (timeout : Duration) (retries : Nat) (cap : Duration) :
    Prop where
  limit : client.timeout = some timeout
  sleeper : client.sleeper = .timer
  strategy : client.strategy.IsCapped retries cap
  wholeLimit : timeout.IsWhole
  wholeCap : cap.IsWhole
  wholeWait : client.rateLimit.maxWait.IsWhole

variable {client : Client} {request : Request} {horizon : Option Nat} {retries n : Nat}
  {timeout cap : Duration} {policy : Policy} {e : Error}

/-- What follows the failure of attempt `n`: the end of the call if the failure is final, else a
delay and attempt `n + 1`, unless the delays are too long together or the call is cut off. -/
inductive Sequel (client : Client) (request : Request) (horizon : Option Nat) (cap : Duration)
    (n : Nat) (policy : Policy) (e : Error) (w : World σ) : Progress α × World σ -> Prop where
  | final {w' : World σ} (hfinal : client.IsFinal request n e) (hspends : Spends w w' 0 0 []) :
      Sequel client request horizon cap n policy e w (.ended (.error (.failed e)), w')
  | overrun {w' : World σ} {delay : Duration} (hretried : ¬ client.IsFinal request n e)
      (hdelay : delay.nanos ≤ client.rateLimit.longest cap (·.nanos))
      (hbound : Duration.bound ≤ policy.elapsed.nanos + delay.nanos)
      (hspends : Spends w w' 0 0 []) :
      Sequel client request horizon cap n policy e w
        (.ended (.error (.overflow .totalBackoff)), w')
  | cut {w' : World σ} {halt : Halt} {delay : Duration} (hretried : ¬ client.IsFinal request n e)
      (hcut : halt.IsCut client.cancel horizon w')
      (hspends : Spends w w' (client.rateLimit.longest cap (·.millis)) 0 [delay]) :
      Sequel client request horizon cap n policy e w (.ended (.error halt), w')
  | again {w' : World σ} {next : Policy} {delay : Duration}
      (hretried : ¬ client.IsFinal request n e) (hnext : client.InFlight request (n + 1) next)
      (helapsed : next.elapsed.nanos = policy.elapsed.nanos + delay.nanos)
      (hspends : Spends w w' (client.rateLimit.longest cap (·.millis)) 0 [delay]) :
      Sequel client request horizon cap n policy e w (.again next, w')

theorem InFlight.admits_delayAfter (hpolicy : client.InFlight request n policy)
    (hcapped : client.strategy.IsCapped retries cap) {backoff : Duration} {jitter : Jitter}
    (hbackoff : policy.strategy.delay? policy.attempt jitter = some backoff) (now : Moment)
    (e : Error) :
    client.rateLimit.Admits cap (policy.delayAfter now e backoff) := by
  rw [hpolicy.strategy] at hbackoff
  rw [← hpolicy.rateLimit]
  exact Policy.admits_delayAfter (hcapped.delay_le hbackoff)

theorem spends_retry (htimed : client.IsTimed timeout retries cap) {delay : Duration}
    (hdelay : client.rateLimit.Admits cap delay) (horizon : Option Nat) (w : World σ)
    (event : Event) :
    Spends w (client.pause horizon delay (w.report event)).2
      (client.rateLimit.longest cap (·.millis)) 0 [delay] := by
  have hticks : delay.ticks ≤ client.rateLimit.longest cap (·.millis) := by
    apply RateLimit.Config.le_longest hdelay
    rintro other (rfl | rfl) hle
    · exact Duration.ticks_le_millis hle htimed.wholeCap
    · exact Duration.ticks_le_millis hle htimed.wholeWait
  have hpause := (w.spends_report event).trans
    (spends_pause htimed.sleeper horizon delay (w.report event))
  exact hpause.mono (Nat.le_trans (Nat.le_of_eq (Nat.zero_add _)) hticks) (Nat.le_refl 0)

theorem sequel_afterFailure (htimed : client.IsTimed timeout retries cap)
    (hpolicy : client.InFlight request n policy) (path : String) (horizon : Option Nat)
    (method : Method) (e : Error) (w : World σ) :
    Sequel client request horizon cap n policy e w
      (client.afterFailure path horizon method policy e w : Progress α × World σ) := by
  have hfailed := w.spends_report (.failed e policy.attempt method path)
  unfold afterFailure
  dsimp only
  generalize w.report (.failed e policy.attempt method path) = w₀ at hfailed ⊢
  cases hrecord : policy.recordFailure w₀.clock (w₀.jitter w₀.delays.length) e with
  | error overflow =>
    rcases Policy.recordFailure_error hrecord with ⟨rfl, hretried, backoff, hbackoff, hbound⟩
    have hdelay := hpolicy.admits_delayAfter htimed.strategy hbackoff w₀.clock e
    refine .overrun (fun hfinal => hretried (hpolicy.givesUp_iff.mpr hfinal)) ?_ hbound hfailed
    exact RateLimit.Config.le_longest hdelay fun other _ hle => hle
  | ok next =>
    dsimp only
    cases Policy.recorded hrecord with
    | terminal hrejected =>
      refine .final (hpolicy.givesUp_iff.mp ?_) hfailed
      exact hrejected.imp_right Or.inl
    | exhausted hallowed hpredicate hnone =>
      refine .final (hpolicy.givesUp_iff.mp (Or.inr (Or.inr hnone))) ?_
      exact hfailed.trans (w₀.spends_report _)
    | @backsOff backoff elapsed hallowed hpredicate hbackoff helapsed =>
      have hretried : ¬ client.IsFinal request n e := fun hfinal =>
        Policy.not_givesUp_of_delay hallowed hpredicate hbackoff (hpolicy.givesUp_iff.mpr hfinal)
      have hdelay := hpolicy.admits_delayAfter htimed.strategy hbackoff w₀.clock e
      dsimp only
      generalize Event.retrying (policy.delayAfter w₀.clock e backoff) policy.attempt
        e.rateLimit?.isSome = event
      have hpause := orCut_pause htimed.sleeper horizon (policy.delayAfter w₀.clock e backoff)
        (w₀.report event)
      have hspends := (hfailed.trans (spends_retry htimed hdelay horizon w₀ event)).mono
        (Nat.le_of_eq (Nat.zero_add _)) (Nat.le_refl 0)
      generalize client.pause horizon (policy.delayAfter w₀.clock e backoff) (w₀.report event) =
        result at hpause hspends ⊢
      cases hpause with
      | done _ =>
        refine .again hretried ?_ helapsed.symm hspends
        rw [hpolicy.attempt_eq]
        exact hpolicy.resume _ elapsed
      | cut hcut _ => exact .cut hretried hcut hspends

inductive Settled (horizon : Option Nat) (longest spent : Nat) :
    Except Halt (Response α) -> Prop where
  | value (response : Response α) : Settled horizon longest spent (.ok response)
  | failed (e : Error) : Settled horizon longest spent (.error (.failed e))
  | expired (hhorizon : horizon.isSome = true) : Settled horizon longest spent (.error .expired)
  | overrun {delay : Duration} (hdelay : delay.nanos ≤ longest)
      (hbound : Duration.bound ≤ spent + delay.nanos) :
      Settled horizon longest spent (.error (.overflow .totalBackoff))

theorem settled_of_isCut {token : Option Token} {halt : Halt} {w' : World σ}
    (h : halt.IsCut token horizon w') (longest spent : Nat) :
    (Settled horizon longest spent : Except Halt (Response α) -> Prop) (.error halt) := by
  rcases h with ⟨rfl, _⟩ | ⟨rfl, time, hhorizon, _⟩
  · exact .failed .canceled
  · exact .expired (Option.isSome_of_eq_some hhorizon)

inductive Attempted (client : Client) (request : Request) (timeout : Duration) (retries : Nat)
    (cap : Duration) (horizon : Option Nat) (n : Nat) (policy : Policy) (w : World σ) :
    Progress α × World σ -> Prop where
  | ended {w' : World σ} {result : Except Halt (Response α)}
      (hsettled : Settled horizon (client.rateLimit.longest cap (·.nanos)) policy.elapsed.nanos
        result) (hspends : Spends w w' timeout.millis 1 []) :
      Attempted client request timeout retries cap horizon n policy w (.ended result, w')
  | cut {w' : World σ} {halt : Halt} {delay : Duration} (hleft : n ≤ retries)
      (hcut : halt.IsCut client.cancel horizon w')
      (hspends : Spends w w' (timeout.millis + client.rateLimit.longest cap (·.millis)) 1
        [delay]) :
      Attempted client request timeout retries cap horizon n policy w (.ended (.error halt), w')
  | again {w' : World σ} {next : Policy} {delay : Duration} (hleft : n ≤ retries)
      (hnext : client.InFlight request (n + 1) next)
      (helapsed : next.elapsed.nanos = policy.elapsed.nanos + delay.nanos)
      (hspends : Spends w w' (timeout.millis + client.rateLimit.longest cap (·.millis)) 1
        [delay]) :
      Attempted client request timeout retries cap horizon n policy w (.again next, w')

theorem spends_reportAll (w : World σ) (events : List Event) :
    Spends w (w.reportAll events) 0 0 [] := by
  induction events generalizing w with
  | nil =>
    rw [World.reportAll_nil]
    exact w.spends_refl
  | cons event rest ih =>
    rw [World.reportAll_cons]
    exact (w.spends_report event).trans (ih _)

theorem le_of_not_isFinal (hcapped : client.strategy.IsCapped retries cap) (hn : 1 ≤ n)
    (h : ¬ client.IsFinal request n e) : n ≤ retries := by
  by_contra hover
  exact h (Or.inr (Or.inr
    ((Strategy.nominal?_eq_none_iff hcapped.maxRetries hn).mpr (Nat.lt_of_not_le hover))))

variable [Json.Decode α] {prepared : HttpRequest} {w : World Script}

theorem attempted_attempt (htimed : client.IsTimed timeout retries cap)
    (hpolicy : client.InFlight request n policy) (hn : 1 ≤ n)
    (hreadable : w.transport.IsReadable) (path : String) (horizon : Option Nat)
    (prepared : HttpRequest) :
    Attempted client request timeout retries cap horizon n policy w
      (client.attempt path horizon prepared policy w : Progress α × World Script) := by
  have hexchange := orCut_exchange htimed.limit horizon prepared policy.attempt w
  have hspends := (spends_exchange htimed.limit horizon prepared policy.attempt w).mono
    (Duration.ticks_le_millis (Nat.le_refl _) htimed.wholeLimit) (Nat.le_refl 1)
  rcases hresult : client.exchange horizon prepared policy.attempt w with ⟨halt | outcome, w₁⟩
  · rw [hresult] at hexchange hspends
    rw [attempt_of_halt hresult]
    cases hexchange with
    | cut hcut hnow => exact .ended (settled_of_isCut hcut _ _) hspends
  · rw [hresult] at hexchange hspends
    have hreads : forall response, outcome = .ok response ->
        forall seconds, response.headers.AnnouncesReset seconds -> seconds < 1 <<< 63 := by
      rintro response rfl
      cases hexchange with
      | done h =>
        rcases h.2 with ⟨_, houtcome⟩ | ⟨htimeout, _⟩
        · exact hreadable.early houtcome
        · cases htimeout
    rcases exists_verdict (α := α) w₁.clock policy.attempt hreads with ⟨verdict, hjudge⟩
    rw [attempt_of_verdict hresult hjudge]
    have hreported := hspends.trans (spends_reportAll w₁ verdict.events)
    unfold conclude
    dsimp only
    generalize w₁.reportAll verdict.events = w₂ at hreported ⊢
    cases verdict.result with
    | ok response => exact .ended (.value response) hreported
    | error e =>
      have hsequel := sequel_afterFailure (α := α) htimed hpolicy path horizon prepared.method e w₂
      dsimp only
      generalize client.afterFailure path horizon prepared.method policy e w₂ = progress
        at hsequel ⊢
      cases hsequel with
      | final hfinal hafter => exact .ended (.failed e) (hreported.trans hafter)
      | overrun hretried hdelay hbound hafter =>
        exact .ended (.overrun hdelay hbound) (hreported.trans hafter)
      | cut hretried hcut hafter =>
        exact .cut (le_of_not_isFinal htimed.strategy hn hretried) hcut (hreported.trans hafter)
      | again hretried hnext helapsed hafter =>
        exact .again (le_of_not_isFinal htimed.strategy hn hretried) hnext helapsed
          (hreported.trans hafter)

theorem attempts_spend (htimed : client.IsTimed timeout retries cap) (path : String)
    (horizon : Option Nat) (prepared : HttpRequest) {left : Nat} (hleft : n + left = retries + 1)
    (hn : 1 ≤ n) (hpolicy : client.InFlight request n policy)
    (hreadable : w.transport.IsReadable) {answer : Except Halt (Response α) × World Script}
    (hanswer : client.attempts path horizon prepared (left + 1) policy w = answer) :
    exists delays,
      Spends w answer.2 ((left + 1) * timeout.millis +
        left * client.rateLimit.longest cap (·.millis)) (left + 1) delays ∧
      Settled horizon (client.rateLimit.longest cap (·.nanos))
        (policy.elapsed.nanos + Duration.total delays) answer.1 := by
  induction left generalizing n policy w with
  | zero =>
    have hattempt := attempted_attempt (α := α) htimed hpolicy hn hreadable path horizon prepared
    unfold attempts at hanswer
    generalize (client.attempt path horizon prepared policy w : Progress α × World Script) =
      progress at hattempt hanswer
    cases hattempt with
    | ended hsettled hspends =>
      cases hanswer
      exact ⟨[], hspends.mono (Nat.le_of_eq (by simp)) (Nat.le_refl 1), hsettled⟩
    | cut hretry _ _ => exact absurd hleft (Nat.ne_of_lt (Nat.lt_succ_of_le hretry))
    | again hretry _ _ _ => exact absurd hleft (Nat.ne_of_lt (Nat.lt_succ_of_le hretry))
  | succ left ih =>
    have hattempt := attempted_attempt (α := α) htimed hpolicy hn hreadable path horizon prepared
    have hstill := (client.sendsOnly_attempt (α := α) path horizon prepared policy w).isReadable
      hreadable
    have hsum : timeout.millis + client.rateLimit.longest cap (·.millis) +
        ((left + 1) * timeout.millis + left * client.rateLimit.longest cap (·.millis)) =
          (left + 1 + 1) * timeout.millis +
            (left + 1) * client.rateLimit.longest cap (·.millis) := by ring
    have hlimit := Nat.le_trans (Nat.le_add_right _ _) (Nat.le_of_eq hsum)
    unfold attempts at hanswer
    generalize (client.attempt path horizon prepared policy w : Progress α × World Script) =
      progress at hattempt hanswer hstill
    cases hattempt with
    | ended hsettled hspends =>
      cases hanswer
      exact ⟨[], hspends.mono (Nat.le_trans (Nat.le_add_right _ _) hlimit)
        (Nat.le_add_left 1 (left + 1)), hsettled⟩
    | @cut _ halt delay _ hcut hspends =>
      cases hanswer
      exact ⟨[delay], hspends.mono hlimit (Nat.le_add_left 1 (left + 1)),
        settled_of_isCut hcut _ _⟩
    | @again w' next delay _ hnext helapsed hspends =>
      have hrest : n + 1 + left = retries + 1 := by omega
      rcases ih hrest (Nat.le_add_left 1 n) hnext hstill hanswer with ⟨delays, hmore, hsettled⟩
      rw [helapsed, Nat.add_assoc] at hsettled
      exact ⟨delay :: delays, (hspends.trans hmore).mono (Nat.le_of_eq hsum)
        (Nat.le_of_eq (Nat.add_comm 1 (left + 1))), hsettled⟩

theorem callUntil_spend (htimed : client.IsTimed timeout retries cap) (horizon : Option Nat)
    (request : Request) (body : Option Payload) (hreadable : w.transport.IsReadable)
    {answer : Except Halt (Response α) × World Script}
    (hanswer : client.callUntil horizon request body w = answer) :
    exists delays,
      Spends w answer.2 ((retries + 1) * timeout.millis +
        retries * client.rateLimit.longest cap (·.millis)) (retries + 1) delays ∧
      Settled horizon (client.rateLimit.longest cap (·.nanos)) (Duration.total delays)
        answer.1 := by
  cases hprepare : client.prepare request body with
  | error e =>
    rw [callUntil_of_error hprepare] at hanswer
    cases hanswer
    exact ⟨[], w.spends_refl.mono (Nat.zero_le _) (Nat.zero_le _), .failed e⟩
  | ok prepared =>
    have hlimit : client.strategy.attemptLimit = retries + 1 := by
      unfold Strategy.attemptLimit
      rw [htimed.strategy.maxRetries]
    rw [callUntil_of_ok hprepare, hlimit] at hanswer
    rcases attempts_spend htimed request.path horizon prepared (Nat.add_comm 1 retries)
      (Nat.le_refl 1) (inFlight_policy client request) hreadable hanswer with
      ⟨delays, hspends, hsettled⟩
    have hzero : (client.policy request).elapsed.nanos = 0 := rfl
    rw [hzero, Nat.zero_add] at hsettled
    exact ⟨delays, hspends, hsettled⟩

/-- The call has resolved after so many requests and in so much time: all its attempts and all the
pauses between them, each as long as it can be.  There is one way not to resolve, which is that the
delays together with one more are too long for a duration. -/
structure KeepsTime (client : Client) (timeout : Duration) (retries : Nat) (cap : Duration)
    (w : World σ) (answer : Except Halt (Response α) × World σ) : Prop where
  requests : exists sent, answer.2.requests = w.requests ++ sent ∧ sent.length ≤ retries + 1
  now : answer.2.now ≤ w.now + ((retries + 1) * timeout.millis +
    retries * max cap.millis
      (if client.rateLimit.enabled then client.rateLimit.maxWait.millis else 0))
  resolves :
    (exists response, answer.1 = .ok response) ∨ (exists e, answer.1 = .error (.failed e)) ∨
    answer.1 = .error (.overflow .totalBackoff) ∧
      exists (delays : List Duration) (delay : Duration),
      answer.2.delays = w.delays ++ delays ∧
      delay.nanos ≤ max cap.nanos
        (if client.rateLimit.enabled then client.rateLimit.maxWait.nanos else 0) ∧
      Duration.bound ≤ Duration.total delays + delay.nanos

omit [Json.Decode α] in
theorem keepsTime_of_spends {delays : List Duration}
    {answer : Except Halt (Response α) × World Script}
    (hspends : Spends w answer.2 ((retries + 1) * timeout.millis +
      retries * client.rateLimit.longest cap (·.millis)) (retries + 1) delays)
    (hsettled : Settled none (client.rateLimit.longest cap (·.nanos)) (Duration.total delays)
      answer.1) : KeepsTime client timeout retries cap w answer := by
  refine ⟨hspends.requests, hspends.now, ?_⟩
  rcases answer with ⟨result, w'⟩
  cases hsettled with
  | value response => exact Or.inl ⟨response, rfl⟩
  | failed e => exact Or.inr (Or.inl ⟨e, rfl⟩)
  | expired hhorizon => cases hhorizon
  | @overrun delay hdelay hbound =>
    exact Or.inr (Or.inr ⟨rfl, delays, delay, hspends.delays, hdelay, hbound⟩)

theorem keepsTime_call (htimed : client.IsTimed timeout retries cap) (request : Request)
    (body : Option Payload) (hreadable : w.transport.IsReadable) :
    KeepsTime client timeout retries cap w
      (client.call request body w : Except Halt (Response α) × World Script) := by
  unfold call
  cases client.deadline with
  | none =>
    rcases callUntil_spend (α := α) htimed none request body hreadable rfl with
      ⟨delays, hspends, hsettled⟩
    exact keepsTime_of_spends hspends hsettled
  | some deadline =>
    dsimp only
    rcases hcall : (client.callUntil (some (w.now + deadline.ticks)) request body w :
      Except Halt (Response α) × World Script) with ⟨result, w'⟩
    rcases callUntil_spend htimed _ request body hreadable hcall with ⟨delays, hspends, hsettled⟩
    cases hsettled with
    | value response => exact keepsTime_of_spends hspends (.value response)
    | failed e => exact keepsTime_of_spends hspends (.failed e)
    | expired _ =>
      have hreported := hspends.trans (w'.spends_report (.deadlineExceeded deadline))
      rw [List.append_nil] at hreported
      exact keepsTime_of_spends hreported (.failed (.deadlineExceeded deadline))
    | overrun hdelay hbound => exact keepsTime_of_spends hspends (.overrun hdelay hbound)

/-!
## Replies that miss their time
-/

/-- What attempt `n` comes to whose reply misses its time: when the time is over, a timeout with all
that follows such a failure, unless the call is cut off before that. -/
inductive TimesOut (client : Client) (request : Request) (timeout cap : Duration)
    (horizon : Option Nat) (n : Nat) (policy : Policy) (rest : List Reply) (w : World Script) :
    Progress α × World Script -> Prop where
  | over {w₁ : World Script} {progress : Progress α × World Script}
      (hnow : w₁.now = w.now + timeout.ticks) (hreplies : w₁.transport.replies = rest)
      (hsequel : Sequel client request horizon cap n policy .timeout w₁ progress) :
      TimesOut client request timeout cap horizon n policy rest w progress
  | cut {w' : World Script} {halt : Halt} (hcut : halt.IsCut client.cancel horizon w')
      (hnow : w'.now ≤ w.now + timeout.ticks) :
      TimesOut client request timeout cap horizon n policy rest w (.ended (.error halt), w')

theorem timesOut_attempt (htimed : client.IsTimed timeout retries cap)
    (hpolicy : client.InFlight request n policy) {reply : Reply} {rest : List Reply}
    (hreplies : w.transport.replies = reply :: rest) (hmisses : reply.Misses timeout)
    (path : String) (horizon : Option Nat) (prepared : HttpRequest) :
    TimesOut client request timeout cap horizon n policy rest w
      (client.attempt path horizon prepared policy w : Progress α × World Script) := by
  have hnext : Transport.send w.transport prepared = (reply, ⟨rest⟩) := by
    show w.transport.next = _
    unfold Script.next
    rw [hreplies]
  have hexchange := orCut_exchange htimed.limit horizon prepared policy.attempt w
  rw [hnext] at hexchange
  rcases hresult : client.exchange horizon prepared policy.attempt w with ⟨halt | outcome, w₁⟩
  · rw [hresult] at hexchange
    rw [attempt_of_halt hresult]
    cases hexchange with
    | cut hcut hnow => exact .cut hcut hnow
  · rw [hresult] at hexchange
    cases hexchange with
    | done h =>
      rcases h.2 with ⟨hhits, _⟩ | ⟨rfl, hnow⟩
      · exact absurd hmisses hhits
      · have hopen : w.isCanceled client.cancel = false := by
          rw [Bool.eq_false_iff]
          intro hcanceled
          rw [exchange_of_canceled hcanceled] at hresult
          cases hresult
        have htraffic := requests_exchange_of_open hopen horizon prepared policy.attempt
        rw [hresult, hnext] at htraffic
        have hjudge : (judge w₁.clock policy.attempt (.error .timeout) :
            Except Overflow (Verdict α)) = .ok ⟨.error .timeout, []⟩ := rfl
        have hafter : client.conclude path horizon prepared.method policy
            (⟨.error .timeout, []⟩ : Verdict α) w₁ =
              client.afterFailure path horizon prepared.method policy .timeout w₁ := by
          unfold conclude
          rw [World.reportAll_nil]
        rw [attempt_of_verdict hresult hjudge, hafter]
        exact .over hnow (congrArg Script.replies htraffic.2.2)
          (sequel_afterFailure htimed hpolicy path horizon prepared.method .timeout w₁)

/-- A timeout bounds every call, whatever its script says.  The call resolves in time and after no
more requests than there are attempts.  Late replies make no difference to it, so that they reach
no attempt at all, and a reply that misses its time makes the attempt fail with a timeout, for
which there are as many retries as for any other failure. -/
theorem timeout_bounds_every_call (htimed : client.IsTimed timeout retries cap)
    (request : Request) (body : Option Payload) (hreadable : w.transport.IsReadable) :
    KeepsTime client timeout retries cap w
        (client.call request body w : Except Halt (Response α) × World Script) ∧
      client.call request body (w.noticed timeout) =
        ((client.call request body w).map id (·.noticed timeout) :
          Except Halt (Response α) × World Script) ∧
      (forall (n : Nat) (policy : Policy) (path : String) (horizon : Option Nat)
        (prepared : HttpRequest) (w₁ : World Script) (reply : Reply) (rest : List Reply),
        client.InFlight request n policy -> w₁.transport.replies = reply :: rest ->
        reply.Misses timeout ->
          TimesOut client request timeout cap horizon n policy rest w₁
            (client.attempt path horizon prepared policy w₁ : Progress α × World Script)) ∧
      forall (n : Nat) (e : Error), 1 ≤ n -> (client.IsFinal request n e <->
        request.idempotent = false ∨ client.predicate e n = false ∨ retries < n) := by
  refine ⟨keepsTime_call htimed request body hreadable,
    call_noticed htimed.limit request body w, ?_, ?_⟩
  · intro n policy path horizon prepared w₁ reply rest hpolicy hreplies hmisses
    exact timesOut_attempt htimed hpolicy hreplies hmisses path horizon prepared
  · intro n e hn
    unfold IsFinal
    rw [Strategy.nominal?_eq_none_iff htimed.strategy.maxRetries hn]

end Client

namespace Sample

def missingReplies : List Reply :=
  [reply 150 (some (.ok done)), reply 20 none, reply 3 (some (.ok done))]

theorem isTimed_client : client.IsTimed (.ofMillis 100) 2 (.ofMillis 5) where
  limit := rfl
  sleeper := rfl
  strategy := Or.inl rfl
  wholeLimit := Duration.isWhole_ofMillis (by decide)
  wholeCap := Duration.isWhole_ofMillis (by decide)
  wholeWait := ⟨300_000, by decide⟩

theorem isReadable_missingReplies : Script.IsReadable ⟨missingReplies⟩ := by
  intro reply hreply response hresponse seconds hreset
  have hdone : response = done := by
    rcases List.mem_cons.mp hreply with rfl | hreply
    · exact (Except.ok.inj (Option.some.inj hresponse)).symm
    · rcases List.mem_pair.mp hreply with rfl | rfl
      · cases hresponse
      · exact (Except.ok.inj (Option.some.inj hresponse)).symm
  have hnone : Header.resets.findSome? (RateLimit.word? done.headers) = none := by decide
  rw [hdone] at hreset
  rw [RateLimit.announcesReset_iff.mpr hreset] at hnone
  cases hnone

/-- Two timeouts, two delays and a reply in time. -/
theorem call_ends_in_spite_of_missing_replies :
    client.IsTimed (.ofMillis 100) 2 (.ofMillis 5) ∧
      (world missingReplies).transport.IsReadable ∧
      Client.KeepsTime client (.ofMillis 100) 2 (.ofMillis 5) (world missingReplies)
        (client.call request none (world missingReplies) :
          Except Halt (Response Unit) × World Script) ∧
      (client.call request none (world missingReplies) :
        Except Halt (Response Unit) × World Script).2.now = 213 ∧
      Client.TimesOut client request (.ofMillis 100) (.ofMillis 5) none 1 (client.policy request)
        (missingReplies.drop 1) (world missingReplies)
        (client.attempt "p" none prepared (client.policy request) (world missingReplies) :
          Client.Progress Unit × World Script) := by
  have hbound := Client.timeout_bounds_every_call (α := Unit) isTimed_client request none
    (w := world missingReplies) isReadable_missingReplies
  refine ⟨isTimed_client, isReadable_missingReplies, hbound.1, by decide +kernel, ?_⟩
  exact hbound.2.2.1 1 _ "p" none prepared _ _ _ (Client.inFlight_policy client request) rfl
    (Or.inl (by decide))

end Sample
end RestClient
