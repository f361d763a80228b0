import RestClient.Proofs.Timeouts
import RestClient.Proofs.Turns

/-!
# The sum of the delays

A policy keeps the exact sum of the delays that it has handed out, and fails when the next one does
not fit any more.  A call hands each of them on to the sleeper, and where the strategy is capped
none is longer than the cap or than advice may ask for.  The sum then stays below as many of the
longest delays as there are retries.
-/

namespace RestClient

theorem Duration.total_concat (delays : List Duration) (delay : Duration) :
    total (delays ++ [delay]) = total delays + delay.nanos := by
  unfold total
  induction delays with
  | nil => exact Nat.add_comm _ _
  | cons first rest ih =>
    rw [List.cons_append, List.foldr_cons, List.foldr_cons, ih, Nat.add_assoc]

theorem Duration.total_le {delays : List Duration} {longest : Nat}
    (h : forall delay, delay ∈ delays -> delay.nanos ≤ longest) :
    total delays ≤ delays.length * longest := by
  induction delays with
  | nil => exact Nat.zero_le _
  | cons first rest ih =>
    rcases List.forall_mem_cons.mp h with ⟨hfirst, hrest⟩
    rw [List.length_cons, Nat.succ_mul, Nat.add_comm]
    exact Nat.add_le_add hfirst (ih hrest)

namespace Policy

variable {policy : Policy} {now : Moment} {jitter : Jitter} {e : Error} {delay : Duration}

/-- The failure is to be followed by this delay: it may be repeated, there is a retry left, and this
is how long the strategy or the provider asks to wait. -/
def DelayDue (policy : Policy) (now : Moment) (jitter : Jitter) (e : Error) (delay : Duration) :
    Prop :=
  policy.retriesAllowed = true ∧ policy.predicate e policy.attempt = true ∧
    exists backoff, policy.strategy.delay? policy.attempt jitter = some backoff ∧
      policy.delayAfter now e backoff = delay

theorem delayDue_of_not_givesUp (h : ¬ policy.GivesUp e) {backoff : Duration}
    (hbackoff : policy.strategy.delay? policy.attempt jitter = some backoff) :
    policy.DelayDue now jitter e (policy.delayAfter now e backoff) := by
  refine ⟨?_, ?_, backoff, hbackoff, rfl⟩
  · exact Bool.eq_true_of_not_eq_false fun hnot => h (Or.inl hnot)
  · exact Bool.eq_true_of_not_eq_false fun hnot => h (Or.inr (Or.inl hnot))

theorem recordFailure_of_delayDue (h : policy.DelayDue now jitter e delay) :
    policy.recordFailure now jitter e =
      match policy.elapsed.add? delay with
      | none => .error .totalBackoff
      | some elapsed => .ok { policy with state := .backingOff policy.attempt delay, elapsed } := by
  rcases h with ⟨hallowed, hpredicate, backoff, hbackoff, rfl⟩
  have hretried := not_givesUp_of_delay hallowed hpredicate hbackoff
  rcases recordFailure_of_not_givesUp hretried now jitter with ⟨other, hother, hrecord⟩
  rw [hbackoff] at hother
  cases hother
  exact hrecord

theorem exists_error_iff :
    (exists overflow, policy.recordFailure now jitter e = .error overflow) <->
      exists delay, policy.DelayDue now jitter e delay ∧
        Duration.longest.nanos < policy.elapsed.nanos + delay.nanos := by
  constructor
  · rintro ⟨overflow, hrecord⟩
    rcases recordFailure_error hrecord with ⟨_, hretried, backoff, hbackoff, hbound⟩
    exact ⟨_, delayDue_of_not_givesUp hretried hbackoff, hbound⟩
  · rintro ⟨delay, hdue, hlong⟩
    have hadd : policy.elapsed.add? delay = none := Duration.add?_eq_none_iff.mpr hlong
    have hrecord := recordFailure_of_delayDue hdue
    rw [hadd] at hrecord
    exact ⟨.totalBackoff, hrecord⟩

theorem exists_backingOff_iff :
    (exists next, policy.recordFailure now jitter e = .ok next ∧
        next.state = .backingOff policy.attempt delay) <->
      policy.DelayDue now jitter e delay ∧
        policy.elapsed.nanos + delay.nanos ≤ Duration.longest.nanos := by
  constructor
  · rintro ⟨next, hrecord, hstate⟩
    rcases (recorded hrecord).of_backingOff hstate with
      ⟨hretried, helapsed, backoff, hbackoff, rfl⟩
    refine ⟨delayDue_of_not_givesUp hretried hbackoff, ?_⟩
    rw [← helapsed]
    exact Nat.le_pred_of_lt next.elapsed.nanos_lt
  · rintro ⟨hdue, hfits⟩
    have hrecord := recordFailure_of_delayDue hdue
    cases hadd : policy.elapsed.add? delay with
    | none => exact absurd (Duration.add?_eq_none_iff.mp hadd) (Nat.not_lt_of_le hfits)
    | some elapsed =>
      rw [hadd] at hrecord
      exact ⟨_, hrecord, rfl⟩

end Policy

namespace Client

variable {σ α : Type} {client : Client} {request : Request} {body : Option Payload}
  {prepared : HttpRequest} {policy next : Policy} {e : Error} {retries n : Nat}
  {cap delay : Duration} {delays : List Duration} {w w₁ w₂ w' : World σ}

/-!
## What has been handed out
-/

/-- Since the call began in the world `w` these delays were handed to the sleeper.  The policy
keeps their sum, and there are no more of them than retries. -/
structure Counts (client : Client) (retries : Nat) (cap : Duration) (w : World σ)
    (policy : Policy) (w₁ : World σ) (delays : List Duration) : Prop where
  handed : w₁.delays = w.delays ++ delays
  elapsed : policy.elapsed.nanos = Duration.total delays
  length_le : delays.length ≤ retries
  admits : forall delay, delay ∈ delays -> client.rateLimit.Admits cap delay

theorem Counts.of_delays_eq (h : Counts client retries cap w policy w₁ delays)
    (hdelays : w₂.delays = w₁.delays) (helapsed : next.elapsed = policy.elapsed) :
    Counts client retries cap w next w₂ delays :=
  ⟨hdelays.trans h.handed, (congrArg Duration.nanos helapsed).trans h.elapsed, h.length_le,
    h.admits⟩

theorem Counts.concat (h : Counts client retries cap w policy w₁ delays)
    (hdelays : w₂.delays = w₁.delays ++ [delay])
    (helapsed : next.elapsed.nanos = policy.elapsed.nanos + delay.nanos)
    (hlength : delays.length < retries) (hadmits : client.rateLimit.Admits cap delay) :
    Counts client retries cap w next w₂ (delays ++ [delay]) := by
  constructor
  · rw [hdelays, h.handed, List.append_assoc]
  · rw [helapsed, h.elapsed, Duration.total_concat]
  · rw [List.length_append]
    exact hlength
  · intro other hother
    rcases List.mem_append.mp hother with hbefore | hlast
    · exact h.admits other hbefore
    · rw [List.mem_singleton.mp hlast]
      exact hadmits

theorem Counts.total_le_length (h : Counts client retries cap w policy w₁ delays) :
    Duration.total delays ≤ delays.length * client.rateLimit.longest cap (·.nanos) := by
  apply Duration.total_le
  intro delay hdelay
  exact RateLimit.Config.le_longest (h.admits delay hdelay) fun other _ hle => hle

theorem Counts.total_le (h : Counts client retries cap w policy w₁ delays) :
    Duration.total delays ≤ retries * client.rateLimit.longest cap (·.nanos) :=
  Nat.le_trans h.total_le_length (Nat.mul_le_mul_right _ h.length_le)

theorem le_of_not_givesUp (hcapped : client.strategy.IsCapped retries cap)
    (hpolicy : client.InFlight request n policy) (hn : 1 ≤ n) (h : ¬ policy.GivesUp e) :
    n ≤ retries :=
  le_of_not_isFinal hcapped hn fun hfinal => h (hpolicy.givesUp_iff.mpr hfinal)

section Calls

variable [Transport σ] [Json.Decode α]

/-!
## Calls under way
-/

theorem Fails.counts_of_backingOff {path : String} {horizon : Option Nat}
    (hfails : Fails α client path horizon prepared policy w₁ e next w₂)
    (hcapped : client.strategy.IsCapped retries cap)
    (hpolicy : client.InFlight request policy.attempt policy)
    (hcounts : Counts client retries cap w policy w₁ delays)
    (hlength : delays.length + 1 = policy.attempt) {m : Nat}
    (hstate : next.state = .backingOff m delay) (hdelays : w'.delays = w₁.delays ++ [delay]) :
    Counts client retries cap w next w' (delays ++ [delay]) := by
  rcases (Policy.recorded hfails.recordFailure_eq).of_backingOff hstate with
    ⟨hretried, helapsed, backoff, hbackoff, rfl⟩
  have hattempt : 1 ≤ policy.attempt := hlength ▸ Nat.le_add_left 1 delays.length
  refine hcounts.concat hdelays helapsed ?_ (hpolicy.admits_delayAfter hcapped hbackoff _ _)
  exact Nat.lt_of_lt_of_le (Nat.lt_of_succ_le (Nat.le_of_eq hlength))
    (le_of_not_givesUp hcapped hpolicy hattempt hretried)

theorem UnderWay.exists_counts (hcapped : client.strategy.IsCapped retries cap)
    (h : UnderWay α client request prepared w policy w₁) :
    exists delays, Counts client retries cap w policy w₁ delays ∧
      delays.length + 1 = policy.attempt := by
  induction h with
  | first =>
    refine ⟨[], ⟨(List.append_nil _).symm, rfl, Nat.zero_le _, ?_⟩, rfl⟩
    intro delay hdelay
    cases hdelay
  | @again policy next w₁ w₂ hbefore hcount hattempt ih =>
    rcases ih with ⟨delays, hcounts, hlength⟩
    have hnext := inFlight_of_again hbefore.inFlight hattempt
    have hturn := turn_attempt (α := α) client request.path (client.horizon w) prepared policy w₁
    rw [hattempt] at hturn
    cases hturn with
    | @goesOn _ recorded delay _ _ hfails hstate hdelays =>
      have hmore := hfails.counts_of_backingOff hcapped hbefore.inFlight hcounts hlength hstate
        hdelays
      refine ⟨delays ++ [delay], hmore.of_delays_eq rfl ?_, ?_⟩
      · unfold Policy.resume
        rw [hstate]
      · rw [hnext.attempt_eq, ← hlength, List.length_append]
        rfl

/-- A call comes past this world while this is its policy: at an attempt, behind the exchange, when
the policy has given up, and from when a delay is handed to the sleeper until it has passed. -/
inductive Visits (α : Type) [Json.Decode α] (client : Client) (request : Request)
    (prepared : HttpRequest) (w : World σ) : Policy -> World σ -> Prop where
  | attempting {policy : Policy} {w₁ : World σ}
      (hunder : UnderWay α client request prepared w policy w₁) :
      Visits α client request prepared w policy w₁
  | exchanged {policy : Policy} {w₁ : World σ}
      (hunder : UnderWay α client request prepared w policy w₁) :
      Visits α client request prepared w policy
        (client.exchange (client.horizon w) prepared policy.attempt w₁).2
  | resolved {policy next : Policy} {e : Error} {w₁ w₂ : World σ}
      (hunder : UnderWay α client request prepared w policy w₁)
      (hfails : Fails α client request.path (client.horizon w) prepared policy w₁ e next w₂)
      (hterminal : next.state.isTerminal = true) :
      Visits α client request prepared w next w₂
  | handedOver {policy next : Policy} {e : Error} {delay : Duration} {w₁ w₂ : World σ}
      (hunder : UnderWay α client request prepared w policy w₁)
      (hfails : Fails α client request.path (client.horizon w) prepared policy w₁ e next w₂)
      (hstate : next.state = .backingOff policy.attempt delay) :
      Visits α client request prepared w next
        ((w₂.report (.retrying delay policy.attempt e.rateLimit?.isSome)).note (.paused delay))
  | paused {policy next : Policy} {e : Error} {delay : Duration} {w₁ w₂ : World σ}
      (hunder : UnderWay α client request prepared w policy w₁)
      (hfails : Fails α client request.path (client.horizon w) prepared policy w₁ e next w₂)
      (hstate : next.state = .backingOff policy.attempt delay) :
      Visits α client request prepared w next
        (client.pause (client.horizon w) delay
          (w₂.report (.retrying delay policy.attempt e.rateLimit?.isSome))).2

theorem Visits.exists_counts (hcapped : client.strategy.IsCapped retries cap)
    (h : Visits α client request prepared w policy w₁) :
    exists delays, Counts client retries cap w policy w₁ delays := by
  cases h with
  | attempting hunder =>
    rcases hunder.exists_counts hcapped with ⟨delays, hcounts, _⟩
    exact ⟨delays, hcounts⟩
  | exchanged hunder =>
    rcases hunder.exists_counts hcapped with ⟨delays, hcounts, _⟩
    exact ⟨delays, hcounts.of_delays_eq (client.delays_exchange _ prepared _ _) rfl⟩
  | resolved hunder hfails hterminal =>
    rcases hunder.exists_counts hcapped with ⟨delays, hcounts, _⟩
    refine ⟨delays, hcounts.of_delays_eq hfails.delays ?_⟩
    cases Policy.recorded hfails.recordFailure_eq with
    | terminal hrejected => rfl
    | exhausted hallowed hpredicate hnone => rfl
    | backsOff hallowed hpredicate hbackoff helapsed => cases hterminal
  | @handedOver _ _ _ delay _ _ hunder hfails hstate =>
    rcases hunder.exists_counts hcapped with ⟨delays, hcounts, hlength⟩
    refine ⟨delays ++ [delay], hfails.counts_of_backingOff hcapped hunder.inFlight hcounts hlength
      hstate ?_⟩
    rw [World.delays_paused, hfails.delays_retrying]
  | @paused _ _ _ delay _ _ hunder hfails hstate =>
    rcases hunder.exists_counts hcapped with ⟨delays, hcounts, hlength⟩
    refine ⟨delays ++ [delay], hfails.counts_of_backingOff hcapped hunder.inFlight hcounts hlength
      hstate ?_⟩
    rw [client.delays_pause, hfails.delays_retrying]

theorem exists_visits_of_call (hretries : client.strategy.maxRetries? = some retries)
    (hprepare : client.prepare request body = .ok prepared) (w : World σ) :
    exists policy w₁, Visits α client request prepared w policy w₁ ∧
      (client.call request body w : Except Halt (Response α) × World σ).2.delays = w₁.delays := by
  rw [(client.drifts_call (α := α) request body w).sameTraffic.delays]
  rcases hcall : (client.callUntil (client.horizon w) request body w :
    Except Halt (Response α) × World σ) with ⟨result, w'⟩
  rcases exists_ended_of_callUntil hretries hprepare hcall with ⟨last, w₂, hunder, hattempt⟩
  have hturn := turn_attempt (α := α) client request.path (client.horizon w) prepared last w₂
  rw [hattempt] at hturn
  cases hturn with
  | halted hhalt hdelays => exact ⟨last, w₂, .attempting hunder, hdelays⟩
  | undated hdelays => exact ⟨last, w₂, .attempting hunder, hdelays⟩
  | answered hdelays => exact ⟨last, w₂, .attempting hunder, hdelays⟩
  | overruns hrecord hdelays => exact ⟨last, w₂, .attempting hunder, hdelays⟩
  | givesUp hfails hterminal hdelays =>
    exact ⟨_, _, .resolved hunder hfails hterminal, hdelays.trans hfails.delays.symm⟩
  | cut hfails hstate hhalt hdelays =>
    refine ⟨_, _, .paused hunder hfails hstate, ?_⟩
    rw [client.delays_pause, hfails.delays_retrying, hdelays]

theorem UnderWay.recordFailure_ne_error (hcapped : client.strategy.IsCapped retries cap)
    (hfits : retries * client.rateLimit.longest cap (·.nanos) ≤ Duration.longest.nanos)
    (h : UnderWay α client request prepared w policy w₁) (now : Moment) (jitter : Jitter)
    (e : Error) (overflow : Overflow) : policy.recordFailure now jitter e ≠ .error overflow := by
  intro hrecord
  rcases Policy.recordFailure_error hrecord with ⟨_, hretried, backoff, hbackoff, hbound⟩
  rcases h.exists_counts hcapped with ⟨delays, hcounts, hlength⟩
  have hleft := le_of_not_givesUp hcapped h.inFlight h.one_le_attempt hretried
  have hlast : (policy.delayAfter now e backoff).nanos ≤
      client.rateLimit.longest cap (·.nanos) :=
    RateLimit.Config.le_longest (h.inFlight.admits_delayAfter hcapped hbackoff now e)
      fun other _ hle => hle
  have hsum : policy.elapsed.nanos + (policy.delayAfter now e backoff).nanos ≤
      retries * client.rateLimit.longest cap (·.nanos) := by
    calc policy.elapsed.nanos + (policy.delayAfter now e backoff).nanos
      _ ≤ delays.length * client.rateLimit.longest cap (·.nanos) +
          client.rateLimit.longest cap (·.nanos) :=
        Nat.add_le_add (hcounts.elapsed ▸ hcounts.total_le_length) hlast
      _ = policy.attempt * client.rateLimit.longest cap (·.nanos) := by
        rw [← Nat.succ_mul, Nat.succ_eq_add_one, hlength]
      _ ≤ retries * client.rateLimit.longest cap (·.nanos) := Nat.mul_le_mul_right _ hleft
  have hlong : Duration.longest.nanos <
      policy.elapsed.nanos + (policy.delayAfter now e backoff).nanos := hbound
  exact Nat.not_le_of_lt hlong (Nat.le_trans hsum hfits)

/-- Nothing but a rate limit window that ends beyond the clock makes such a call fail itself. -/
theorem overflow_of_call (hcapped : client.strategy.IsCapped retries cap)
    (hfits : retries * client.rateLimit.longest cap (·.nanos) ≤ Duration.longest.nanos)
    {cause : Overflow} (h : client.call request body w =
      ((.error (.overflow cause), w') : Except Halt (Response α) × World σ)) :
    cause = .resetTime := by
  have huntil := callUntil_eq_of_call h (by simp)
  cases hprepare : client.prepare request body with
  | error e =>
    rw [callUntil_of_error hprepare] at huntil
    cases huntil
  | ok prepared =>
    rcases exists_ended_of_callUntil hcapped.maxRetries hprepare huntil with
      ⟨last, w₂, hunder, hattempt⟩
    have hturn := turn_attempt (α := α) client request.path (client.horizon w) prepared last w₂
    rw [hattempt] at hturn
    cases hturn with
    | halted hhalt hdelays => exact absurd rfl (hhalt.ne_overflow cause)
    | undated hdelays => rfl
    | overruns hrecord hdelays =>
      exact absurd hrecord (hunder.recordFailure_ne_error hcapped hfits _ _ _ _)
    | cut hfails hstate hhalt hdelays => exact absurd rfl (hhalt.ne_overflow cause)

end Calls
end Client

namespace Policy

/-- The sum of the delays is exact.  A failure cannot be recorded exactly if the delay that is due
would take the sum beyond the longest duration, and nothing else cannot be.  In a call with a
capped strategy the sum is that of the delays handed to the sleeper wherever the call comes past,
it stays within the retries and the longest delay, and where those fit into a duration the policy
never fails. -/
theorem delays_are_counted_exactly :
    (forall {strategy : Strategy} {predicate : Predicate} {rateLimit : RateLimit.Config}
      {retriesAllowed : Bool} {steps : List Step} {made : List Transition} {reached : Policy},
      (start strategy predicate rateLimit retriesAllowed).run steps = .ok (made, reached) ->
        (start strategy predicate rateLimit retriesAllowed).SameRules reached ∧
          reached.elapsed.nanos = handedOut made ∧
          forall now jitter e,
            ((exists overflow, reached.recordFailure now jitter e = .error overflow) <->
              exists delay, reached.DelayDue now jitter e delay ∧
                Duration.longest.nanos < handedOut made + delay.nanos) ∧
            forall delay,
              (exists next, reached.recordFailure now jitter e = .ok next ∧
                  next.state = .backingOff reached.attempt delay) <->
                reached.DelayDue now jitter e delay ∧
                  handedOut made + delay.nanos ≤ Duration.longest.nanos) ∧
      forall {σ α : Type} [Transport σ] [Json.Decode α] {client : Client} {request : Request}
        (body : Option Payload) {retries : Nat} {cap : Duration} {w : World σ},
        client.strategy.IsCapped retries cap ->
          (forall {prepared : HttpRequest}, client.prepare request body = .ok prepared ->
            (forall policy w₁, Client.Visits α client request prepared w policy w₁ ->
              exists delays, w₁.delays = w.delays ++ delays ∧
                policy.elapsed.nanos = Duration.total delays ∧
                Duration.total delays ≤ retries * client.rateLimit.longest cap (·.nanos)) ∧
            exists policy w₁, Client.Visits α client request prepared w policy w₁ ∧
              (client.call request body w : Except Halt (Response α) × World σ).2.delays =
                w₁.delays) ∧
          (retries * client.rateLimit.longest cap (·.nanos) ≤ Duration.longest.nanos ->
            forall cause, (client.call request body w : Except Halt (Response α) × World σ).1 =
              .error (.overflow cause) -> cause = .resetTime) := by
  constructor
  · intro strategy predicate rateLimit retriesAllowed steps made reached hrun
    have helapsed : reached.elapsed.nanos = handedOut made :=
      (elapsed_run hrun).trans (Nat.zero_add _)
    refine ⟨sameRules_run hrun, helapsed, ?_⟩
    rw [← helapsed]
    exact fun now jitter e => ⟨exists_error_iff, fun delay => exists_backingOff_iff⟩
  · intro σ α _ _ client request body retries cap w hcapped
    constructor
    · intro prepared hprepare
      refine ⟨?_, Client.exists_visits_of_call hcapped.maxRetries hprepare w⟩
      intro policy w₁ hvisits
      rcases hvisits.exists_counts hcapped with ⟨delays, hcounts⟩
      exact ⟨delays, hcounts.handed, hcounts.elapsed, hcounts.total_le⟩
    · intro hfits cause hcall
      exact Client.overflow_of_call hcapped hfits (Prod.ext hcall rfl)

end Policy

namespace Sample

def failingTwice : List Reply :=
  [reply 0 (some (.ok unavailable)), reply 0 (some (.error .timeout)), reply 0 (some (.ok done))]

/-- There is no second delay after the longest one, but the delays of the sample client are far
from that. -/
theorem longest_delay_fits_once :
    (exists made reached,
      (Policy.start (.linear .longest 2) .retryable .default true).run
        [.failure ⟨0⟩ .whole .timeout, .resume] = .ok (made, reached) ∧
      reached.elapsed = .longest ∧
      exists overflow, reached.recordFailure ⟨0⟩ .whole .timeout = .error overflow) ∧
      client.strategy.IsCapped 2 (.ofMillis 5) ∧ client.prepare request none = .ok prepared ∧
      (exists policy w₁,
        Client.Visits Unit client request prepared (world failingTwice) policy w₁ ∧
          policy.elapsed.nanos = Duration.total [.ofMillis 5, .ofMillis 5]) ∧
      forall cause, (client.call request none (world failingTwice) :
          Except Halt (Response Unit) × World Script).1 = .error (.overflow cause) ->
        cause = .resetTime := by
  have hcount := Policy.delays_are_counted_exactly
  have hcapped : client.strategy.IsCapped 2 (.ofMillis 5) := Or.inl rfl
  have hprepare : client.prepare request none = .ok prepared := by decide +kernel
  refine ⟨?_, hcapped, hprepare, ?_⟩
  · obtain ⟨made, reached, hrun, hreached, hdue⟩ : exists made reached,
        (Policy.start (.linear .longest 2) .retryable .default true).run
          [.failure ⟨0⟩ .whole .timeout, .resume] = .ok (made, reached) ∧
        reached.elapsed = .longest ∧ reached.DelayDue ⟨0⟩ .whole .timeout .longest :=
      ⟨_, _, rfl, rfl, rfl, rfl, _, rfl, rfl⟩
    rcases hcount.1 hrun with ⟨_, helapsed, hrecord⟩
    refine ⟨made, reached, hrun, hreached, (hrecord ⟨0⟩ .whole .timeout).1.mpr ⟨_, hdue, ?_⟩⟩
    rw [← helapsed, hreached]
    decide
  · rcases hcount.2 (α := Unit) none (w := world failingTwice) hcapped with
      ⟨hcounted, hoverflow⟩
    rcases hcounted hprepare with ⟨hvisits, policy, w₁, hlast, hdelays⟩
    refine ⟨⟨policy, w₁, hlast, ?_⟩, hoverflow (by decide)⟩
    rcases hvisits policy w₁ hlast with ⟨delays, hhanded, helapsed, _⟩
    have htwo : (client.call request none (world failingTwice) :
        Except Halt (Response Unit) × World Script).2.delays = [.ofMillis 5, .ofMillis 5] := by
      decide +kernel
    have hnone : (world failingTwice).delays = [] := rfl
    rw [← hdelays, htwo, hnone, List.nil_append] at hhanded
    rw [helapsed, hhanded]

end Sample
end RestClient
