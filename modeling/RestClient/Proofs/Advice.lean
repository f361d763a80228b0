import RestClient.Proofs.RetryBudget
import RestClient.Proofs.Rejections

/-!
# Rate limit advice

The advice of a response takes the place of a delay and of nothing else.  What it advises is read
off its header fields: `Retry-After` in seconds or as a date, else the end of the rate limit window
if the response is about a rate limit.  Two policies that differ in how they follow advice go
through the same states, apart from the delays after failures that carry some.
-/

namespace RestClient

theorem Duration.nanos_min_saturate (n : Nat) (longest : Duration) :
    (min (saturate n) longest).nanos = min n longest.nanos := by
  have hlongest : longest.nanos ≤ bound - 1 := Nat.le_sub_one_of_lt longest.nanos_lt
  rw [nanos_min, nanos_saturate, Nat.min_assoc, Nat.min_eq_right hlongest]

theorem Moment.since?_getD_zero (t now : Moment) :
    (t.since? now).getD .zero = .saturate (t.nanos - now.nanos) := by
  unfold since?
  by_cases h : now.nanos ≤ t.nanos
  · rw [if_pos h]
    rfl
  · rw [if_neg h, Nat.sub_eq_zero_of_le (Nat.le_of_not_le h)]
    rfl

/-!
## What a response advises
-/

/-- The wait in nanoseconds that a response advises at a moment. -/
inductive HttpResponse.Advises (response : HttpResponse) (now : Moment) : Nat -> Prop where
  /-- `Retry-After` states a number of seconds. -/
  | seconds {n : Nat} (hstates : response.headers.States Header.retryAfter n) :
      response.Advises now (n * 1_000_000_000)
  /-- `Retry-After` states no number but a date, which may have passed. -/
  | date {text : List Char} {date : Date}
      (hunstated : forall n, ¬ response.headers.States Header.retryAfter n)
      (hread : response.headers.read? Header.retryAfter = some text)
      (hdate : Date.ofText? text = some date) :
      response.Advises now (date.moment.nanos - now.nanos)
  /-- The response is about a rate limit whose window has not ended yet. -/
  | window {n : Nat} (hasks : ¬ response.headers.AsksToWait)
      (hlimited : response.status.code = 429 ∨ response.headers.States Header.remaining 0)
      (hreset : response.headers.AnnouncesReset n) (hcoming : now.nanos ≤ n * 1_000_000_000) :
      response.Advises now (n * 1_000_000_000 - now.nanos)

namespace RateLimit

variable {now : Moment} {headers : Headers} {info : RateLimit} {n : Nat}

theorem ofHeaders_eq_ok (h : ofHeaders now headers = .ok info) :
    reset? headers = .ok info.resetAt ∧ info.retryAfter = retryAfter? now headers := by
  unfold ofHeaders at h
  cases hreset : reset? headers with
  | error overflow =>
    rw [hreset] at h
    cases h
  | ok resetAt =>
    rw [hreset] at h
    cases h
    exact ⟨rfl, rfl⟩

theorem retryAfter?_of_states (h : headers.States Header.retryAfter n) :
    retryAfter? now headers = some (.ofSeconds n) := by
  rcases h with ⟨text, hread, hwrites⟩
  unfold retryAfter?
  rw [hread, Option.bind_some, Numeral.signedWord?_eq_some_iff.mpr hwrites]

theorem retryAfter?_of_date {text : List Char} {date : Date}
    (hunstated : forall n, ¬ headers.States Header.retryAfter n)
    (hread : headers.read? Header.retryAfter = some text)
    (hdate : Date.ofText? text = some date) :
    retryAfter? now headers = some (.saturate (date.moment.nanos - now.nanos)) := by
  have hword : Numeral.signedWord? (Blank.trim text) = none := by
    rw [Option.eq_none_iff_forall_ne_some]
    intro n hn
    exact hunstated n ⟨text, hread, Numeral.signedWord?_eq_some_iff.mp hn⟩
  unfold retryAfter?
  rw [hread, Option.bind_some, hword]
  dsimp only
  rw [hdate, Option.map_some, Moment.since?_getD_zero]

theorem retryAfter?_eq_none_iff : retryAfter? now headers = none <-> ¬ headers.AsksToWait := by
  rw [← isSome_retryAfter?_iff now headers, Bool.not_eq_true, Option.isSome_eq_false_iff,
    Option.isNone_iff_eq_none]

theorem resetAt_of_announcesReset (h : ofHeaders now headers = .ok info)
    (hreset : headers.AnnouncesReset n) : info.resetAt = some (.ofSeconds n) := by
  have hresetAt := (ofHeaders_eq_ok h).1
  unfold reset? at hresetAt
  rw [announcesReset_iff.mpr hreset] at hresetAt
  dsimp only at hresetAt
  by_cases hearly : n < 1 <<< 63
  · rw [if_pos hearly] at hresetAt
    exact (Except.ok.inj hresetAt).symm
  · rw [if_neg hearly] at hresetAt
    cases hresetAt

theorem resetAt_eq_some (h : ofHeaders now headers = .ok info) {t : Moment}
    (ht : info.resetAt = some t) : exists n, headers.AnnouncesReset n ∧ t = .ofSeconds n := by
  have hresetAt := (ofHeaders_eq_ok h).1
  rw [ht] at hresetAt
  unfold reset? at hresetAt
  cases hresets : Header.resets.findSome? (word? headers) with
  | none =>
    rw [hresets] at hresetAt
    cases hresetAt
  | some n =>
    have hreset := announcesReset_iff.mp hresets
    rw [resetAt_of_announcesReset h hreset] at ht
    exact ⟨n, hreset, (Option.some.inj ht).symm⟩

end RateLimit

namespace ApiError

variable {now : Moment} {response : HttpResponse} {e : ApiError}

theorem ofResponse_eq_ok (h : ofResponse now response = .ok e) :
    exists info, RateLimit.ofHeaders now response.headers = .ok info ∧
      forall advice, e.rateLimit = some advice -> advice = info := by
  unfold ofResponse at h
  cases hinfo : RateLimit.ofHeaders now response.headers with
  | error overflow =>
    rw [hinfo] at h
    cases h
  | ok info =>
    rw [hinfo] at h
    cases h
    refine ⟨info, rfl, ?_⟩
    intro advice hadvice
    dsimp only at hadvice
    split at hadvice
    · exact (Option.some.inj hadvice).symm
    · cases hadvice

theorem reports_of_ofResponse (h : ofResponse now response = .ok e) : e.Reports response := by
  rcases ofResponse_eq_ok h with ⟨info, hinfo, _⟩
  rcases reports_of_ofHeaders hinfo with ⟨decoded, hdecoded, hreports⟩
  rw [h] at hdecoded
  cases hdecoded
  exact hreports

theorem rateLimit_eq_some (h : ofResponse now response = .ok e)
    (hlimited : response.status.code = 429 ∨ response.headers.AsksToWait ∨
      response.headers.States Header.remaining 0) :
    exists info, RateLimit.ofHeaders now response.headers = .ok info ∧ e.rateLimit = some info := by
  rcases Option.isSome_iff_exists.mp ((reports_of_ofResponse h).rateLimit.mpr hlimited)
    with ⟨advice, hadvice⟩
  rcases ofResponse_eq_ok h with ⟨info, hinfo, honly⟩
  exact ⟨info, hinfo, honly advice hadvice ▸ hadvice⟩

theorem rateLimitDelay?_of_advises (h : ofResponse now response = .ok e) {wait : Nat}
    (hwait : response.Advises now wait) (longest : Duration) :
    exists delay, (Error.api e).rateLimitDelay? now longest = some delay ∧
      delay.nanos = min wait longest.nanos := by
  have hasked : forall {n}, RateLimit.retryAfter? now response.headers = some (.saturate n) ->
      response.headers.AsksToWait -> exists delay,
        (Error.api e).rateLimitDelay? now longest = some delay ∧
          delay.nanos = min n longest.nanos := by
    intro n hretry hasks
    rcases rateLimit_eq_some h (Or.inr (Or.inl hasks)) with ⟨info, hinfo, hkept⟩
    refine ⟨min (.saturate n) longest, ?_, Duration.nanos_min_saturate n longest⟩
    change e.rateLimit.bind (·.delay? now longest) = _
    rw [hkept, Option.bind_some]
    unfold RateLimit.delay?
    rw [(RateLimit.ofHeaders_eq_ok hinfo).2, hretry]
  cases hwait with
  | seconds hstates => exact hasked (RateLimit.retryAfter?_of_states hstates) (Or.inl ⟨_, hstates⟩)
  | date hunstated hread hdate =>
    exact hasked (RateLimit.retryAfter?_of_date hunstated hread hdate)
      (Or.inr ⟨_, _, hread, hdate⟩)
  | @window n hasks hlimited hreset hcoming =>
    rcases rateLimit_eq_some h (hlimited.imp_right Or.inr) with ⟨info, hinfo, hkept⟩
    refine ⟨min (.saturate (n * 1_000_000_000 - now.nanos)) longest, ?_,
      Duration.nanos_min_saturate _ longest⟩
    change e.rateLimit.bind (·.delay? now longest) = _
    rw [hkept, Option.bind_some]
    unfold RateLimit.delay?
    rw [(RateLimit.ofHeaders_eq_ok hinfo).2, RateLimit.retryAfter?_eq_none_iff.mpr hasks,
      RateLimit.resetAt_of_announcesReset hinfo hreset]
    exact congrArg (Option.map (min · longest)) (if_pos hcoming)

theorem advises_of_rateLimitDelay? (h : ofResponse now response = .ok e)
    {longest delay : Duration} (hdelay : (Error.api e).rateLimitDelay? now longest = some delay) :
    exists wait, response.Advises now wait := by
  rcases Option.bind_eq_some_iff.mp hdelay with ⟨info, hkept, hinfo⟩
  change e.rateLimit = some info at hkept
  have hlimited := (reports_of_ofResponse h).rateLimit.mp (by rw [hkept]; rfl)
  rcases rateLimit_eq_some h hlimited with ⟨advice, hadvice, hsame⟩
  rw [hkept] at hsame
  cases hsame
  by_cases hasks : response.headers.AsksToWait
  · by_cases hstated : exists n, response.headers.States Header.retryAfter n
    · rcases hstated with ⟨n, hstates⟩
      exact ⟨_, .seconds hstates⟩
    · rcases hasks with hstates | ⟨text, date, hread, hdate⟩
      · exact absurd hstates hstated
      · exact ⟨_, .date (fun n hn => hstated ⟨n, hn⟩) hread hdate⟩
  · unfold RateLimit.delay? at hinfo
    rw [(RateLimit.ofHeaders_eq_ok hadvice).2, RateLimit.retryAfter?_eq_none_iff.mpr hasks]
      at hinfo
    rcases Option.map_eq_some_iff.mp hinfo with ⟨left, hleft, _⟩
    rcases Option.bind_eq_some_iff.mp hleft with ⟨t, ht, hsince⟩
    rcases RateLimit.resetAt_eq_some hadvice ht with ⟨n, hreset, rfl⟩
    have hcoming : now.nanos ≤ n * 1_000_000_000 := by
      by_contra hpast
      rw [show Moment.since? (.ofSeconds n) now = none from if_neg hpast] at hsince
      cases hsince
    have hmarked := hlimited.imp_right fun hother => hother.resolve_left hasks
    exact ⟨_, .window hasks hmarked hreset hcoming⟩

end ApiError

def Error.CarriesAdvice (e : Error) (now : Moment) : Prop :=
  exists longest delay, e.rateLimitDelay? now longest = some delay

theorem ApiError.carriesAdvice_iff {now : Moment} {response : HttpResponse} {e : ApiError}
    (h : ofResponse now response = .ok e) :
    (Error.api e).CarriesAdvice now <-> exists wait, response.Advises now wait := by
  constructor
  · rintro ⟨longest, delay, hdelay⟩
    exact advises_of_rateLimitDelay? h hdelay
  · rintro ⟨wait, hwait⟩
    rcases rateLimitDelay?_of_advises h hwait .longest with ⟨delay, hdelay, _⟩
    exact ⟨.longest, delay, hdelay⟩

/-- The state but for the delay. -/
def RetryState.undelayed : RetryState -> RetryState
  | .backingOff n _ => .backingOff n .zero
  | state => state

theorem RetryState.attempt_undelayed (state : RetryState) :
    state.undelayed.attempt = state.attempt := by
  cases state <;> rfl

namespace Policy

variable {policy next p q p' q' : Policy} {step : Step} {steps : List Step}
  {answer other : RetryState} {now : Moment} {jitter : Jitter} {e : Error}

/-!
## The delay after a rejection
-/

theorem delayAfter_of_unadvised (h : ¬ e.CarriesAdvice now) :
    policy.delayAfter now e = id := by
  funext backoff
  have hnone : e.rateLimitDelay? now policy.rateLimit.maxWait = none := by
    rw [Option.eq_none_iff_forall_ne_some]
    intro delay hdelay
    exact h ⟨_, delay, hdelay⟩
  unfold delayAfter
  rw [hnone, Option.getD_none, ite_self]
  rfl

/-- The delay is the wait that the response advises, at most the longest one, or the delay of the
strategy if it advises none. -/
structure Heeds (policy : Policy) (now : Moment) (response : HttpResponse)
    (backoff delay : Duration) : Prop where
  advised : forall wait, response.Advises now wait ->
    delay.nanos = min wait policy.rateLimit.maxWait.nanos
  unadvised : (¬ exists wait, response.Advises now wait) -> delay = backoff
  bounded : delay.nanos ≤ max policy.rateLimit.maxWait.nanos backoff.nanos

theorem heeds_delayAfter {response : HttpResponse} {rejection : ApiError}
    (h : ApiError.ofResponse now response = .ok rejection)
    (henabled : policy.rateLimit.enabled = true) (backoff : Duration) :
    policy.Heeds now response backoff (policy.delayAfter now (.api rejection) backoff) := by
  have hadvised : forall wait, response.Advises now wait ->
      (policy.delayAfter now (.api rejection) backoff).nanos =
        min wait policy.rateLimit.maxWait.nanos := by
    intro wait hwait
    rcases ApiError.rateLimitDelay?_of_advises h hwait policy.rateLimit.maxWait
      with ⟨delay, hdelay, hnanos⟩
    unfold delayAfter
    rw [if_pos henabled, hdelay]
    exact hnanos
  have hunadvised : (¬ exists wait, response.Advises now wait) ->
      policy.delayAfter now (.api rejection) backoff = backoff := by
    intro hnone
    rw [delayAfter_of_unadvised fun hcarries =>
      hnone ((ApiError.carriesAdvice_iff h).mp hcarries)]
    rfl
  refine ⟨hadvised, hunadvised, ?_⟩
  by_cases hany : exists wait, response.Advises now wait
  · rcases hany with ⟨wait, hwait⟩
    rw [hadvised wait hwait]
    exact Nat.le_trans (Nat.min_le_right _ _) (Nat.le_max_left _ _)
  · rw [hunadvised hany]
    exact Nat.le_max_right _ _

/-!
## Two policies told the same
-/

def failureState (policy : Policy) (jitter : Jitter) (e : Error) (delay : Duration -> Duration) :
    RetryState :=
  if policy.retriesAllowed && policy.predicate e policy.attempt then
    match policy.strategy.delay? policy.attempt jitter with
    | none => .failedExhausted policy.attempt
    | some backoff => .backingOff policy.attempt (delay backoff)
  else .failedTerminal policy.attempt

theorem Recorded.state_eq (h : policy.Recorded now jitter e next) :
    next.state = policy.failureState jitter e (policy.delayAfter now e) := by
  unfold failureState
  cases h with
  | terminal hrejected =>
    rcases hrejected with hrejected | hrejected
    · rw [hrejected]
      rfl
    · rw [hrejected, Bool.and_false]
      rfl
  | exhausted hallowed hpredicate hnone =>
    rw [hallowed, hpredicate, Strategy.delay?_eq_none_iff.mpr hnone]
    rfl
  | backsOff hallowed hpredicate hbackoff helapsed =>
    rw [hallowed, hpredicate, hbackoff]
    rfl

theorem undelayed_failureState (policy : Policy) (jitter : Jitter) (e : Error)
    (delay : Duration -> Duration) :
    (policy.failureState jitter e delay).undelayed =
      policy.failureState jitter e fun _ => .zero := by
  unfold failureState
  cases policy.retriesAllowed && policy.predicate e policy.attempt with
  | false => rfl
  | true => cases policy.strategy.delay? policy.attempt jitter <;> rfl

theorem state_resume (policy : Policy) :
    policy.resume.state =
      match policy.state.undelayed with
      | .backingOff n _ => .attempting (n + 1)
      | state => state := by
  unfold resume
  cases hstate : policy.state with
  | backingOff n delay => rfl
  | attempting n => exact hstate
  | succeeded n => exact hstate
  | failedTerminal n => exact hstate
  | failedExhausted n => exact hstate

/-- Two policies that differ at most in how they follow advice and in the delay they wait for. -/
structure Alike (p q : Policy) : Prop where
  strategy : q.strategy = p.strategy
  predicate : q.predicate = p.predicate
  retriesAllowed : q.retriesAllowed = p.retriesAllowed
  state : q.state.undelayed = p.state.undelayed

theorem Alike.attempt_eq (h : p.Alike q) : q.attempt = p.attempt := by
  unfold attempt
  rw [← RetryState.attempt_undelayed q.state, h.state, RetryState.attempt_undelayed]

theorem Alike.failureState_eq (h : p.Alike q) (jitter : Jitter) (e : Error)
    (delay : Duration -> Duration) :
    q.failureState jitter e delay = p.failureState jitter e delay := by
  unfold failureState
  rw [h.strategy, h.predicate, h.retriesAllowed, h.attempt_eq]

def Step.CarriesAdvice : Step -> Prop
  | .failure now _ e => e.CarriesAdvice now
  | _ => False

/-- Two policies made the same step between the same states, apart from the delays.  The states
behind it are the same altogether unless it was a failure that carries advice. -/
structure Transition.Parallel (s t : Transition) : Prop where
  step : t.step = s.step
  before : t.before.undelayed = s.before.undelayed
  answer : t.answer.undelayed = s.answer.undelayed
  after : t.after.undelayed = s.after.undelayed
  unadvised : ¬ s.step.CarriesAdvice -> t.answer = s.answer ∧ t.after = s.after

theorem Alike.state_step (h : p.Alike q) (hp : p.step step = .ok (answer, p'))
    (hq : q.step step = .ok (other, q')) :
    q'.state.undelayed = p'.state.undelayed ∧
      (¬ step.CarriesAdvice -> q'.state = p'.state) := by
  cases step with
  | success =>
    cases hp
    cases hq
    have hstate : q.recordSuccess.state = p.recordSuccess.state :=
      congrArg RetryState.succeeded h.attempt_eq
    exact ⟨congrArg RetryState.undelayed hstate, fun _ => hstate⟩
  | failure now jitter e =>
    have hpstate := (recorded (step_failure hp).1).state_eq
    have hqstate := (recorded (step_failure hq).1).state_eq
    constructor
    · rw [hpstate, hqstate, undelayed_failureState, undelayed_failureState, h.failureState_eq]
    · intro hunadvised
      rw [hpstate, hqstate, delayAfter_of_unadvised hunadvised,
        delayAfter_of_unadvised hunadvised, h.failureState_eq]
  | resume =>
    cases hp
    cases hq
    have hstate : q.resume.state = p.resume.state := by
      rw [state_resume, state_resume, h.state]
    exact ⟨congrArg RetryState.undelayed hstate, fun _ => hstate⟩

theorem Alike.kept (h : p.Alike q) (hp : p.step step = .ok (answer, p'))
    (hq : q.step step = .ok (other, q')) :
    p'.Alike q' ∧ Transition.Parallel ⟨p.state, step, answer, p'.state⟩
      ⟨q.state, step, other, q'.state⟩ := by
  have hpsame := sameRules_step hp
  have hqsame := sameRules_step hq
  rcases h.state_step hp hq with ⟨hundelayed, hunadvised⟩
  rw [answer_eq hp, answer_eq hq]
  constructor
  · constructor
    · rw [hqsame.strategy, hpsame.strategy, h.strategy]
    · rw [hqsame.predicate, hpsame.predicate, h.predicate]
    · rw [hqsame.retriesAllowed, hpsame.retriesAllowed, h.retriesAllowed]
    · exact hundelayed
  · constructor
    · rfl
    · exact h.state
    · exact hundelayed
    · exact hundelayed
    · intro hstep
      exact ⟨hunadvised hstep, hunadvised hstep⟩

theorem Alike.run {made others : List Transition} (h : p.Alike q)
    (hp : p.run steps = .ok (made, p')) (hq : q.run steps = .ok (others, q')) :
    p'.Alike q' ∧ List.Forall₂ Transition.Parallel made others := by
  induction steps generalizing p q made others with
  | nil =>
    cases hp
    cases hq
    exact ⟨h, .nil⟩
  | cons step rest ih =>
    rcases run_cons hp with ⟨answer, pnext, pmore, hpstep, hprest, rfl⟩
    rcases run_cons hq with ⟨other, qnext, qmore, hqstep, hqrest, rfl⟩
    rcases h.kept hpstep hqstep with ⟨hnext, hparallel⟩
    rcases ih hnext hprest hqrest with ⟨hlast, hmore⟩
    exact ⟨hlast, .cons hparallel hmore⟩

theorem alike_start (strategy : Strategy) (predicate : Predicate)
    (first second : RateLimit.Config) (retriesAllowed : Bool) :
    (start strategy predicate first retriesAllowed).Alike
      (start strategy predicate second retriesAllowed) :=
  ⟨rfl, rfl, rfl, rfl⟩

/-- Advice takes the place of the wait and of nothing else.  After a rejection the wait is the one
that the response advises, at most the longest one, or else the strategy's own; and two policies
that follow advice differently go through the same states with the same attempts, whatever steps
they make, and differ at most in the delays after failures that carry advice. -/
theorem advice_replaces_the_wait_alone :
    (forall (now : Moment) (response : HttpResponse),
      (forall seconds, response.headers.AnnouncesReset seconds -> seconds < 1 <<< 63) ->
      exists rejection, ApiError.ofResponse now response = .ok rejection ∧
        ((Error.api rejection).CarriesAdvice now <-> exists wait, response.Advises now wait) ∧
        forall (policy next : Policy) (jitter : Jitter) (n : Nat) (delay : Duration),
          policy.strategy.hasJitter = false -> policy.rateLimit.enabled = true ->
          policy.recordFailure now jitter (.api rejection) = .ok next ->
          next.state = .backingOff n delay ->
          n = policy.attempt ∧
            exists backoff, policy.strategy.nominal? policy.attempt = some backoff ∧
            policy.Heeds now response backoff delay) ∧
    (forall (strategy : Strategy) (predicate : Predicate) (first second : RateLimit.Config)
      (retriesAllowed : Bool) (steps : List Step),
      ¬ (start strategy predicate first retriesAllowed).Overruns steps ->
      ¬ (start strategy predicate second retriesAllowed).Overruns steps ->
      exists made last others other,
        (start strategy predicate first retriesAllowed).run steps = .ok (made, last) ∧
        (start strategy predicate second retriesAllowed).run steps = .ok (others, other) ∧
        last.Alike other ∧ List.Forall₂ Transition.Parallel made others) := by
  constructor
  · intro now response hclock
    rcases RateLimit.ofHeaders_cases now response.headers with
      ⟨⟨info, hinfo⟩, _⟩ | ⟨_, seconds, hreset, hlate⟩
    · rcases ApiError.reports_of_ofHeaders hinfo with ⟨rejection, hrejection, _⟩
      refine ⟨rejection, hrejection, ApiError.carriesAdvice_iff hrejection, ?_⟩
      intro policy next jitter n delay hjitter henabled hrecord hstate
      cases recorded hrecord with
      | terminal hrejected => cases hstate
      | exhausted hallowed hpredicate hnone => cases hstate
      | backsOff hallowed hpredicate hbackoff helapsed =>
        cases hstate
        refine ⟨rfl, _, ?_, heeds_delayAfter hrejection henabled _⟩
        rw [Strategy.delay?_of_unjittered hjitter] at hbackoff
        exact hbackoff
    · exact absurd (hclock seconds hreset) (Nat.not_lt_of_le hlate)
  · intro strategy predicate first second retriesAllowed steps hfirst hsecond
    rcases exists_run_iff.mpr hfirst with ⟨made, last, hmade⟩
    rcases exists_run_iff.mpr hsecond with ⟨others, other, hothers⟩
    rcases (alike_start strategy predicate first second retriesAllowed).run hmade hothers
      with ⟨halike, hparallel⟩
    exact ⟨made, last, others, other, hmade, hothers, halike, hparallel⟩

end Policy

namespace Sample

/-- Too many requests: the next one is welcome after seven seconds, although the window lasts for a
hundred. -/
def limited : HttpResponse :=
  { done with
    status := ⟨429, by decide, by decide⟩
    headers := ⟨[(⟨"ratelimit-reset"⟩, ⟨"100"⟩), (⟨"retry-after"⟩, ⟨"7"⟩)]⟩ }

def limitation : ApiError :=
  { status := limited.status, errors := [⟨none, "Too Many Requests"⟩], rawResponse := ""
    headers := limited.headers
    rateLimit := some ⟨some (.ofSeconds 100), some (.ofSeconds 7), none⟩ }

def advised (rateLimit : RateLimit.Config) : Policy :=
  .start client.strategy client.predicate rateLimit true

/-- The call waits for seven seconds where the strategy would wait for five milliseconds, and it
makes as many attempts as without the advice. -/
theorem limited_call_waits_as_advised :
    (forall seconds, limited.headers.AnnouncesReset seconds -> seconds < 1 <<< 63) ∧
      (exists next delay,
        (advised .default).recordFailure ⟨0⟩ .whole (.api limitation) = .ok next ∧
          next.state = .backingOff 1 delay ∧ delay = .ofSeconds 7 ∧
          (advised .default).Heeds ⟨0⟩ limited (.ofMillis 5) delay) ∧
      exists made last others other,
        (advised .default).run [.failure ⟨0⟩ .whole (.api limitation), .resume, .success] =
            .ok (made, last) ∧
          (advised .disabled).run [.failure ⟨0⟩ .whole (.api limitation), .resume, .success] =
            .ok (others, other) ∧
          last.Alike other ∧ List.Forall₂ Policy.Transition.Parallel made others := by
  have hreset : Header.resets.findSome? (RateLimit.word? limited.headers) = some 100 := by
    decide +kernel
  have hclock : forall seconds, limited.headers.AnnouncesReset seconds -> seconds < 1 <<< 63 := by
    intro seconds hseconds
    rw [RateLimit.announcesReset_iff.mpr hseconds] at hreset
    cases hreset
    decide
  have hlimitation : ApiError.ofResponse ⟨0⟩ limited = .ok limitation := by decide +kernel
  refine ⟨hclock, ?_, ?_⟩
  · rcases Policy.advice_replaces_the_wait_alone.1 ⟨0⟩ limited hclock with
      ⟨rejection, hrejection, _, hheeds⟩
    rw [hlimitation] at hrejection
    cases hrejection
    refine ⟨_, _, rfl, rfl, rfl, ?_⟩
    rcases hheeds (advised .default) _ .whole 1 _ rfl rfl rfl rfl with
      ⟨_, backoff, hbackoff, hdelay⟩
    cases hbackoff
    exact hdelay
  · exact Policy.advice_replaces_the_wait_alone.2 client.strategy client.predicate .default
      .disabled true _ (Policy.not_overruns_of_run rfl) (Policy.not_overruns_of_run rfl)

end Sample
end RestClient
