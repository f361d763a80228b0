import RestClient.Proofs.UnderWay
import RestClient.Sample

/-!
# Deadlines

A call with a deadline does the same as the call without it, step by step, until the deadline
cuts it off.
-/

namespace RestClient

variable {σ α β γ : Type} {H : Nat} {w w' w₁ w₂ : World σ}

theorem Duration.ticks_ofMillis {millis : Nat} (h : millis ≤ lastTick) :
    (ofMillis millis).ticks = millis := by
  have hbound : bound = 18446744073709551616000000000 := rfl
  have hlast : lastTick = 18446744073709551613 := rfl
  have hnanos : (ofMillis millis).nanos = millis * 1_000_000 := by
    unfold ofMillis
    rw [nanos_saturate]
    omega
  unfold ticks Duration.millis
  rw [hnanos, if_pos (Nat.mul_mod_left millis 1_000_000)]
  exact Nat.mul_div_cancel millis (by decide)

/-!
## What a client did
-/

/-- Everything but the cancellations is done by the client itself. -/
def Entry.isOwn (entry : Entry) : Bool :=
  match entry.deed with
  | .canceled _ => false
  | _ => true

namespace World

def doneSince (w w' : World σ) : List Entry :=
  (w'.history.drop w.history.length).filter Entry.isOwn

theorem doneSince_of_history {new : List Entry} (h : w'.history = w.history ++ new) :
    w.doneSince w' = new.filter Entry.isOwn := by
  unfold doneSince
  rw [h, List.drop_left]

theorem doneSince_self (w : World σ) : w.doneSince w = [] :=
  doneSince_of_history (List.append_nil _).symm

theorem doneSince_advance (w : World σ) (time : Nat) : w.doneSince (w.advance time) = [] := by
  have hdone : w.doneSince (w.advance time) = _ := doneSince_of_history rfl
  rw [hdone]
  apply List.filter_eq_nil_iff.mpr
  intro entry hentry
  rcases List.mem_map.mp hentry with ⟨due, _, rfl⟩
  simp [Entry.isOwn]

theorem doneSince_report (w : World σ) (event : Event) :
    w.doneSince (w.report event) = [⟨w.now, .reported event⟩] := by
  have hdone : w.doneSince (w.report event) = _ := doneSince_of_history rfl
  rw [hdone]
  rfl

theorem doneSince_trans (h₁ : Later w w₁) (h₂ : Later w₁ w₂) :
    w.doneSince w₂ = w.doneSince w₁ ++ w₁.doneSince w₂ := by
  rcases h₁.history with ⟨first, hfirst, _⟩
  rcases h₂.history with ⟨second, hsecond, _⟩
  have hboth : w₂.history = w.history ++ (first ++ second) := by
    rw [hsecond, hfirst, List.append_assoc]
  rw [doneSince_of_history hfirst, doneSince_of_history hsecond, doneSince_of_history hboth,
    List.filter_append]

theorem filterMap_history {f : Entry -> Option γ}
    (hf : forall entry : Entry, entry.isOwn = false -> f entry = none) (h : Later w w') :
    w'.history.filterMap f = w.history.filterMap f ++ (w.doneSince w').filterMap f := by
  rcases h.history with ⟨new, hnew, _⟩
  have hown : (new.filter Entry.isOwn).filterMap f = new.filterMap f := by
    rw [List.filterMap_filter]
    apply List.filterMap_congr
    intro entry _
    cases howner : entry.isOwn with
    | true => rfl
    | false => exact (hf entry howner).symm
  rw [doneSince_of_history hnew, hown, hnew, List.filterMap_append]

theorem requests_eq_append (h : Later w w') :
    w'.requests = w.requests ++ (w.doneSince w').filterMap Entry.request? := by
  apply filterMap_history _ h
  rintro ⟨time, deed⟩ hown
  cases deed with
  | canceled => rfl
  | sent | paused | reported => cases hown

theorem delays_eq_append (h : Later w w') :
    w'.delays = w.delays ++ (w.doneSince w').filterMap Entry.delay? := by
  apply filterMap_history _ h
  rintro ⟨time, deed⟩ hown
  cases deed with
  | canceled => rfl
  | sent | paused | reported => cases hown

theorem time_of_mem_doneSince (h : Later w w') {entry : Entry}
    (hentry : entry ∈ w.doneSince w') : w.now ≤ entry.time ∧ entry.time ≤ w'.now := by
  rcases h.history with ⟨new, hnew, htimes⟩
  rw [doneSince_of_history hnew] at hentry
  exact htimes entry (List.mem_filter.mp hentry).1

/-!
## Runs that are cut off
-/

/-- From the same world, one run went on to the second world and the other one was cut off in the
third. -/
structure Cut (H : Nat) (w w₁ w₂ : World σ) : Prop where
  free : Later w w₁
  cut : Later w w₂
  now : w₂.now = H
  done : (forall entry, entry ∈ w.doneSince w₁ -> entry.time ≠ H) ->
    w.doneSince w₂ = (w.doneSince w₁).filter fun entry => entry.time < H

/-- A run is over before the horizon, or the horizon cuts it off. -/
inductive CutBy (halted : Halt -> β) (H : Nat) (w : World σ) :
    β × World σ -> β × World σ -> Prop where
  | same {result : β} {w₁ : World σ} (hlater : Later w w₁) (hnow : w₁.now ≤ H)
      (hpending : result ≠ halted .pending) (hexpired : result ≠ halted .expired) :
      CutBy halted H w (result, w₁) (result, w₁)
  | late {result : β} {w₁ w₂ : World σ} (hlate : result = halted .pending ∨ H ≤ w₁.now)
      (hcut : Cut H w w₁ w₂) : CutBy halted H w (result, w₁) (halted .expired, w₂)

theorem filter_doneSince_eq_self (h : Later w w₁) (hnow : w₁.now ≤ H)
    (hties : forall entry, entry ∈ w.doneSince w₁ -> entry.time ≠ H) :
    (w.doneSince w₁).filter (fun entry => entry.time < H) = w.doneSince w₁ := by
  apply List.filter_eq_self.mpr
  intro entry hentry
  have hle := (time_of_mem_doneSince h hentry).2
  have hne := hties entry hentry
  simpa using Nat.lt_of_le_of_ne (Nat.le_trans hle hnow) hne

theorem filter_doneSince_eq_nil (h : Later w w₁) (hnow : H ≤ w.now) :
    (w.doneSince w₁).filter (fun entry => entry.time < H) = [] := by
  apply List.filter_eq_nil_iff.mpr
  intro entry hentry
  have hle := (time_of_mem_doneSince h hentry).1
  simpa using Nat.le_trans hnow hle

theorem Cut.of_later {free cut : World σ} (h : Later w w₁) (hnow : w₁.now ≤ H)
    (hcut : Cut H w₁ free cut) : Cut H w free cut := by
  refine ⟨h.trans hcut.free, h.trans hcut.cut, hcut.now, ?_⟩
  rw [doneSince_trans h hcut.free, doneSince_trans h hcut.cut, List.filter_append]
  intro hties
  rw [filter_doneSince_eq_self h hnow fun entry hentry =>
      hties entry (List.mem_append_left _ hentry),
    hcut.done fun entry hentry => hties entry (List.mem_append_right _ hentry)]

theorem Cut.trans_later {free free' cut : World σ} (hcut : Cut H w free cut)
    (hnow : H ≤ free.now) (h : Later free free') : Cut H w free' cut := by
  refine ⟨hcut.free.trans h, hcut.cut, hcut.now, ?_⟩
  rw [doneSince_trans hcut.free h, List.filter_append, filter_doneSince_eq_nil h hnow,
    List.append_nil]
  exact fun hties => hcut.done fun entry hentry => hties entry (List.mem_append_left _ hentry)

variable {halted : Halt -> β} {halted' : Halt -> γ}

theorem CutBy.of_later {free cut : β × World σ} (h : Later w w₁) (hnow : w₁.now ≤ H)
    (hcut : CutBy halted H w₁ free cut) : CutBy halted H w free cut := by
  cases hcut with
  | same hlater hbound hpending hexpired =>
    exact CutBy.same (h.trans hlater) hbound hpending hexpired
  | late hlate hcut => exact CutBy.late hlate (hcut.of_later h hnow)

theorem CutBy.bind {free cut : β × World σ} (h : CutBy halted H w free cut)
    {kfree kcut : β -> World σ -> γ × World σ}
    (hpending : forall w₁, kfree (halted .pending) w₁ = (halted' .pending, w₁))
    (hexpired : forall w₁, kcut (halted .expired) w₁ = (halted' .expired, w₁))
    (hstep : forall result w₁, result ≠ halted .pending -> result ≠ halted .expired -> w₁.now ≤ H ->
      CutBy halted' H w₁ (kfree result w₁) (kcut result w₁))
    (hlater : forall result w₁, Later w₁ (kfree result w₁).2) :
    CutBy halted' H w (kfree free.1 free.2) (kcut cut.1 cut.2) := by
  cases h with
  | same hbefore hnow hne hne' => exact (hstep _ _ hne hne' hnow).of_later hbefore hnow
  | @late result w₁ w₂ hlate hcut =>
    rw [hexpired]
    rcases hlate with rfl | hlate
    · rw [hpending]
      exact CutBy.late (Or.inl rfl) hcut
    · have hrest := hlater result w₁
      rcases hfree : kfree result w₁ with ⟨result', w₃⟩
      rw [hfree] at hrest
      exact CutBy.late (Or.inr (Nat.le_trans hlate hrest.now_le))
        (hcut.trans_later hlate hrest)

theorem CutBy.cut_eq {result : β} {cut : β × World σ} (h : CutBy halted H w (result, w₁) cut)
    (hpending : result ≠ halted .pending) (hbefore : w₁.now < H) :
    cut = (result, w₁) ∧ result ≠ halted .expired := by
  cases h with
  | same _ _ _ hexpired => exact ⟨rfl, hexpired⟩
  | late hlate _ =>
    rcases hlate with hlate | hlate
    · exact absurd hlate hpending
    · omega

theorem CutBy.exists_cut {result : β} {cut : β × World σ} (h : CutBy halted H w (result, w₁) cut)
    (hlate : result = halted .pending ∨ H < w₁.now) :
    exists w₂, cut = (halted .expired, w₂) ∧ Cut H w w₁ w₂ := by
  cases h with
  | same _ hnow hpending _ =>
    rcases hlate with hlate | hlate
    · exact absurd hlate hpending
    · omega
  | @late _ _ w₂ _ hcut => exact ⟨w₂, rfl, hcut⟩

/-!
## Waiting
-/

inductive WaitCut (H : Nat) (w : World σ) : Waking × World σ -> Waking × World σ -> Prop where
  | same {waking : Waking} {time : Nat} (hwaking : waking = .reached ∨ waking = .canceled)
      (htime : time ≤ H) : WaitCut H w (waking, w.advance time) (waking, w.advance time)
  | due : WaitCut H w (.reached, w) (.reached, w)
  | never : WaitCut H w (.never, w) (.expired, w.advance H)
  | late {waking : Waking} {time : Nat} (hwaking : waking = .reached ∨ waking = .canceled)
      (htime : H ≤ time) : WaitCut H w (waking, w.advance time) (.expired, w.advance H)

theorem waitCut_settle (H : Nat) (w : World σ) (target : Option Nat) :
    WaitCut H w (wait.settle w none target) (wait.settle w (some H) target) := by
  unfold wait.settle
  cases target with
  | none => exact WaitCut.never
  | some target =>
    dsimp only
    by_cases h : target ≤ H
    · rw [if_pos h]
      exact WaitCut.same (Or.inl rfl) h
    · rw [if_neg h]
      exact WaitCut.late (Or.inl rfl) (Nat.le_of_not_le h)

theorem settle_of_before {time : Nat} {target : Option Nat} (hbefore : before time target = true)
    (htime : H ≤ time) (w : World σ) :
    wait.settle w (some H) target = (.expired, w.advance H) := by
  unfold wait.settle
  cases target with
  | none => rfl
  | some target =>
    have hlt : time < target := by simpa [before] using hbefore
    exact if_neg (by omega)

theorem waitCut_wait (H : Nat) (w : World σ) (token : Option Token) (target : Option Nat) :
    WaitCut H w (w.wait token none target) (w.wait token (some H) target) := by
  unfold wait
  by_cases hdue : target.any (· ≤ w.now) = true
  · rw [if_pos hdue, if_pos hdue]
    exact WaitCut.due
  · rw [if_neg hdue, if_neg hdue]
    cases (w.cancelTime? token).map (max w.now) with
    | none => exact waitCut_settle H w target
    | some time =>
      dsimp only
      cases hfirst : before time target with
      | false =>
        rw [Bool.false_and, Bool.false_and, if_neg Bool.false_ne_true]
        exact waitCut_settle H w target
      | true =>
        rw [Bool.true_and, Bool.true_and, show before time none = true from rfl, if_pos rfl]
        by_cases htime : time < H
        · rw [if_pos (by simpa [before] using htime)]
          exact WaitCut.same (Or.inr rfl) (Nat.le_of_lt htime)
        · rw [if_neg (by simpa [before] using htime),
            settle_of_before hfirst (Nat.le_of_not_lt htime)]
          exact WaitCut.late (Or.inr rfl) (Nat.le_of_not_lt htime)

end World

/-!
## Attempts
-/

namespace Client

open World (CutBy Later)

variable {client : Client}

theorem later_report (w : World σ) (event : Event) : Later w (w.report event) :=
  World.later_of_history_eq_concat rfl rfl

theorem cut_advance (hnow : w.now ≤ H) (h : Later w w₁)
    (hdone : forall entry, entry ∈ w.doneSince w₁ -> H ≤ entry.time) :
    World.Cut H w w₁ (w.advance H) := by
  refine ⟨h, World.later_advance w H, Nat.max_eq_right hnow, ?_⟩
  intro _
  rw [World.doneSince_advance, eq_comm]
  apply List.filter_eq_nil_iff.mpr
  intro entry hentry
  simpa using hdone entry hentry

theorem wait_cut (hnow : w.now ≤ H) (target : Option Nat) :
    CutBy .error H w (client.wait none target w) (client.wait (some H) target w) := by
  have hcut := World.waitCut_wait H w client.cancel target
  have hcanceled : forall time, Later w ((w.advance time).report .canceled) :=
    fun time => (World.later_advance w time).trans (later_report _ _)
  unfold wait
  rcases hfree : w.wait client.cancel none target with ⟨waking, w₁⟩
  rcases hother : w.wait client.cancel (some H) target with ⟨waking', w₂⟩
  rw [hfree, hother] at hcut
  cases hcut with
  | @same _ time hwaking htime =>
    have hle : max w.now time ≤ H := Nat.max_le.mpr ⟨hnow, htime⟩
    rcases hwaking with rfl | rfl
    · exact CutBy.same (World.later_advance w time) hle (by simp) (by simp)
    · exact CutBy.same (hcanceled time) hle (by simp) (by simp)
  | due => exact CutBy.same (Later.refl w) hnow (by simp) (by simp)
  | never =>
    refine CutBy.late (Or.inl rfl) (cut_advance hnow (Later.refl w) ?_)
    rw [World.doneSince_self]
    intro entry hentry
    cases hentry
  | @late _ time hwaking htime =>
    have hle : H ≤ max w.now time := Nat.le_trans htime (Nat.le_max_right _ _)
    rcases hwaking with rfl | rfl
    · refine CutBy.late (Or.inr hle) (cut_advance hnow (World.later_advance w time) ?_)
      rw [World.doneSince_advance]
      intro entry hentry
      cases hentry
    · refine CutBy.late (Or.inr hle) (cut_advance hnow (hcanceled time) ?_)
      rw [World.doneSince_trans (World.later_advance w time) (later_report _ _),
        World.doneSince_advance, World.doneSince_report]
      intro entry hentry
      rw [List.mem_singleton.mp hentry]
      exact hle

def proceed (halted : Halt -> β) (next : γ -> World σ -> β × World σ) :
    Except Halt γ -> World σ -> β × World σ
  | .error halt, w => (halted halt, w)
  | .ok a, w => next a w

theorem cut_proceed {halted : Halt -> β} (hhalted : Function.Injective halted)
    {free cut : Except Halt γ × World σ} (h : CutBy .error H w free cut)
    {nextFree nextCut : γ -> World σ -> β × World σ}
    (hnext : forall a w₁, w₁.now ≤ H -> CutBy halted H w₁ (nextFree a w₁) (nextCut a w₁))
    (hlater : forall a w₁, Later w₁ (nextFree a w₁).2) :
    CutBy halted H w (proceed halted nextFree free.1 free.2)
      (proceed halted nextCut cut.1 cut.2) := by
  refine h.bind (fun _ => rfl) (fun _ => rfl) ?_ ?_
  · intro result w₁ hpending hexpired hnow
    cases result with
    | ok a => exact hnext a w₁ hnow
    | error halt =>
      refine CutBy.same (Later.refl w₁) hnow ?_ ?_
      · exact fun heq => hpending (congrArg Except.error (hhalted heq))
      · exact fun heq => hexpired (congrArg Except.error (hhalted heq))
  · intro result w₁
    cases result with
    | ok a => exact hlater a w₁
    | error halt => exact Later.refl w₁

theorem injective_error : Function.Injective (Except.error : Halt -> Except Halt γ) :=
  fun _ _ h => Except.error.inj h

theorem awaitTimeout_cut (hnow : w.now ≤ H) (limit : Option Nat) :
    CutBy .error H w (client.awaitTimeout none limit w)
      (client.awaitTimeout (some H) limit w) := by
  have heq : forall horizon, client.awaitTimeout horizon limit w =
      proceed .error (fun _ w₁ => (.ok (.error .timeout), w₁)) (client.wait horizon limit w).1
        (client.wait horizon limit w).2 := by
    intro horizon
    unfold awaitTimeout
    rcases client.wait horizon limit w with ⟨halt | _, w₁⟩ <;> rfl
  rw [heq, heq]
  refine cut_proceed injective_error (wait_cut hnow limit) ?_ ?_
  · exact fun _ w₁ hle => CutBy.same (Later.refl w₁) hle (by simp) (by simp)
  · exact fun _ w₁ => Later.refl w₁

theorem deliver_cut (hnow : w.now ≤ H) (limit : Option Nat) (reply : Reply) :
    CutBy .error H w (client.deliver none limit reply w)
      (client.deliver (some H) limit reply w) := by
  unfold deliver
  cases reply.outcome with
  | some outcome => exact CutBy.same (Later.refl w) hnow (by simp) (by simp)
  | none => exact awaitTimeout_cut hnow limit

theorem now_arrive (w : World σ) (reply : Reply) : (w.arrive reply).now = w.now := by
  unfold World.arrive
  cases reply.cancels <;> rfl

theorem receive_cut (hnow : w.now ≤ H) (reply : Reply) :
    CutBy .error H w (client.receive none reply w) (client.receive (some H) reply w) := by
  by_cases hlimit : (client.limit w).all (w.now + reply.wait.ticks ≤ ·) = true
  · have heq : forall horizon, client.receive horizon reply w =
        proceed .error (fun _ w₁ => client.deliver horizon (client.limit w) reply (w₁.arrive reply))
          (client.wait horizon (some (w.now + reply.wait.ticks)) w).1
          (client.wait horizon (some (w.now + reply.wait.ticks)) w).2 := by
      intro horizon
      unfold receive
      dsimp only
      rw [if_pos hlimit]
      rcases client.wait horizon (some (w.now + reply.wait.ticks)) w with ⟨halt | _, w₁⟩ <;> rfl
    rw [heq, heq]
    refine cut_proceed injective_error (wait_cut hnow _) ?_ ?_
    · intro _ w₁ hle
      have hle' : (w₁.arrive reply).now ≤ H := Nat.le_trans (Nat.le_of_eq (now_arrive w₁ reply)) hle
      exact (deliver_cut hle' (client.limit w) reply).of_later (w₁.drifts_arrive reply).later hle'
    · exact fun _ w₁ => (w₁.drifts_arrive reply).later.trans
        (client.drifts_deliver none (client.limit w) reply _).later
  · have heq : forall horizon, client.receive horizon reply w =
        client.awaitTimeout horizon (client.limit w) w := by
      intro horizon
      unfold receive
      exact if_neg hlimit
    rw [heq, heq]
    exact awaitTimeout_cut hnow _

theorem exchange_cut [Transport σ] (client : Client) (hnow : w.now ≤ H) (request : HttpRequest)
    (attempt : Nat) :
    CutBy .error H w (client.exchange none request attempt w)
      (client.exchange (some H) request attempt w) := by
  cases hcanceled : w.isCanceled client.cancel with
  | true =>
    rw [exchange_of_canceled hcanceled, exchange_of_canceled hcanceled]
    exact CutBy.same (later_report w _) hnow (by simp) (by simp)
  | false =>
    rw [exchange_of_open hcanceled, exchange_of_open hcanceled]
    have hsent : ((w.report (.executing request.method request.url attempt)).send
      request).2.now ≤ H := hnow
    have hlater : Later w ((w.report (.executing request.method request.url attempt)).send
        request).2 :=
      (later_report w (.executing request.method request.url attempt)).trans
        (World.later_of_history_eq_concat rfl rfl)
    exact (receive_cut hsent _).of_later hlater hsent

theorem pause_cut (hnow : w.now ≤ H) (delay : Duration) :
    CutBy .error H w (client.pause none delay w) (client.pause (some H) delay w) := by
  have hpaused : Later w (w.note (.paused delay)) := World.later_of_history_eq_concat rfl rfl
  have hnow' : (w.note (.paused delay)).now ≤ H := hnow
  unfold pause
  dsimp only
  by_cases hcanceled : (w.note (.paused delay)).isCanceled client.cancel = true
  · rw [if_pos hcanceled, if_pos hcanceled]
    exact CutBy.same (hpaused.trans (later_report _ _)) hnow (by simp) (by simp)
  · rw [if_neg hcanceled, if_neg hcanceled]
    cases client.sleeper with
    | skip => exact CutBy.same hpaused hnow (by simp) (by simp)
    | timer => exact (wait_cut hnow' _).of_later hpaused hnow'

theorem injective_ended :
    Function.Injective (fun halt : Halt => (.ended (.error halt) : Progress α)) := by
  intro halt halt' h
  cases h
  rfl

/-- A failure ends the call at once, or it only depends on the pause when another attempt
follows. -/
theorem afterFailure_cases (client : Client) (path : String) (method : Method) (policy : Policy)
    (e : Error) (w : World σ) :
    exists w₁, Later w w₁ ∧ w₁.now = w.now ∧
      ((exists halt, halt ≠ .pending ∧ halt ≠ .expired ∧ forall horizon,
          client.afterFailure path horizon method policy e w =
            ((.ended (.error halt), w₁) : Progress α × World σ)) ∨
        exists delay next, forall horizon, client.afterFailure path horizon method policy e w =
          (proceed (fun halt => .ended (.error halt)) (fun _ w₂ => (.again next, w₂))
            (client.pause horizon delay w₁).1 (client.pause horizon delay w₁).2 :
              Progress α × World σ)) := by
  have hfailed := later_report w (.failed e policy.attempt method path)
  unfold afterFailure
  dsimp only
  cases policy.recordFailure _ _ e with
  | error overflow =>
    exact ⟨_, hfailed, rfl, Or.inl ⟨_, by simp, by simp, fun _ => rfl⟩⟩
  | ok next =>
    dsimp only
    cases next.state with
    | backingOff attempt delay =>
      refine ⟨(w.report (.failed e policy.attempt method path)).report
        (.retrying delay policy.attempt e.rateLimit?.isSome),
        hfailed.trans (later_report _ _), rfl, Or.inr ⟨delay, next.resume, ?_⟩⟩
      intro horizon
      dsimp only
      rcases client.pause horizon delay _ with ⟨halt | _, w₂⟩ <;> rfl
    | failedExhausted made =>
      exact ⟨_, hfailed.trans (later_report _ _), rfl,
        Or.inl ⟨_, by simp, by simp, fun _ => rfl⟩⟩
    | attempting attempt =>
      exact ⟨_, hfailed, rfl, Or.inl ⟨_, by simp, by simp, fun _ => rfl⟩⟩
    | succeeded attempts =>
      exact ⟨_, hfailed, rfl, Or.inl ⟨_, by simp, by simp, fun _ => rfl⟩⟩
    | failedTerminal attempts =>
      exact ⟨_, hfailed, rfl, Or.inl ⟨_, by simp, by simp, fun _ => rfl⟩⟩

theorem afterFailure_cut (hnow : w.now ≤ H) (path : String) (method : Method) (policy : Policy)
    (e : Error) :
    CutBy (fun halt => (.ended (.error halt) : Progress α)) H w
      (client.afterFailure path none method policy e w)
      (client.afterFailure path (some H) method policy e w) := by
  rcases client.afterFailure_cases (α := α) path method policy e w
    with ⟨w₁, hlater, hsame, ⟨halt, hpending, hexpired, hafter⟩ | ⟨delay, next, hafter⟩⟩
  · rw [hafter, hafter]
    exact CutBy.same hlater (hsame ▸ hnow) (fun h => hpending (injective_ended h))
      (fun h => hexpired (injective_ended h))
  · have hnow' : w₁.now ≤ H := hsame ▸ hnow
    rw [hafter, hafter]
    refine CutBy.of_later hlater hnow'
      (cut_proceed injective_ended (pause_cut hnow' delay) ?_ ?_)
    · exact fun _ w₂ hle => CutBy.same (Later.refl w₂) hle (by simp) (by simp)
    · exact fun _ w₂ => Later.refl w₂

variable [Json.Decode α]

def judged (client : Client) (path : String) (horizon : Option Nat) (method : Method)
    (policy : Policy) (outcome : Except TransportFault HttpResponse) (w : World σ) :
    Progress α × World σ :=
  match judge w.clock policy.attempt outcome with
  | .error overflow => (.ended (.error (.overflow overflow)), w)
  | .ok verdict => client.conclude path horizon method policy verdict w

theorem judged_cut (hnow : w.now ≤ H) (path : String) (method : Method) (policy : Policy)
    (outcome : Except TransportFault HttpResponse) :
    CutBy (fun halt => (.ended (.error halt) : Progress α)) H w
      (client.judged path none method policy outcome w)
      (client.judged path (some H) method policy outcome w) := by
  unfold judged
  cases hjudge : (judge w.clock policy.attempt outcome : Except Overflow (Verdict α)) with
  | error overflow => exact CutBy.same (Later.refl w) hnow (by simp) (by simp)
  | ok verdict =>
    have hreported : Later w (w.reportAll verdict.events) := (drifts_verdict hjudge w).later
    dsimp only
    unfold conclude
    cases verdict.result with
    | ok response => exact CutBy.same hreported hnow (by simp) (by simp)
    | error e =>
      have hnow' : (w.reportAll verdict.events).now ≤ H := hnow
      exact (afterFailure_cut hnow' path method policy e).of_later hreported hnow'

theorem later_judged (client : Client) (path : String) (horizon : Option Nat) (method : Method)
    (policy : Policy) (outcome : Except TransportFault HttpResponse) (w : World σ) :
    Later w (client.judged path horizon method policy outcome w : Progress α × World σ).2 := by
  unfold judged
  cases hjudge : (judge w.clock policy.attempt outcome : Except Overflow (Verdict α)) with
  | error overflow => exact Later.refl w
  | ok verdict => exact (moves_conclude hjudge client path horizon method policy w).later

variable [Transport σ]

theorem attempt_eq_proceed (client : Client) (path : String) (horizon : Option Nat)
    (request : HttpRequest) (policy : Policy) (w : World σ) :
    client.attempt path horizon request policy w =
      (proceed (fun halt => .ended (.error halt))
        (client.judged path horizon request.method policy)
        (client.exchange horizon request policy.attempt w).1
        (client.exchange horizon request policy.attempt w).2 : Progress α × World σ) := by
  unfold attempt
  rcases client.exchange horizon request policy.attempt w with ⟨halt | outcome, w₁⟩ <;> rfl

theorem attempt_cut (hnow : w.now ≤ H) (path : String) (request : HttpRequest)
    (policy : Policy) :
    CutBy (fun halt => (.ended (.error halt) : Progress α)) H w
      (client.attempt path none request policy w)
      (client.attempt path (some H) request policy w) := by
  rw [attempt_eq_proceed, attempt_eq_proceed]
  refine cut_proceed injective_ended (client.exchange_cut hnow request policy.attempt) ?_ ?_
  · exact fun outcome w₁ hle => judged_cut hle path request.method policy outcome
  · exact fun outcome w₁ => client.later_judged path none request.method policy outcome w₁

def followed (client : Client) (path : String) (horizon : Option Nat) (request : HttpRequest)
    (fuel : Nat) : Progress α -> World σ -> Except Halt (Response α) × World σ
  | .ended result, w => (result, w)
  | .again next, w => client.attempts path horizon request fuel next w

theorem attempts_eq_followed (client : Client) (path : String) (horizon : Option Nat)
    (request : HttpRequest) (fuel : Nat) (policy : Policy) (w : World σ) :
    client.attempts path horizon request (fuel + 1) policy w =
      client.followed path horizon request fuel
        (client.attempt path horizon request policy w : Progress α × World σ).1
        (client.attempt path horizon request policy w : Progress α × World σ).2 := by
  conv => lhs; unfold attempts
  rcases (client.attempt path horizon request policy w : Progress α × World σ)
    with ⟨result | next, w₁⟩ <;> rfl

theorem attempts_cut (path : String) (request : HttpRequest) (fuel : Nat) (policy : Policy)
    (hnow : w.now ≤ H) :
    CutBy .error H w
      (client.attempts path none request fuel policy w : Except Halt (Response α) × World σ)
      (client.attempts path (some H) request fuel policy w) := by
  -- Each attempt is over before the horizon in both runs, or it is the one that is cut off.
  induction fuel generalizing policy w with
  | zero => exact CutBy.same (Later.refl w) hnow (by simp) (by simp)
  | succ fuel ih =>
    rw [attempts_eq_followed, attempts_eq_followed]
    refine (attempt_cut hnow path request policy).bind (fun _ => rfl) (fun _ => rfl) ?_ ?_
    · intro progress w₁ hpending hexpired hle
      cases progress with
      | ended result =>
        exact CutBy.same (Later.refl w₁) hle (fun h => hpending (congrArg Progress.ended h))
          (fun h => hexpired (congrArg Progress.ended h))
      | again next => exact ih next hle
    · intro progress w₁
      cases progress with
      | ended result => exact Later.refl w₁
      | again next => exact (client.moves_attempts path none request fuel next w₁).later

/-!
## Calls
-/

def undated (client : Client) : Client := { client with deadline := none }

theorem attempts_undated (client : Client) (path : String) (horizon : Option Nat)
    (request : HttpRequest) (fuel : Nat) (policy : Policy) (w : World σ) :
    client.undated.attempts path horizon request fuel policy w =
      (client.attempts path horizon request fuel policy w :
        Except Halt (Response α) × World σ) := by
  induction fuel generalizing policy w with
  | zero => rfl
  | succ fuel ih =>
    have hattempt : client.undated.attempt path horizon request policy w =
        (client.attempt path horizon request policy w : Progress α × World σ) := rfl
    unfold attempts
    rw [hattempt]
    rcases (client.attempt path horizon request policy w : Progress α × World σ)
      with ⟨result | next, w₁⟩
    · rfl
    · exact ih next w₁

theorem callUntil_cut (client : Client) (hnow : w.now ≤ H) (request : Request)
    (body : Option Payload) :
    CutBy .error H w
      (client.undated.call request body w : Except Halt (Response α) × World σ)
      (client.callUntil (some H) request body w) := by
  have hcall : client.undated.call request body w =
      (client.callUntil none request body w : Except Halt (Response α) × World σ) := by
    show client.undated.callUntil none request body w = _
    unfold callUntil
    rw [show client.undated.prepare request body = client.prepare request body from rfl]
    cases client.prepare request body with
    | error e => rfl
    | ok prepared => exact client.attempts_undated request.path none prepared _ _ w
  rw [hcall]
  cases hprepare : client.prepare request body with
  | error e =>
    rw [callUntil_of_error hprepare, callUntil_of_error hprepare]
    exact CutBy.same (Later.refl w) hnow (by simp) (by simp)
  | ok prepared =>
    rw [callUntil_of_ok hprepare, callUntil_of_ok hprepare]
    exact attempts_cut request.path prepared _ _ hnow

/-- Let a call without a deadline have this result in the world `free`, and let the deadline be one
that a timer can hold.  If the call has its result before the deadline, so does the call with the
deadline.  Otherwise that call fails at the deadline, after everything that was done until then.  An
attempt that takes too long before the deadline has failed as without it. -/
theorem deadline_only_cuts {millis : Nat} (hrange : w.now + millis ≤ Duration.lastTick)
    (hdeadline : client.deadline = some (.ofMillis millis)) {request : Request}
    {body : Option Payload} {result : Except Halt (Response α)} {free : World σ}
    (hfree : client.undated.call request body w = (result, free)) :
    (result ≠ .error .pending -> free.now < w.now + millis ->
      client.call request body w = (result, free)) ∧
    (result = .error .pending ∨ w.now + millis < free.now ->
      (forall entry, entry ∈ w.doneSince free -> entry.time ≠ w.now + millis) ->
      exists cut, client.call request body w =
          ((.error (.failed (.deadlineExceeded (.ofMillis millis))), cut) :
            Except Halt (Response α) × World σ) ∧
        cut.now = w.now + millis ∧
        w.doneSince cut =
          ((w.doneSince free).filter fun entry => entry.time < w.now + millis) ++
            [⟨w.now + millis, .reported (.deadlineExceeded (.ofMillis millis))⟩] ∧
        cut.requests = w.requests ++ ((w.doneSince free).filter fun entry =>
          entry.time < w.now + millis).filterMap Entry.request? ∧
        cut.delays = w.delays ++ ((w.doneSince free).filter fun entry =>
          entry.time < w.now + millis).filterMap Entry.delay?) ∧
    forall (prepared : HttpRequest) (policy : Policy) (w₁ w₂ : World σ),
      client.undated.exchange none prepared policy.attempt w₁ = (.ok (.error .timeout), w₂) ->
      w₂.now < w.now + millis ->
        client.attempt request.path (client.horizon w) prepared policy w₁ =
          (client.afterFailure request.path (client.horizon w) prepared.method policy .timeout w₂ :
            Progress α × World σ) := by
  have hticks : (Duration.ofMillis millis).ticks = millis :=
    Duration.ticks_ofMillis (Nat.le_trans (Nat.le_add_left millis w.now) hrange)
  have hhorizon : client.horizon w = some (w.now + millis) := by
    unfold horizon
    rw [hdeadline, Option.map_some, hticks]
  have hcut := client.callUntil_cut (α := α) (Nat.le_add_right w.now millis) request
    body
  rw [hfree, ← hhorizon] at hcut
  refine ⟨?_, ?_, ?_⟩
  · intro hpending hbefore
    rcases hcut.cut_eq hpending hbefore with ⟨hcall, hexpired⟩
    exact call_of_callUntil hcall hexpired
  · intro hlate hties
    rcases hcut.exists_cut hlate with ⟨cut, hcall, hcut⟩
    have hexpired : client.callUntil (some (w.now + (Duration.ofMillis millis).ticks)) request
        body w = ((.error .expired, cut) : Except Halt (Response α) × World σ) := by
      rw [hticks, ← hhorizon]
      exact hcall
    have hreport := later_report cut (.deadlineExceeded (.ofMillis millis))
    have hdone : w.doneSince (cut.report (.deadlineExceeded (.ofMillis millis))) =
        ((w.doneSince free).filter fun entry => entry.time < w.now + millis) ++
          [⟨w.now + millis, .reported (.deadlineExceeded (.ofMillis millis))⟩] := by
      rw [World.doneSince_trans hcut.cut hreport, World.doneSince_report, hcut.done hties,
        hcut.now]
    refine ⟨_, call_of_expired hdeadline hexpired, hcut.now, hdone, ?_, ?_⟩
    · rw [World.requests_eq_append (hcut.cut.trans hreport), hdone, List.filterMap_append]
      exact congrArg (w.requests ++ ·) (List.append_nil _)
    · rw [World.delays_eq_append (hcut.cut.trans hreport), hdone, List.filterMap_append]
      exact congrArg (w.delays ++ ·) (List.append_nil _)
  · intro prepared policy w₁ w₂ htimeout hbefore
    have hlater := (client.moves_exchange none prepared policy.attempt w₁).later
    have hexchange : client.exchange none prepared policy.attempt w₁ =
      (.ok (.error .timeout), w₂) := htimeout
    rw [hexchange] at hlater
    have hnow : w₁.now ≤ w.now + millis :=
      Nat.le_trans hlater.now_le (Nat.le_of_lt hbefore)
    have hsame := client.exchange_cut hnow prepared policy.attempt
    rw [hexchange, ← hhorizon] at hsame
    rcases hsame.cut_eq (by simp) hbefore with ⟨hdated, _⟩
    have hjudge : (judge w₂.clock policy.attempt (.error .timeout) :
      Except Overflow (Verdict α)) = .ok ⟨.error .timeout, []⟩ := rfl
    rw [attempt_of_verdict hdated hjudge]
    unfold conclude
    rw [World.reportAll_nil]

end Client

namespace Sample

def dated (millis : Nat) : Client := { client with deadline := some (.ofMillis millis) }

/-- The second attempt never completes; after fifty milliseconds the call is given up. -/
theorem dated_call_is_cut_off :
    exists cut, (dated 50).call request none
        (world [reply 3 (some (.ok unavailable)), reply 0 none]) =
        ((.error (.failed (.deadlineExceeded (.ofMillis 50))), cut) :
          Except Halt (Response Unit) × World Script) ∧ cut.now = 50 := by
  rcases hfree : ((dated 50).undated.call request none
    (world [reply 3 (some (.ok unavailable)), reply 0 none]) :
      Except Halt (Response Unit) × World Script) with ⟨result, free⟩
  have hlate : 50 < free.now := by
    rw [show free = (_, free).2 from rfl, ← hfree]
    decide +kernel
  have hties : forall entry,
      entry ∈ (world [reply 3 (some (.ok unavailable)), reply 0 none]).doneSince free ->
      entry.time ≠ 50 := by
    rw [show free = (_, free).2 from rfl, ← hfree]
    decide +kernel
  rcases (Client.deadline_only_cuts (by decide) rfl hfree).2.1 (Or.inr hlate) hties
    with ⟨cut, hcall, hnow, _⟩
  exact ⟨cut, hcall, hnow⟩

end Sample
end RestClient
