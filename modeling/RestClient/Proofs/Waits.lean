import RestClient.Proofs.LateReplies
import RestClient.Proofs.Sending

/-!
# What waits take

A client waits for replies and for its timer.  With a timeout, an exchange takes at most as long as
that; it ends with the outcome of its reply, with a timeout when the time is over, or when the call
is cut off from outside.
-/

namespace RestClient

variable {σ β : Type}

/-!
## Durations in milliseconds
-/

namespace Duration

def IsWhole (a : Duration) : Prop := exists millis, a.nanos = millis * 1_000_000

theorem isWhole_ofMillis {millis : Nat} (h : millis * 1_000_000 < bound) :
    (ofMillis millis).IsWhole := by
  refine ⟨millis, ?_⟩
  unfold ofMillis
  rw [nanos_saturate]
  exact Nat.min_eq_left (Nat.le_sub_one_of_lt h)

theorem ticks_le_millis {a b : Duration} (h : a.nanos ≤ b.nanos) (hb : b.IsWhole) :
    a.ticks ≤ b.millis := by
  rcases hb with ⟨millis, hmillis⟩
  have hb : b.millis = millis := by
    unfold Duration.millis
    rw [hmillis]
    exact Nat.mul_div_cancel millis (by decide)
  rw [hb]
  unfold ticks Duration.millis
  by_cases hexact : a.nanos % 1_000_000 = 0
  · rw [if_pos hexact]
    omega
  · rw [if_neg hexact]
    omega

def total (durations : List Duration) : Nat :=
  durations.foldr (fun duration nanos => duration.nanos + nanos) 0

end Duration

/-!
## What a part of a call takes
-/

namespace World

variable {w w₁ w' : World σ} {millis more sent again : Nat} {delays others : List Duration}

/-- From the first world to the second one no more time went by and no more requests were sent,
and these delays were handed out. -/
structure Spends (w w' : World σ) (millis sent : Nat) (delays : List Duration) : Prop where
  now : w'.now ≤ w.now + millis
  requests : exists new, w'.requests = w.requests ++ new ∧ new.length ≤ sent
  delays : w'.delays = w.delays ++ delays

theorem Spends.of_sameTraffic (h : SameTraffic w w') (hnow : w'.now ≤ w.now + millis) :
    Spends w w' millis 0 [] :=
  ⟨hnow, ⟨[], by rw [h.requests, List.append_nil], Nat.le_refl 0⟩,
    by rw [h.delays, List.append_nil]⟩

theorem spends_refl (w : World σ) : Spends w w 0 0 [] :=
  Spends.of_sameTraffic ⟨rfl, rfl, rfl, rfl, rfl⟩ (Nat.le_refl _)

theorem spends_report (w : World σ) (event : Event) : Spends w (w.report event) 0 0 [] := by
  refine ⟨Nat.le_refl _, ⟨[], ?_, Nat.le_refl 0⟩, ?_⟩
  · rw [(sendsNothing_report w event).requests, List.append_nil]
  · simp [report, delays, note, List.filterMap_append, Entry.delay?]

theorem Spends.trans (h : Spends w w₁ millis sent delays) (h' : Spends w₁ w' more again others) :
    Spends w w' (millis + more) (sent + again) (delays ++ others) := by
  rcases h.requests with ⟨first, hfirst, hsent⟩
  rcases h'.requests with ⟨second, hsecond, hagain⟩
  refine ⟨?_, ⟨first ++ second, ?_, ?_⟩, ?_⟩
  · rw [← Nat.add_assoc]
    exact Nat.le_trans h'.now (Nat.add_le_add_right h.now more)
  · rw [hsecond, hfirst, List.append_assoc]
  · rw [List.length_append]
    exact Nat.add_le_add hsent hagain
  · rw [h'.delays, h.delays, List.append_assoc]

theorem Spends.mono (h : Spends w w' millis sent delays) (hmillis : millis ≤ more)
    (hsent : sent ≤ again) : Spends w w' more again delays := by
  rcases h.requests with ⟨new, hnew, hlength⟩
  exact ⟨Nat.le_trans h.now (Nat.add_le_add_left hmillis _),
    ⟨new, hnew, Nat.le_trans hlength hsent⟩, h.delays⟩

theorem isCanceled_advance {token : Option Token} {time due : Nat}
    (hdue : w.cancelTime? token = some due) (htime : due ≤ time) :
    (w.advance time).isCanceled token = true := by
  cases token with
  | none =>
    have hnever : w.cancelTime? none = none := by simp [cancelTime?, isCanceled]
    rw [hnever] at hdue
    cases hdue
  | some t =>
    show Tokens.isCanceled (List.foldl _ w.tokens _) t = true
    rw [isCanceled_foldl, Bool.or_eq_true, or_comm, List.any_eq_true]
    unfold cancelTime? at hdue
    by_cases hcanceled : w.isCanceled (some t) = true
    · exact Or.inl hcanceled
    · rw [if_neg hcanceled] at hdue
      rcases List.mem_map.mp (List.min?_mem hdue) with ⟨entry, hentry, rfl⟩
      rcases List.mem_filter.mp hentry with ⟨hscheduled, htoken⟩
      have hname : entry.2 = t := Option.some.inj (decide_eq_true_eq.mp htoken)
      exact Or.inr ⟨entry, List.mem_filter.mpr ⟨hscheduled, decide_eq_true htime⟩,
        beq_iff_eq.mpr hname.symm⟩

/-- What a wait for a time comes to: it ends before that only when the token is canceled or the
horizon is reached. -/
inductive WaitsFor (token : Option Token) (horizon : Option Nat) (target : Nat) :
    Waking × World σ -> Prop where
  | reached {w : World σ} (hnow : w.now = target) : WaitsFor token horizon target (.reached, w)
  | canceled {w : World σ} (hcanceled : w.isCanceled token = true) (hnow : w.now ≤ target) :
      WaitsFor token horizon target (.canceled, w)
  | expired {w : World σ} {time : Nat} (hhorizon : horizon = some time) (htime : time ≤ w.now)
      (hnow : w.now ≤ target) : WaitsFor token horizon target (.expired, w)

theorem waitsFor_settle (token : Option Token) (horizon : Option Nat) {target : Nat}
    (hnow : w.now ≤ target) :
    WaitsFor token horizon target (wait.settle w horizon (some target)) := by
  unfold wait.settle
  cases horizon with
  | none => exact .reached (Nat.max_eq_right hnow)
  | some horizon =>
    dsimp only
    by_cases h : target ≤ horizon
    · rw [if_pos h]
      exact .reached (Nat.max_eq_right hnow)
    · rw [if_neg h]
      exact .expired rfl (Nat.le_max_right _ _) (Nat.max_le.mpr ⟨hnow, Nat.le_of_not_le h⟩)

theorem waitsFor_wait (token : Option Token) (horizon : Option Nat) {target : Nat}
    (hnow : w.now ≤ target) :
    WaitsFor token horizon target (w.wait token horizon (some target)) := by
  unfold wait
  by_cases hdue : (some target).any (· ≤ w.now) = true
  · rw [if_pos hdue]
    have hle : target ≤ w.now := by simpa using hdue
    exact .reached (Nat.le_antisymm hnow hle)
  · rw [if_neg hdue]
    cases hcancel : w.cancelTime? token with
    | none => exact waitsFor_settle token horizon hnow
    | some time =>
      rw [Option.map_some]
      dsimp only
      by_cases hfirst :
          (before (max w.now time) (some target) && before (max w.now time) horizon) = true
      · have hless : max w.now time < target := by
          have hbefore := (Bool.and_eq_true_iff.mp hfirst).1
          simpa only [before, Option.all_some, decide_eq_true_eq] using hbefore
        rw [if_pos hfirst]
        exact .canceled (isCanceled_advance hcancel (Nat.le_max_right _ _))
          (Nat.max_le.mpr ⟨hnow, Nat.le_of_lt hless⟩)
      · rw [if_neg hfirst]
        exact waitsFor_settle token horizon hnow

theorem now_arrive (w : World σ) (reply : Reply) : (w.arrive reply).now = w.now := by
  unfold arrive
  cases reply.cancels with
  | none => rfl
  | some token => rfl

end World

/-!
## Waiting
-/

/-- The call was cut off from outside: its token is canceled, or its deadline is reached. -/
def Halt.IsCut (token : Option Token) (horizon : Option Nat) (halt : Halt) (w : World σ) : Prop :=
  halt = .failed .canceled ∧ w.isCanceled token = true ∨
    halt = .expired ∧ exists time, horizon = some time ∧ time ≤ w.now

/-- A part of a call either comes to its end, or is cut off by the given time at the latest. -/
inductive OrCut (token : Option Token) (horizon : Option Nat) (latest : Nat)
    (P : β -> World σ -> Prop) : Except Halt β × World σ -> Prop where
  | done {result : β} {w' : World σ} (h : P result w') :
      OrCut token horizon latest P (.ok result, w')
  | cut {halt : Halt} {w' : World σ} (hcut : halt.IsCut token horizon w') (hnow : w'.now ≤ latest) :
      OrCut token horizon latest P (.error halt, w')

theorem OrCut.now_le {token : Option Token} {horizon : Option Nat} {latest : Nat}
    {P : β -> World σ -> Prop} {result : Except Halt β × World σ}
    (h : OrCut token horizon latest P result)
    (hP : forall value w, P value w -> w.now ≤ latest) : result.2.now ≤ latest := by
  cases h with
  | done hdone => exact hP _ _ hdone
  | cut hcut hnow => exact hnow

def Reply.Misses (timeout : Duration) (reply : Reply) : Prop :=
  reply.IsLate timeout ∨ reply.outcome = none

namespace Client

variable {client : Client} {timeout : Duration} {horizon : Option Nat} {w : World σ}

theorem orCut_wait (client : Client) (horizon : Option Nat) {target : Nat}
    (hnow : w.now ≤ target) :
    OrCut client.cancel horizon target (fun _ w' => w'.now = target)
      (client.wait horizon (some target) w) := by
  have hwaits := World.waitsFor_wait client.cancel horizon hnow
  unfold wait
  generalize w.wait client.cancel horizon (some target) = waking at hwaits ⊢
  cases hwaits with
  | reached hnow => exact .done hnow
  | canceled hcanceled hnow => exact .cut (Or.inl ⟨rfl, hcanceled⟩) hnow
  | expired hhorizon htime hnow => exact .cut (Or.inr ⟨rfl, _, hhorizon, htime⟩) hnow

/-- What an exchange comes to: the outcome of its reply, or a timeout when the time is over. -/
def Receives (timeout : Duration) (reply : Reply) (start : Nat)
    (outcome : Except TransportFault HttpResponse) (w' : World σ) : Prop :=
  w'.now ≤ start + timeout.ticks ∧
    (¬ reply.Misses timeout ∧ reply.outcome = some outcome ∨
      outcome = .error .timeout ∧ w'.now = start + timeout.ticks)

theorem orCut_awaitTimeout (client : Client) (horizon : Option Nat) (reply : Reply) {start : Nat}
    (hnow : w.now ≤ start + timeout.ticks) :
    OrCut client.cancel horizon (start + timeout.ticks) (Receives timeout reply start)
      (client.awaitTimeout horizon (some (start + timeout.ticks)) w) := by
  have hwait := client.orCut_wait horizon hnow
  unfold awaitTimeout
  generalize client.wait horizon (some (start + timeout.ticks)) w = result at hwait ⊢
  cases hwait with
  | done hnow => exact .done ⟨Nat.le_of_eq hnow, Or.inr ⟨rfl, hnow⟩⟩
  | cut hcut hnow => exact .cut hcut hnow

theorem orCut_deliver (client : Client) (horizon : Option Nat) {reply : Reply} {start : Nat}
    (hintime : ¬ reply.IsLate timeout) (hnow : w.now ≤ start + timeout.ticks) :
    OrCut client.cancel horizon (start + timeout.ticks) (Receives timeout reply start)
      (client.deliver horizon (some (start + timeout.ticks)) reply w) := by
  unfold deliver
  cases houtcome : reply.outcome with
  | none => exact client.orCut_awaitTimeout horizon reply hnow
  | some outcome =>
    have hhits : ¬ reply.Misses timeout := by
      rintro (hlate | hnever)
      · exact hintime hlate
      · rw [houtcome] at hnever
        cases hnever
    exact .done ⟨hnow, Or.inl ⟨hhits, houtcome⟩⟩

theorem orCut_receive (htimeout : client.timeout = some timeout) (horizon : Option Nat)
    (reply : Reply) (w : World σ) :
    OrCut client.cancel horizon (w.now + timeout.ticks) (Receives timeout reply w.now)
      (client.receive horizon reply w) := by
  have hlimit : client.limit w = some (w.now + timeout.ticks) := by
    unfold limit
    rw [htimeout]
    rfl
  unfold receive
  dsimp only
  rw [hlimit]
  by_cases hlate : reply.IsLate timeout
  · have hbehind : ¬ (some (w.now + timeout.ticks)).all (w.now + reply.wait.ticks ≤ ·) = true := by
      unfold Reply.IsLate at hlate
      simpa using hlate
    rw [if_neg hbehind]
    exact client.orCut_awaitTimeout horizon reply (Nat.le_add_right _ _)
  · have hintime : w.now + reply.wait.ticks ≤ w.now + timeout.ticks :=
      Nat.add_le_add_left (Nat.le_of_not_lt hlate) w.now
    have hwait := client.orCut_wait horizon (Nat.le_add_right w.now reply.wait.ticks)
    rw [if_pos (by simpa using hintime)]
    generalize client.wait horizon (some (w.now + reply.wait.ticks)) w = result at hwait ⊢
    cases hwait with
    | cut hcut hnow => exact .cut hcut (Nat.le_trans hnow hintime)
    | done hnow =>
      apply client.orCut_deliver horizon hlate
      rw [World.now_arrive, hnow]
      exact hintime

theorem orCut_exchange [Transport σ] (htimeout : client.timeout = some timeout)
    (horizon : Option Nat) (prepared : HttpRequest) (n : Nat) (w : World σ) :
    OrCut client.cancel horizon (w.now + timeout.ticks)
      (Receives timeout (Transport.send w.transport prepared).1 w.now)
      (client.exchange horizon prepared n w) := by
  cases hcanceled : w.isCanceled client.cancel with
  | true =>
    rw [exchange_of_canceled hcanceled]
    exact .cut (Or.inl ⟨rfl, hcanceled⟩) (Nat.le_add_right _ _)
  | false =>
    rw [exchange_of_open hcanceled]
    exact orCut_receive htimeout horizon (Transport.send w.transport prepared).1
      ((w.report (.executing prepared.method prepared.url n)).send prepared).2

theorem orCut_pause (hsleeper : client.sleeper = .timer) (horizon : Option Nat) (delay : Duration)
    (w : World σ) :
    OrCut client.cancel horizon (w.now + delay.ticks) (fun _ w' => w'.now = w.now + delay.ticks)
      (client.pause horizon delay w) := by
  unfold pause
  dsimp only
  by_cases hcanceled : (w.note (.paused delay)).isCanceled client.cancel = true
  · rw [if_pos hcanceled]
    exact .cut (Or.inl ⟨rfl, hcanceled⟩) (Nat.le_add_right _ _)
  · rw [if_neg hcanceled, hsleeper]
    exact client.orCut_wait horizon (Nat.le_add_right w.now delay.ticks)

theorem delays_pause (client : Client) (horizon : Option Nat) (delay : Duration) (w : World σ) :
    (client.pause horizon delay w).2.delays = w.delays ++ [delay] := by
  have hpaused := w.delays_paused delay
  unfold pause
  dsimp only
  by_cases hcanceled : (w.note (.paused delay)).isCanceled client.cancel = true
  · rw [if_pos hcanceled]
    exact (drifts_canceled _).sameTraffic.delays.trans hpaused
  · rw [if_neg hcanceled]
    cases client.sleeper with
    | skip => exact hpaused
    | timer => exact (client.drifts_wait horizon _ _).sameTraffic.delays.trans hpaused

theorem spends_pause (hsleeper : client.sleeper = .timer) (horizon : Option Nat)
    (delay : Duration) (w : World σ) :
    w.Spends (client.pause horizon delay w).2 delay.ticks 0 [delay] := by
  refine ⟨?_, ⟨[], ?_, Nat.le_refl 0⟩, client.delays_pause horizon delay w⟩
  · apply (orCut_pause hsleeper horizon delay w).now_le
    intro _ w' hnow
    exact Nat.le_of_eq hnow
  · rw [(client.sendsNothing_pause horizon delay w).requests, List.append_nil]

theorem spends_exchange [Transport σ] (htimeout : client.timeout = some timeout)
    (horizon : Option Nat) (prepared : HttpRequest) (n : Nat) (w : World σ) :
    w.Spends (client.exchange horizon prepared n w).2 timeout.ticks 1 [] := by
  have hnow : (client.exchange horizon prepared n w).2.now ≤ w.now + timeout.ticks := by
    apply (orCut_exchange htimeout horizon prepared n w).now_le
    intro outcome w' hreceives
    exact hreceives.1
  cases hcanceled : w.isCanceled client.cancel with
  | true =>
    rcases requests_exchange_of_canceled hcanceled horizon prepared n with ⟨hrequests, hdelays, _⟩
    exact ⟨hnow, ⟨[], by rw [hrequests, List.append_nil], Nat.zero_le 1⟩,
      by rw [hdelays, List.append_nil]⟩
  | false =>
    rcases requests_exchange_of_open hcanceled horizon prepared n with ⟨hrequests, hdelays, _⟩
    exact ⟨hnow, ⟨[prepared], hrequests, Nat.le_refl 1⟩, by rw [hdelays, List.append_nil]⟩

end Client

end RestClient
