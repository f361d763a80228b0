import RestClient.Client.World
import Mathlib.Data.List.Basic
import Mathlib.Logic.Relation

/-!
# Moves of the world

All that a client does to the world is a sequence of five kinds of moves.  A request is sent only
while the client's token is not canceled, and a cancellation is never reported as a failure that
might be repeated.  What every move preserves, every operation preserves.
-/

namespace RestClient

def Event.failure? : Event -> Option Error
  | .failed e _ _ _ => some e
  | _ => none

namespace World

variable {σ : Type} {token : Option Token} {w w' w'' : World σ}

/-- A move that neither sends a request nor hands out a delay. -/
inductive Drift : World σ -> World σ -> Prop where
  | advance (w : World σ) (time : Nat) : Drift w (w.advance time)
  | cancel (w : World σ) (other : Token) : Drift w (w.cancel other)
  | report (w : World σ) (event : Event) (hevent : event.failure? ≠ some .canceled) :
      Drift w (w.report event)

inductive Move (token : Option Token) : World σ -> World σ -> Prop where
  | drift {w w' : World σ} (h : Drift w w') : Move token w w'
  | pause (w : World σ) (delay : Duration) : Move token w (w.note (.paused delay))
  | send (w : World σ) (transport : σ) (request : HttpRequest)
      (hopen : w.isCanceled token = false) :
      Move token w ({ w with transport }.note (.sent request))

abbrev Drifts : World σ -> World σ -> Prop := Relation.ReflTransGen Drift

abbrev Moves (token : Option Token) : World σ -> World σ -> Prop :=
  Relation.ReflTransGen (Move token)

theorem Drifts.moves (h : Drifts w w') : Moves token w w' := by
  induction h with
  | refl => exact Relation.ReflTransGen.refl
  | tail _ hdrift ih => exact ih.tail (Move.drift hdrift)

theorem drifts_report (w : World σ) (event : Event) (hevent : event.failure? ≠ some .canceled) :
    Drifts w (w.report event) :=
  Relation.ReflTransGen.single (Drift.report w event hevent)

theorem moves_report (w : World σ) (event : Event) (hevent : event.failure? ≠ some .canceled) :
    Moves token w (w.report event) :=
  Relation.ReflTransGen.single (Move.drift (Drift.report w event hevent))

theorem reportAll_nil (w : World σ) : w.reportAll [] = w := by
  simp [reportAll]

theorem reportAll_cons (w : World σ) (event : Event) (events : List Event) :
    w.reportAll (event :: events) = (w.report event).reportAll events := by
  simp [reportAll, report, note]

theorem drifts_reportAll {events : List Event} (w : World σ)
    (hevents : forall event, event ∈ events -> event.failure? ≠ some .canceled) :
    Drifts w (w.reportAll events) := by
  induction events generalizing w with
  | nil =>
    rw [reportAll_nil]
  | cons event rest ih =>
    rw [reportAll_cons]
    have hreport := drifts_report w event (hevents event List.mem_cons_self)
    exact hreport.trans (ih (w.report event) fun e he => hevents e (List.mem_cons_of_mem _ he))

/-!
## What drifting keeps
-/

structure SameTraffic (w w' : World σ) : Prop where
  clock : w'.clock = w.clock
  jitter : w'.jitter = w.jitter
  transport : w'.transport = w.transport
  requests : w'.requests = w.requests
  delays : w'.delays = w.delays

theorem SameTraffic.trans (h₁ : SameTraffic w w') (h₂ : SameTraffic w' w'') :
    SameTraffic w w'' :=
  ⟨h₂.clock.trans h₁.clock, h₂.jitter.trans h₁.jitter, h₂.transport.trans h₁.transport,
    h₂.requests.trans h₁.requests, h₂.delays.trans h₁.delays⟩

theorem sameTraffic_of_history_eq_append {new : List Entry} (hclock : w'.clock = w.clock)
    (hjitter : w'.jitter = w.jitter) (htransport : w'.transport = w.transport)
    (hhistory : w'.history = w.history ++ new)
    (hrequest : forall entry, entry ∈ new -> entry.request? = none)
    (hdelay : forall entry, entry ∈ new -> entry.delay? = none) : SameTraffic w w' := by
  refine ⟨hclock, hjitter, htransport, ?_, ?_⟩
  · unfold requests
    rw [hhistory, List.filterMap_append, List.filterMap_eq_nil_iff.mpr hrequest, List.append_nil]
  · unfold delays
    rw [hhistory, List.filterMap_append, List.filterMap_eq_nil_iff.mpr hdelay, List.append_nil]

theorem Drift.sameTraffic (h : Drift w w') : SameTraffic w w' := by
  cases h with
  | advance time =>
    refine sameTraffic_of_history_eq_append rfl rfl rfl rfl ?_ ?_ <;>
    · intro entry hentry
      rcases List.mem_map.mp hentry with ⟨due, _, rfl⟩
      rfl
  | cancel other =>
    exact sameTraffic_of_history_eq_append rfl rfl rfl rfl (by simp [Entry.request?])
      (by simp [Entry.delay?])
  | report event _ =>
    exact sameTraffic_of_history_eq_append rfl rfl rfl rfl (by simp [Entry.request?])
      (by simp [Entry.delay?])

theorem Drifts.sameTraffic (h : Drifts w w') : SameTraffic w w' := by
  induction h with
  | refl => exact ⟨rfl, rfl, rfl, rfl, rfl⟩
  | tail _ hdrift ih => exact ih.trans hdrift.sameTraffic

theorem requests_send [Transport σ] (w : World σ) (request : HttpRequest) :
    (w.send request).2.requests = w.requests ++ [request] := by
  simp [send, requests, note, List.filterMap_append, Entry.request?]

theorem delays_send [Transport σ] (w : World σ) (request : HttpRequest) :
    (w.send request).2.delays = w.delays := by
  simp [send, delays, note, List.filterMap_append, Entry.delay?]

theorem requests_paused (w : World σ) (delay : Duration) :
    (w.note (.paused delay)).requests = w.requests := by
  simp [requests, note, List.filterMap_append, Entry.request?]

theorem delays_paused (w : World σ) (delay : Duration) :
    (w.note (.paused delay)).delays = w.delays ++ [delay] := by
  simp [delays, note, List.filterMap_append, Entry.delay?]

/-!
## Time and history
-/

/-- The second world comes later: in the meantime entries were added to its history. -/
structure Later (w w' : World σ) : Prop where
  now_le : w.now ≤ w'.now
  history : exists new, w'.history = w.history ++ new ∧ forall entry, entry ∈ new ->
    w.now ≤ entry.time ∧ entry.time ≤ w'.now

theorem Later.refl (w : World σ) : Later w w :=
  ⟨Nat.le_refl _, [], (List.append_nil _).symm, by intro entry h; cases h⟩

theorem Later.trans (h₁ : Later w w') (h₂ : Later w' w'') : Later w w'' := by
  rcases h₁.history with ⟨a, ha, hta⟩
  rcases h₂.history with ⟨b, hb, htb⟩
  refine ⟨Nat.le_trans h₁.now_le h₂.now_le, a ++ b, ?_, ?_⟩
  · rw [hb, ha, List.append_assoc]
  · intro entry hentry
    rcases List.mem_append.mp hentry with h | h
    · exact ⟨(hta entry h).1, Nat.le_trans (hta entry h).2 h₂.now_le⟩
    · exact ⟨Nat.le_trans h₁.now_le (htb entry h).1, (htb entry h).2⟩

theorem later_of_history_eq_concat {deed : Deed} (hnow : w'.now = w.now)
    (hhistory : w'.history = w.history ++ [⟨w.now, deed⟩]) : Later w w' := by
  refine ⟨Nat.le_of_eq hnow.symm, _, hhistory, ?_⟩
  intro entry h
  rw [List.mem_singleton.mp h]
  exact ⟨Nat.le_refl _, Nat.le_of_eq hnow.symm⟩

theorem later_advance (w : World σ) (time : Nat) : Later w (w.advance time) := by
  refine ⟨Nat.le_max_left _ _, _, rfl, ?_⟩
  intro entry h
  rcases List.mem_map.mp h with ⟨due, hdue, rfl⟩
  have hle : due.1 ≤ time := by simpa using (List.mem_filter.mp hdue).2
  show w.now ≤ max w.now due.1 ∧ max w.now due.1 ≤ max w.now time
  omega

theorem Drift.later (h : Drift w w') : Later w w' := by
  cases h with
  | advance time => exact later_advance w time
  | cancel other => exact later_of_history_eq_concat rfl rfl
  | report event _ => exact later_of_history_eq_concat rfl rfl

theorem Move.later (h : Move token w w') : Later w w' := by
  cases h with
  | drift hdrift => exact hdrift.later
  | pause delay => exact later_of_history_eq_concat rfl rfl
  | send transport request _ => exact later_of_history_eq_concat rfl rfl

theorem Moves.later (h : Moves token w w') : Later w w' := by
  induction h with
  | refl => exact Later.refl w
  | tail _ hmove ih => exact ih.trans hmove.later

theorem Drifts.later (h : Drifts w w') : Later w w' := by
  induction h with
  | refl => exact Later.refl w
  | tail _ hdrift ih => exact ih.trans hdrift.later

/-!
## Cancellation
-/

theorem isCanceled_foldl (due : List (Nat × Token)) (tokens : Tokens) (t : Token) :
    (due.foldl (fun tokens entry => tokens.cancel entry.2) tokens).isCanceled t =
      (due.any (fun entry => t == entry.2) || tokens.isCanceled t) := by
  induction due generalizing tokens with
  | nil => rfl
  | cons entry rest ih =>
    rw [List.foldl_cons, ih, Tokens.isCanceled_cancel, List.any_cons]
    cases t == entry.2 <;> simp

theorem isCanceled_cancel (w : World σ) (other t : Token) :
    (w.cancel other).isCanceled (some t) = true <-> w.isCanceled (some t) = true ∨ other = t := by
  show (w.tokens.cancel other).isCanceled t = true <-> w.tokens.isCanceled t = true ∨ _
  rw [Tokens.isCanceled_cancel, Bool.or_eq_true, beq_iff_eq, or_comm, @eq_comm _ t other]

theorem isCanceled_cancel_self (w : World σ) (t : Token) :
    (w.cancel t).isCanceled (some t) = true :=
  (isCanceled_cancel w t t).mpr (Or.inr rfl)

/-- What an operation may add to the history: once the token is canceled no request is sent, and
its cancellation is not treated as a failure. -/
structure Quiet (t : Token) (canceled : Bool) (new : List Entry) : Prop where
  silent : canceled = true -> forall entry, entry ∈ new -> entry.request? = none
  final : new.Pairwise fun earlier later => earlier.deed = .canceled t -> later.request? = none
  unretried : forall entry, entry ∈ new -> entry.event?.bind Event.failure? ≠ some .canceled

/-- From the first world to the second one the token is heeded, and the history tells of every
cancellation. -/
def Heeds (t : Token) (w w' : World σ) : Prop :=
  exists new, w'.history = w.history ++ new ∧ Quiet t (w.isCanceled (some t)) new ∧
    (w'.isCanceled (some t) = true <->
      w.isCanceled (some t) = true ∨ exists entry, entry ∈ new ∧ entry.deed = .canceled t)

theorem Heeds.refl (t : Token) (w : World σ) : Heeds t w w := by
  refine ⟨[], (List.append_nil _).symm, ⟨?_, List.Pairwise.nil, ?_⟩, ?_⟩
  · intro _ entry h
    cases h
  · intro entry h
    cases h
  · simp

theorem Heeds.trans {t : Token} (h₁ : Heeds t w w') (h₂ : Heeds t w' w'') : Heeds t w w'' := by
  rcases h₁ with ⟨a, ha, hqa, hca⟩
  rcases h₂ with ⟨b, hb, hqb, hcb⟩
  refine ⟨a ++ b, ?_, ⟨?_, ?_, ?_⟩, ?_⟩
  · rw [hb, ha, List.append_assoc]
  · intro h entry hentry
    rcases List.mem_append.mp hentry with hmem | hmem
    · exact hqa.silent h entry hmem
    · exact hqb.silent (hca.mpr (Or.inl h)) entry hmem
  · refine List.pairwise_append.mpr ⟨hqa.final, hqb.final, ?_⟩
    intro earlier hearlier later hlater hdeed
    exact hqb.silent (hca.mpr (Or.inr ⟨earlier, hearlier, hdeed⟩)) later hlater
  · intro entry hentry
    rcases List.mem_append.mp hentry with hmem | hmem
    · exact hqa.unretried entry hmem
    · exact hqb.unretried entry hmem
  · rw [hcb, hca, or_assoc]
    simp only [List.mem_append, or_and_right, exists_or]

theorem heeds_of_history_eq_concat {t : Token} {entry : Entry}
    (hhistory : w'.history = w.history ++ [entry])
    (hsilent : w.isCanceled (some t) = true -> entry.request? = none)
    (hunretried : entry.event?.bind Event.failure? ≠ some .canceled)
    (hcancel : w'.isCanceled (some t) = true <->
      w.isCanceled (some t) = true ∨ entry.deed = .canceled t) : Heeds t w w' := by
  refine ⟨[entry], hhistory, ⟨?_, List.pairwise_singleton _ _, ?_⟩, ?_⟩
  · intro h other hother
    rw [List.mem_singleton.mp hother]
    exact hsilent h
  · intro other hother
    rw [List.mem_singleton.mp hother]
    exact hunretried
  · rw [hcancel]
    simp only [List.mem_singleton, exists_eq_left]

theorem heeds_advance (t : Token) (w : World σ) (time : Nat) : Heeds t w (w.advance time) := by
  refine ⟨_, rfl, ⟨?_, ?_, ?_⟩, ?_⟩
  · intro _ entry hentry
    rcases List.mem_map.mp hentry with ⟨due, _, rfl⟩
    rfl
  · exact List.pairwise_map.mpr (List.pairwise_of_forall fun _ _ _ => rfl)
  · intro entry hentry
    rcases List.mem_map.mp hentry with ⟨due, _, rfl⟩
    intro h
    cases h
  · show Tokens.isCanceled (List.foldl _ w.tokens _) t = true <-> w.tokens.isCanceled t = true ∨ _
    rw [isCanceled_foldl, Bool.or_eq_true, or_comm, List.any_eq_true]
    apply or_congr_right
    constructor
    · rintro ⟨due, hdue, htoken⟩
      exact ⟨_, List.mem_map.mpr ⟨due, hdue, rfl⟩, by rw [← beq_iff_eq.mp htoken]⟩
    · rintro ⟨entry, hentry, hdeed⟩
      rcases List.mem_map.mp hentry with ⟨due, hdue, rfl⟩
      injection hdeed with htoken
      exact ⟨due, hdue, beq_iff_eq.mpr htoken.symm⟩

theorem Drift.heeds (t : Token) (h : Drift w w') : Heeds t w w' := by
  cases h with
  | advance time => exact heeds_advance t w time
  | cancel other =>
    refine heeds_of_history_eq_concat rfl ?_ ?_ ?_
    · intro _
      rfl
    · intro h
      cases h
    · rw [isCanceled_cancel, Deed.canceled.injEq]
  | report event hevent =>
    refine heeds_of_history_eq_concat rfl ?_ hevent ?_
    · intro _
      rfl
    · exact (or_iff_left Deed.noConfusion).symm

theorem Move.heeds {t : Token} (h : Move (some t) w w') : Heeds t w w' := by
  cases h with
  | drift hdrift => exact hdrift.heeds t
  | pause delay =>
    refine heeds_of_history_eq_concat rfl ?_ ?_ ?_
    · intro _
      rfl
    · intro h
      cases h
    · exact (or_iff_left Deed.noConfusion).symm
  | send transport request hopen =>
    refine heeds_of_history_eq_concat rfl ?_ ?_ ?_
    · intro h
      rw [h] at hopen
      cases hopen
    · intro h
      cases h
    · exact (or_iff_left Deed.noConfusion).symm

theorem Moves.heeds {t : Token} (h : Moves (some t) w w') : Heeds t w w' := by
  induction h with
  | refl => exact Heeds.refl t w
  | tail _ hmove ih => exact ih.trans hmove.heeds

end World
end RestClient
