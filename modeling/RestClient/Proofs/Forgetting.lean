import RestClient.Proofs.Lockstep

/-!
# Forgetting a token

A token matters only to the clients that have it.  For any other client it makes no difference
whether the token is ever canceled: forgetting all its cancellations before an operation is the
same as forgetting them afterwards.
-/

namespace RestClient

variable {t : Token} {token : Option Token}

theorem Token.family_ne_of_ne {other : Token} (h : other ≠ t) : other.family ≠ t.family := by
  cases other
  cases t
  intro hfamily
  exact h (congrArg Token.mk hfamily)

def Tokens.without (tokens : Tokens) (t : Token) : Tokens :=
  { tokens with canceled := tokens.canceled.filter (· ≠ t.family) }

theorem Tokens.cancel_without_self (tokens : Tokens) :
    (tokens.cancel t).without t = tokens.without t := by
  simp [cancel, without]

theorem Tokens.cancel_without {other : Token} (h : other ≠ t) (tokens : Tokens) :
    (tokens.without t).cancel other = (tokens.cancel other).without t := by
  simp [cancel, without, Token.family_ne_of_ne h]

theorem Tokens.cancelAll_without (due : List (Nat × Token)) (tokens : Tokens) :
    (due.filter fun entry => entry.2 ≠ t).foldl (fun tokens entry => tokens.cancel entry.2)
        (tokens.without t) =
      (due.foldl (fun tokens entry => tokens.cancel entry.2) tokens).without t := by
  induction due generalizing tokens with
  | nil => rfl
  | cons entry rest ih =>
    by_cases h : entry.2 = t
    · rw [List.filter_cons_of_neg (by simpa using h), List.foldl_cons, ← ih, h,
        Tokens.cancel_without_self]
    · rw [List.filter_cons_of_pos (by simpa using h), List.foldl_cons, List.foldl_cons, ← ih,
        Tokens.cancel_without h]

def Reply.without (reply : Reply) (t : Token) : Reply :=
  { reply with cancels := reply.cancels.filter (· ≠ t) }

namespace World

def without (w : World Script) (t : Token) : World Script :=
  { w with
    transport := ⟨w.transport.replies.map (·.without t)⟩
    tokens := w.tokens.without t
    scheduled := w.scheduled.filter fun entry => entry.2 ≠ t
    history := w.history.filter fun entry => entry.deed ≠ .canceled t }

theorem note_without {deed : Deed} (h : deed ≠ .canceled t) (w : World Script) :
    (w.without t).note deed = (w.note deed).without t := by
  simp [without, note, List.filter_append, h]

theorem report_without (w : World Script) (event : Event) :
    (w.without t).report event = (w.report event).without t :=
  note_without (by simp) w

theorem cancel_without_self (w : World Script) : (w.cancel t).without t = w.without t := by
  simp [without, cancel, note, Tokens.cancel_without_self, List.filter_append]

theorem cancel_without {other : Token} (h : other ≠ t) (w : World Script) :
    (w.without t).cancel other = (w.cancel other).without t := by
  simp [without, cancel, note, Tokens.cancel_without h, List.filter_append, h]

theorem isCanceled_without (h : token ≠ some t) (w : World Script) :
    (w.without t).isCanceled token = w.isCanceled token := by
  cases token with
  | none => rfl
  | some other =>
    have hfamily := Token.family_ne_of_ne fun heq => h (congrArg some heq)
    show (w.tokens.canceled.filter (· ≠ t.family)).contains other.family =
      w.tokens.canceled.contains other.family
    rw [Bool.eq_iff_iff]
    simp [List.mem_filter, hfamily]

theorem cancelTime?_without (h : token ≠ some t) (w : World Script) :
    (w.without t).cancelTime? token = w.cancelTime? token := by
  have hscheduled : (w.without t).scheduled.filter (fun entry => some entry.2 = token) =
      w.scheduled.filter fun entry => some entry.2 = token := by
    show (w.scheduled.filter fun entry => entry.2 ≠ t).filter _ = _
    rw [List.filter_filter]
    apply List.filter_congr
    intro entry _
    by_cases htoken : some entry.2 = token
    · have hne : entry.2 ≠ t := fun heq => h (by rw [← htoken, heq])
      simp [htoken, hne]
    · simp [htoken]
  unfold cancelTime?
  rw [isCanceled_without h, hscheduled]
  rfl

theorem advance_without (w : World Script) (time : Nat) :
    (w.without t).advance time = (w.advance time).without t := by
  have hcomm : forall keep : Nat × Token -> Bool,
      (w.scheduled.filter fun entry => entry.2 ≠ t).filter keep =
        (w.scheduled.filter keep).filter fun entry => entry.2 ≠ t := by
    intro keep
    rw [List.filter_filter, List.filter_filter]
    apply List.filter_congr
    intro entry _
    exact Bool.and_comm _ _
  have hnoted : ((w.scheduled.filter fun entry => entry.1 ≤ time).map fun entry =>
      (⟨max w.now entry.1, .canceled entry.2⟩ : Entry)).filter
        (fun entry => entry.deed ≠ .canceled t) =
      ((w.scheduled.filter fun entry => entry.1 ≤ time).filter fun entry => entry.2 ≠ t).map
        fun entry => (⟨max w.now entry.1, .canceled entry.2⟩ : Entry) := by
    rw [List.filter_map]
    congr 1
    apply List.filter_congr
    intro entry _
    simp
  unfold without advance
  dsimp only
  rw [hcomm, hcomm, Tokens.cancelAll_without, List.filter_append, hnoted]

theorem send_without (w : World Script) (request : HttpRequest) :
    (w.without t).send request = (w.send request).map (·.without t) (·.without t) := by
  rcases w with ⟨now, clock, ⟨replies⟩, tokens, scheduled, jitter, history⟩
  cases replies with
  | nil => simp [send, Transport.send, Script.next, without, note, Script.spent, Reply.without]
  | cons reply rest => simp [send, Transport.send, Script.next, without, note]

theorem arrive_without (w : World Script) (reply : Reply) :
    (w.without t).arrive (reply.without t) = (w.arrive reply).without t := by
  rcases reply with ⟨wait, cancels, outcome⟩
  cases cancels with
  | none => rfl
  | some other =>
    by_cases hother : other = t
    · have hcancels : (⟨wait, some other, outcome⟩ : Reply).without t =
          ⟨wait, none, outcome⟩ := by
        simp [Reply.without, hother]
      rw [hcancels, hother]
      exact (cancel_without_self w).symm
    · have hcancels : (⟨wait, some other, outcome⟩ : Reply).without t =
          ⟨wait, some other, outcome⟩ := by
        simp [Reply.without, hother]
      rw [hcancels]
      exact cancel_without hother w

theorem delays_without (w : World Script) : (w.without t).delays = w.delays := by
  unfold delays without
  dsimp only
  rw [List.filterMap_filter]
  apply List.filterMap_congr
  intro entry _
  by_cases h : entry.deed = .canceled t
  · simp [h, Entry.delay?]
  · simp [h]

end World

/-!
## Operations
-/

theorem Client.stepByStep_without {client : Client} (h : client.cancel ≠ some t) :
    Client.StepByStep client client (fun w w' : World Script => w' = w.without t) Eq where
  settings := ⟨rfl, rfl, rfl, rfl, rfl, rfl, rfl, rfl⟩
  prepare := client.preparesAlike_self
  now hw := by rw [hw]; rfl
  clock hw := by rw [hw]; rfl
  backoff hw retry := by
    rw [hw, World.delays_without]
    rfl
  isCanceled hw := by rw [hw, World.isCanceled_without h]
  cancelTime hw := by rw [hw, World.cancelTime?_without h]
  advance hw time := by rw [hw, World.advance_without]
  report hw event := by rw [hw, World.report_without]
  paused hw delay := by rw [hw, World.note_without (by simp)]
  method hrequest := by rw [hrequest]
  url hrequest := by rw [hrequest]
  send := by
    intro w w' hw request request' hrequest
    subst hw hrequest
    refine ⟨_, _, _, _, rfl, World.send_without w request, rfl, rfl, rfl, ?_⟩
    intro u u' hu
    rw [hu]
    exact World.arrive_without u _

theorem Operation.run_of_forgotten {Item Create Update : Type} [Json.Decode Item]
    {c : Collection Create Update} (h : c.client.cancel ≠ some t)
    (operation : Operation Create Update) (w : World Script) :
    operation.run c (w.without t) =
      ((operation.run c w).map id (·.without t) : Outcome Item × World Script) := by
  rcases (Client.stepByStep_without h).lockstep.run (α := Item) (c := c) rfl rfl operation with
    ⟨outcome, v, v', hfirst, hsecond, rfl⟩
  have hsecond' : operation.run c (w.without t) = (outcome, v.without t) := hsecond
  rw [hsecond', hfirst]
  rfl

end RestClient
