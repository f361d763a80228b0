import Mathlib.Data.List.InsertIdx
import RestClient.Proofs.Lockstep

/-!
# Programs

A program asks for one thing after another: operations on any collections, items of listings in
turns, cancellations.  If two clients are in lockstep, so are whole programs.
-/

namespace RestClient

/-- A listing that was begun, whatever its items are. -/
structure Begun : Type 1 where
  Item : Type
  decode : Json.Decode Item
  listing : Listing Item

namespace Begun

def of (begun : Begun) (client : Client) : Begun :=
  { begun with listing := begun.listing.of { client with cancel := begun.listing.client.cancel } }

def IsOf (begun : Begun) (client : Client) : Prop :=
  begun.listing.client = { client with cancel := begun.listing.client.cancel }

end Begun

/-- What a program asks for.  Every operation and every listing may have a token of its own;
listings are numbered in the order in which they were begun. -/
inductive Task : Type 1 where
  | operate {Create Update : Type} (Item : Type) (decode : Json.Decode Item)
      (resource : Resource Create Update) (pathParams : List (String × String))
      (heeded : Option Token) (operation : Operation Create Update)
  | begin {Create Update : Type} (Item : Type) (decode : Json.Decode Item)
      (resource : Resource Create Update) (pathParams : List (String × String))
      (heeded : Option Token) (options : ListOptions)
  /-- Takes the next item of a listing. -/
  | next (index : Nat)
  /-- Takes all remaining items of a listing, which is over then. -/
  | rest (index : Nat)
  | cancel (token : Token)
  | cancelLater (millis : Nat) (token : Token)

inductive Answer : Type 1 where
  | outcome {Item : Type} (outcome : Outcome Item)
  | nothing

namespace Task

variable {σ τ : Type} [Transport σ] [Transport τ]

def run (client : Client) (task : Task) (begun : List Begun) (w : World σ) :
    Answer × List Begun × World σ :=
  match task with
  | .operate Item _ resource pathParams heeded operation =>
    let (outcome, w) :=
      (operation.run ⟨resource, { client with cancel := heeded }, pathParams⟩ w :
        Outcome Item × World σ)
    (.outcome outcome, begun, w)
  | .begin Item decode resource pathParams heeded options =>
    match (Collection.stream ⟨resource, { client with cancel := heeded }, pathParams⟩ options :
      Except Error (Listing Item)) with
    | .error e => (.outcome (.items (.error (.failed e)) : Outcome Item), begun, w)
    | .ok listing => (.nothing, begun ++ [⟨Item, decode, listing⟩], w)
  | .next index =>
    match begun[index]? with
    | none => (.nothing, begun, w)
    | some ⟨Item, decode, listing⟩ =>
      let (result, listing, w) := listing.next w
      (.outcome (.steps [result] none), begun.set index ⟨Item, decode, listing⟩, w)
  | .rest index =>
    match begun[index]? with
    | none => (.nothing, begun, w)
    | some ⟨_, _, listing⟩ =>
      let (items, w) := listing.collect w
      (.outcome (.items items), begun.eraseIdx index, w)
  | .cancel token => (.nothing, begun, w.cancel token)
  | .cancelLater millis token => (.nothing, begun, w.cancelLater millis token)

def runAll (client : Client) : List Task -> List Begun -> World σ -> List Answer × World σ
  | [], _, w => ([], w)
  | task :: more, begun, w =>
    let (answer, begun, w) := task.run client begun w
    let (answers, w) := runAll client more begun w
    (answer :: answers, w)

variable {client twin : Client} {R : World σ -> World τ -> Prop}
  {Q : HttpRequest -> HttpRequest -> Prop} {begun : List Begun}
  {w : World σ} {w' : World τ}

theorem run_lockstep
    (h : forall heeded, Client.Lockstep { client with cancel := heeded }
      { twin with cancel := heeded } R Q)
    (hcancel : forall {w w'}, R w w' -> forall token, R (w.cancel token) (w'.cancel token))
    (hlater : forall {w w'}, R w w' -> forall millis token,
      R (w.cancelLater millis token) (w'.cancelLater millis token))
    (hw : R w w') (hbegun : forall b, b ∈ begun -> b.IsOf client) (task : Task) :
    exists answer next v v', task.run client begun w = (answer, next, v) ∧
      task.run twin (begun.map (·.of twin)) w' = (answer, next.map (·.of twin), v') ∧
      (forall b, b ∈ next -> b.IsOf client) ∧ R v v' := by
  cases task with
  | cancel token => exact ⟨_, _, _, _, rfl, rfl, hbegun, hcancel hw token⟩
  | cancelLater millis token => exact ⟨_, _, _, _, rfl, rfl, hbegun, hlater hw millis token⟩
  | operate Item decode resource pathParams heeded operation =>
    rcases (h heeded).run (α := Item)
      (c := ⟨resource, { client with cancel := heeded }, pathParams⟩) hw rfl operation with
      ⟨outcome, v, v', hfirst, hsecond, hv⟩
    unfold run
    dsimp only
    rw [hfirst, hsecond]
    exact ⟨_, _, _, _, rfl, rfl, hbegun, hv⟩
  | begin Item decode resource pathParams heeded options =>
    rcases (h heeded).stream (α := Item)
      (c := ⟨resource, { client with cancel := heeded }, pathParams⟩) rfl options with
      ⟨e, hfirst, hsecond⟩ | ⟨listing, hfirst, hlisting, hsecond⟩
    · unfold run
      dsimp only
      rw [hfirst, hsecond]
      exact ⟨_, _, _, _, rfl, rfl, hbegun, hw⟩
    · unfold run
      dsimp only
      rw [hfirst, hsecond]
      have hnew : (⟨Item, decode, listing⟩ : Begun).IsOf client := by
        unfold Begun.IsOf
        rw [hlisting]
      refine ⟨_, _, _, _, rfl, ?_, ?_, hw⟩
      · rw [List.map_append, List.map_singleton]
        unfold Begun.of
        dsimp only
        rw [hlisting]
      · intro b hb
        rcases List.mem_append.mp hb with hold | hlast
        · exact hbegun b hold
        · rw [List.mem_singleton.mp hlast]
          exact hnew
  | next index =>
    unfold run
    dsimp only
    rw [List.getElem?_map]
    cases hb : begun[index]? with
    | none => exact ⟨_, _, _, _, rfl, rfl, hbegun, hw⟩
    | some b =>
      have hclient := hbegun b (List.mem_of_getElem? hb)
      rcases b with ⟨Item, decode, listing⟩
      rcases (h listing.client.cancel).nextWithin hw hclient listing.pagesLeft with
        ⟨result, next, v, v', hfirst, hsecond, hnext, hv⟩
      have hfirst' : listing.next w = (result, next, v) := hfirst
      have hsecond' : (listing.of { twin with cancel := listing.client.cancel }).next w' =
        (result, next.of { twin with cancel := listing.client.cancel }, v') := hsecond
      have hcancel : next.client.cancel = listing.client.cancel := by rw [hnext]
      unfold Begun.of
      dsimp only [Option.map]
      rw [hfirst', hsecond']
      refine ⟨_, _, _, _, rfl, ?_, ?_, hv⟩
      · rw [List.map_set, hcancel]
      · intro b hb
        rcases List.mem_or_eq_of_mem_set hb with hold | hset
        · exact hbegun b hold
        · rw [hset]
          unfold Begun.IsOf
          dsimp only
          rw [hcancel]
          exact hnext
  | rest index =>
    unfold run
    dsimp only
    rw [List.getElem?_map]
    cases hb : begun[index]? with
    | none => exact ⟨_, _, _, _, rfl, rfl, hbegun, hw⟩
    | some b =>
      have hclient := hbegun b (List.mem_of_getElem? hb)
      rcases b with ⟨Item, decode, listing⟩
      rcases (h listing.client.cancel).collect hw hclient with
        ⟨items, v, v', hfirst, hsecond, hv⟩
      unfold Begun.of
      dsimp only [Option.map]
      rw [hfirst, hsecond]
      refine ⟨_, _, _, _, rfl, ?_, ?_, hv⟩
      · rw [List.eraseIdx_map]
      · intro b hb
        exact hbegun b (List.mem_of_mem_eraseIdx hb)

theorem runAll_lockstep
    (h : forall heeded, Client.Lockstep { client with cancel := heeded }
      { twin with cancel := heeded } R Q)
    (hcancel : forall {w w'}, R w w' -> forall token, R (w.cancel token) (w'.cancel token))
    (hlater : forall {w w'}, R w w' -> forall millis token,
      R (w.cancelLater millis token) (w'.cancelLater millis token))
    (hw : R w w') (hbegun : forall b, b ∈ begun -> b.IsOf client) (tasks : List Task) :
    exists answers v v', runAll client tasks begun w = (answers, v) ∧
      runAll twin tasks (begun.map (·.of twin)) w' = (answers, v') ∧ R v v' := by
  induction tasks generalizing begun w w' with
  | nil => exact ⟨_, _, _, rfl, rfl, hw⟩
  | cons task more ih =>
    rcases task.run_lockstep h hcancel hlater hw hbegun with
      ⟨answer, next, v, v', hfirst, hsecond, hnext, hv⟩
    rcases ih hv hnext with ⟨answers, u, u', hfirst', hsecond', hu⟩
    unfold runAll
    rw [hfirst, hsecond]
    dsimp only
    rw [hfirst', hsecond']
    exact ⟨_, _, _, rfl, rfl, hu⟩

end Task
end RestClient
