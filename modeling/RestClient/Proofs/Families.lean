import Mathlib.Data.List.Induction
import Mathlib.Data.List.Nodup
import RestClient.Cancel.Steps
import RestClient.Proofs.Cancellation

/-!
# Families

The handles that come from one new token by cloning share its cancellation, whatever names they have
had since.  A family that was canceled stays so, and no other family is.
-/

namespace RestClient
namespace Handles

variable {steps : List Step} {handles : Handles} {births : List Nat} {next : Step}
  {name target : String} {birth : Nat}

/-!
## Histories
-/

/-- The number of the step that made the family of the handle with this name, found by following
the history back from its last step. -/
def traceBack : List Step -> String -> Option Nat
  | [], _ => none
  | .create target :: earlier, name | .default target :: earlier, name =>
    if name = target then some earlier.length else traceBack earlier name
  | .clone source target :: earlier, name =>
    -- Without a handle to clone, the name keeps the one that it has.
    if name = target then (traceBack earlier source).or (traceBack earlier target)
    else traceBack earlier name
  | .cancel _ :: earlier, name => traceBack earlier name

def origin? (steps : List Step) (name : String) : Option Nat := traceBack steps.reverse name

/-- Some handle of the family that this step made was canceled. -/
def WasCanceled (steps : List Step) (birth : Nat) : Prop :=
  exists earlier name later, steps = earlier ++ Step.cancel name :: later ∧
    origin? earlier name = some birth

theorem origin?_snoc (steps : List Step) (next : Step) (name : String) :
    origin? (steps ++ [next]) name = traceBack (next :: steps.reverse) name := by
  unfold origin?
  rw [List.reverse_append]
  rfl

theorem origin?_of_creates (h : next.creates? = some target) (steps : List Step) (name : String) :
    origin? (steps ++ [next]) name =
      if name = target then some steps.length else origin? steps name := by
  rw [origin?_snoc]
  cases next with
  | create | default =>
    cases h
    rw [traceBack, List.length_reverse]
    rfl
  | clone | cancel => cases h

theorem origin?_clone (steps : List Step) (source target name : String) :
    origin? (steps ++ [.clone source target]) name =
      if name = target then (origin? steps source).or (origin? steps target)
      else origin? steps name := by
  rw [origin?_snoc, traceBack]
  rfl

theorem origin?_cancel (steps : List Step) (target name : String) :
    origin? (steps ++ [.cancel target]) name = origin? steps name := by
  rw [origin?_snoc, traceBack]
  rfl

theorem lt_of_origin? (h : origin? steps name = some birth) : birth < steps.length := by
  induction steps using List.reverseRecOn generalizing name with
  | nil => cases h
  | append_singleton steps next ih =>
    rw [List.length_append, List.length_singleton]
    cases next with
    | create target | default target =>
      rw [origin?_of_creates rfl] at h
      split at h
      · cases h
        exact Nat.lt_succ_self _
      · exact Nat.lt_succ_of_lt (ih h)
    | clone source target =>
      rw [origin?_clone] at h
      split at h
      · rcases Option.or_eq_some_iff.mp h with h | ⟨-, h⟩
        · exact Nat.lt_succ_of_lt (ih h)
        · exact Nat.lt_succ_of_lt (ih h)
      · exact Nat.lt_succ_of_lt (ih h)
    | cancel target =>
      rw [origin?_cancel] at h
      exact Nat.lt_succ_of_lt (ih h)

theorem wasCanceled_snoc : WasCanceled (steps ++ [next]) birth <->
    WasCanceled steps birth ∨
      exists name, next = .cancel name ∧ origin? steps name = some birth := by
  constructor
  · rintro ⟨earlier, name, later, hsteps, horigin⟩
    rcases List.eq_nil_or_concat later with rfl | ⟨rest, last, rfl⟩
    · rcases List.append_inj' hsteps rfl with ⟨rfl, hlast⟩
      exact Or.inr ⟨name, (List.cons.inj hlast).1, horigin⟩
    · have hsnoc : steps ++ [next] = (earlier ++ Step.cancel name :: rest) ++ [last] := by
        simpa using hsteps
      rcases List.append_inj' hsnoc rfl with ⟨rfl, -⟩
      exact Or.inl ⟨earlier, name, rest, rfl, horigin⟩
  · rintro (⟨earlier, name, later, rfl, horigin⟩ | ⟨name, rfl, horigin⟩)
    · exact ⟨earlier, name, later ++ [next], by simp, horigin⟩
    · exact ⟨steps, name, [], rfl, horigin⟩

theorem wasCanceled_snoc_of_ne (h : forall name, next ≠ .cancel name) :
    WasCanceled (steps ++ [next]) birth <-> WasCanceled steps birth := by
  rw [wasCanceled_snoc]
  exact or_iff_left fun ⟨name, hnext, _⟩ => h name hnext

theorem WasCanceled.lt (h : WasCanceled steps birth) : birth < steps.length := by
  rcases h with ⟨earlier, name, later, rfl, horigin⟩
  have hbirth := lt_of_origin? horigin
  rw [List.length_append]
  omega

/-!
## Shared cells
-/

/-- The families were made by these steps, in this order; every handle is on the family that its
history tells, and those families are canceled of which some handle was. -/
structure Tracks (steps : List Step) (handles : Handles) (births : List Nat) : Prop where
  created : handles.tokens.created = births.length
  nodup : births.Nodup
  early : forall birth, birth ∈ births -> birth < steps.length
  known : forall {name token}, handles.get? name = some token -> token.family < births.length
  origin :
    forall name, origin? steps name = (handles.get? name).bind fun token => births[token.family]?
  canceled_known : forall family, family ∈ handles.tokens.canceled -> family < births.length
  canceled : forall {family birth}, births[family]? = some birth ->
    (family ∈ handles.tokens.canceled <-> WasCanceled steps birth)

namespace Tracks

theorem nil : Tracks [] .empty [] where
  created := rfl
  nodup := List.nodup_nil
  early := by simp
  known := by simp [empty, get?, Assoc.get?]
  origin _ := rfl
  canceled_known := by simp [empty, Tokens.none]
  canceled := by simp

theorem early_snoc (h : Tracks steps handles births) (next : Step) :
    forall birth, birth ∈ births -> birth < (steps ++ [next]).length := by
  intro birth hbirth
  rw [List.length_append]
  exact Nat.lt_add_right _ (h.early birth hbirth)

theorem create (h : Tracks steps handles births) (hnext : next.creates? = some target) :
    Tracks (steps ++ [next]) (handles.create target) (births ++ [steps.length]) where
  created := by
    rw [List.length_append]
    exact congrArg (· + 1) h.created
  nodup := by
    rw [List.nodup_append]
    refine ⟨h.nodup, by simp, ?_⟩
    rintro birth hbirth other hother rfl
    exact absurd (h.early birth hbirth) (by simp [List.mem_singleton.mp hother])
  early birth hbirth := by
    rcases List.mem_append.mp hbirth with hbirth | hbirth
    · exact h.early_snoc next birth hbirth
    · rw [List.mem_singleton.mp hbirth, List.length_append]
      exact Nat.lt_succ_self _
  known {name token} htoken := by
    rw [List.length_append]
    rw [get?_create] at htoken
    split at htoken
    · cases htoken
      rw [h.created]
      exact Nat.lt_succ_self _
    · exact Nat.lt_succ_of_lt (h.known htoken)
  origin name := by
    rw [origin?_of_creates hnext, get?_create]
    split
    · rw [Option.bind_some, h.created, List.getElem?_concat_length]
    · rw [h.origin]
      apply Option.bind_congr
      intro token htoken
      rw [List.getElem?_append_left (h.known htoken)]
  canceled_known family hfamily := by
    rw [List.length_append]
    exact Nat.lt_succ_of_lt (h.canceled_known family hfamily)
  canceled {family birth} hbirth := by
    have hkept : forall name, next ≠ .cancel name := by
      rintro name rfl
      cases hnext
    rw [wasCanceled_snoc_of_ne hkept]
    rcases Nat.lt_or_ge family births.length with hlt | hge
    · rw [List.getElem?_append_left hlt] at hbirth
      exact h.canceled hbirth
    · -- The new family is neither on the list nor in the history.
      have hnew : birth = steps.length := by
        rw [List.getElem?_append_right hge] at hbirth
        exact List.mem_singleton.mp (List.mem_of_getElem? hbirth)
      apply iff_of_false
      · intro hfamily
        exact absurd (h.canceled_known family hfamily) (Nat.not_lt_of_le hge)
      · intro hcanceled
        exact absurd hcanceled.lt (by simp [hnew])

theorem clone (h : Tracks steps handles births) (source target : String) :
    Tracks (steps ++ [.clone source target]) (handles.clone source target) births where
  created := by rw [tokens_clone, h.created]
  nodup := h.nodup
  early := h.early_snoc _
  known {name token} htoken := by
    rw [get?_clone] at htoken
    split at htoken
    · rcases Option.or_eq_some_iff.mp htoken with htoken | ⟨-, htoken⟩
      · exact h.known htoken
      · exact h.known htoken
    · exact h.known htoken
  origin name := by
    rw [origin?_clone, get?_clone]
    split
    · rw [h.origin source, h.origin target]
      cases hsource : handles.get? source with
      | none => rfl
      | some token =>
        rw [Option.bind_some, Option.some_or, Option.bind_some,
          List.getElem?_eq_getElem (h.known hsource), Option.some_or]
    · exact h.origin name
  canceled_known := by
    rw [tokens_clone]
    exact h.canceled_known
  canceled {family birth} hbirth := by
    rw [wasCanceled_snoc_of_ne (by simp), tokens_clone]
    exact h.canceled hbirth

theorem family_eq_iff (h : Tracks steps handles births) {family other : Nat}
    (hfamily : births[family]? = some birth) (hother : other < births.length) :
    family = other <-> births[other] = birth := by
  rcases List.getElem?_eq_some_iff.mp hfamily with ⟨hlt, rfl⟩
  rw [h.nodup.getElem_inj_iff]
  exact eq_comm

theorem cancel (h : Tracks steps handles births) (target : String) :
    Tracks (steps ++ [.cancel target]) (handles.cancel target) births := by
  have hcanceled : forall {birth}, WasCanceled (steps ++ [.cancel target]) birth <->
      WasCanceled steps birth ∨ origin? steps target = some birth := by
    intro birth
    rw [wasCanceled_snoc]
    simp
  have horigin : forall name, origin? (steps ++ [.cancel target]) name =
      (handles.get? name).bind fun token => births[token.family]? := by
    intro name
    rw [origin?_cancel, h.origin]
  unfold Handles.cancel
  cases htarget : handles.get? target with
  | none =>
    have hnone : origin? steps target = none := by
      rw [h.origin, htarget, Option.bind_none]
    refine ⟨h.created, h.nodup, h.early_snoc _, h.known, horigin, h.canceled_known, ?_⟩
    intro family birth hbirth
    rw [hcanceled, hnone, h.canceled hbirth]
    simp
  | some token =>
    have hlt := h.known htarget
    have hsome : origin? steps target = some births[token.family] := by
      rw [h.origin, htarget, Option.bind_some, List.getElem?_eq_getElem hlt]
    refine ⟨h.created, h.nodup, h.early_snoc _, h.known, horigin, ?_, ?_⟩
    · intro family hfamily
      rcases List.mem_cons.mp hfamily with rfl | hfamily
      · exact hlt
      · exact h.canceled_known family hfamily
    · intro family birth hbirth
      rw [hcanceled, hsome, Option.some.injEq, ← h.family_eq_iff hbirth hlt,
        ← h.canceled hbirth, or_comm]
      exact List.mem_cons

theorem step (h : Tracks steps handles births) (next : Step) :
    exists births', Tracks (steps ++ [next]) (handles.step next) births' := by
  cases next with
  | create target | default target => exact ⟨_, h.create rfl⟩
  | clone source target => exact ⟨_, h.clone source target⟩
  | cancel target => exact ⟨_, h.cancel target⟩

end Tracks

theorem exists_tracks (steps : List Step) : exists births, Tracks steps (run steps) births := by
  induction steps using List.reverseRecOn with
  | nil => exact ⟨[], .nil⟩
  | append_singleton steps next ih =>
    rcases ih with ⟨births, h⟩
    rw [run_snoc]
    exact h.step next

/-- A handle is canceled if some handle of its family was. -/
theorem isCanceled_run_iff (steps : List Step) (name : String) :
    (run steps).isCanceled name = true <->
      exists birth, origin? steps name = some birth ∧ WasCanceled steps birth := by
  rcases exists_tracks steps with ⟨births, h⟩
  unfold isCanceled
  rw [h.origin]
  cases hname : (run steps).get? name with
  | none => simp
  | some token =>
    have hbirth := List.getElem?_eq_getElem (h.known hname)
    dsimp only
    rw [Option.bind_some, hbirth]
    unfold Tokens.isCanceled
    rw [List.contains_iff_mem, h.canceled hbirth]
    simp

end Handles

/-!
## Waiting for a cancellation
-/

namespace World

variable {σ : Type}

/-- To wait for the token's cancellation, and for nothing else, ends at once. -/
def ResolvesAtOnce (w : World σ) (token : Token) : Prop :=
  w.wait (some token) none none = (.canceled, w)

def NothingDue (w : World σ) : Prop := forall entry, entry ∈ w.scheduled -> w.now < entry.1

theorem advance_now {w : World σ} (h : w.NothingDue) : w.advance w.now = w := by
  have hdue : (w.scheduled.filter fun entry => entry.1 ≤ w.now) = [] := by
    rw [List.filter_eq_nil_iff]
    intro entry hentry
    simpa using h entry hentry
  have hlater : (w.scheduled.filter fun entry => w.now < entry.1) = w.scheduled := by
    rw [List.filter_eq_self]
    intro entry hentry
    simpa using h entry hentry
  unfold advance
  rw [hdue, hlater, Nat.max_self]
  simp

theorem wait_eq (w : World σ) (token : Token) :
    w.wait (some token) none none = (w.cancelTime? (some token)).elim (.never, w)
      fun time => (.canceled, w.advance (max w.now time)) := by
  unfold wait
  cases w.cancelTime? (some token) <;> rfl

theorem resolvesAtOnce_iff {w : World σ} (h : w.NothingDue) (token : Token) :
    w.ResolvesAtOnce token <-> w.isCanceled (some token) = true := by
  unfold ResolvesAtOnce
  rw [wait_eq]
  cases hcanceled : w.isCanceled (some token) with
  | true =>
    unfold cancelTime?
    rw [if_pos hcanceled, Option.elim_some, Nat.max_self, advance_now h]
    exact iff_of_true rfl rfl
  | false =>
    refine iff_of_false ?_ Bool.false_ne_true
    cases htime : w.cancelTime? (some token) with
    | none => simp
    | some time =>
      have hlate : w.now + 1 ≤ time :=
        Client.le_cancelTime? hcanceled (fun entry hentry _ => h entry hentry) htime
      rw [Option.elim_some]
      -- The clock moves to the scheduled time.
      intro heq
      have hmoved : max w.now (max w.now time) = w.now :=
        congrArg (fun outcome : Waking × World σ => outcome.2.now) heq
      omega

end World

namespace Handles

/-- The handles of one family are canceled together, at whatever time and through whatever handle
that happens, and stay canceled.  Waiting for it ends at once then.  Handles on other families are
not touched, and neither is any handle by what becomes of other names. -/
theorem cancellation_is_shared_and_permanent (steps : List Step) :
    (forall name, (run steps).isCanceled name = true <->
        exists birth, origin? steps name = some birth ∧ WasCanceled steps birth) ∧
      (forall {σ : Type} (w : World σ) {name : String} {token : Token},
        (run steps).get? name = some token -> w.tokens = (run steps).tokens -> w.NothingDue ->
        (w.ResolvesAtOnce token <-> (run steps).isCanceled name = true)) ∧
      (forall token more, (run steps).tokens.isCanceled token = true ->
        (run (steps ++ more)).tokens.isCanceled token = true) ∧
      (forall next target, next.target? = some target ->
        (forall token, (run (steps ++ [next])).tokens.isCanceled token =
          (run steps).tokens.isCanceled token) ∧
        forall name, name ≠ target -> (run (steps ++ [next])).get? name = (run steps).get? name ∧
          (run (steps ++ [next])).isCanceled name = (run steps).isCanceled name) ∧
      forall name other, origin? steps other ≠ origin? steps name ->
        (run (steps ++ [.cancel other])).isCanceled name = (run steps).isCanceled name := by
  refine ⟨isCanceled_run_iff steps, ?_, ?_, ?_, ?_⟩
  · intro σ w name token htoken htokens hdue
    rw [World.resolvesAtOnce_iff hdue]
    unfold isCanceled World.isCanceled
    rw [htoken, htokens]
    rfl
  · intro token more hcanceled
    rw [run_append]
    exact isCanceled_foldl hcanceled more
  · intro next target htarget
    rw [run_snoc]
    have hcanceled : forall token, ((run steps).step next).tokens.isCanceled token =
        (run steps).tokens.isCanceled token := by
      intro token
      unfold Tokens.isCanceled
      rw [canceled_step_of_target htarget]
    refine ⟨hcanceled, ?_⟩
    intro name hname
    have hkept : ((run steps).step next).get? name = (run steps).get? name := by
      apply get?_step_of_ne
      rw [htarget]
      exact fun heq => hname (Option.some.inj heq).symm
    refine ⟨hkept, ?_⟩
    unfold isCanceled
    rw [hkept]
    cases (run steps).get? name with
    | none => rfl
    | some token => exact hcanceled token
  · intro name other hother
    rw [Bool.eq_iff_iff, isCanceled_run_iff, isCanceled_run_iff]
    apply exists_congr
    intro birth
    rw [origin?_cancel, wasCanceled_snoc, and_congr_right_iff]
    intro hbirth
    apply or_iff_left
    rintro ⟨_, heq, horigin⟩
    cases heq
    exact hother (horigin.trans hbirth.symm)

end Handles

namespace Sample

open Handles

def handleSteps : List Step := [.create "a", .clone "a" "b", .default "c", .cancel "b"]

theorem clone_cancels_its_source :
    (run handleSteps).isCanceled "a" = true ∧
      { world [] with tokens := (run handleSteps).tokens }.ResolvesAtOnce token ∧
      (run (handleSteps ++ [.create "b"])).tokens.isCanceled token = true ∧
      (run (handleSteps ++ [.create "b"])).isCanceled "a" = true ∧
      (run handleSteps).isCanceled "c" = false := by
  have hshared := cancellation_is_shared_and_permanent handleSteps
  have ha : (run handleSteps).isCanceled "a" = true := by
    rw [hshared.1]
    exact ⟨0, by decide, [.create "a", .clone "a" "b", .default "c"], "b", [], rfl, by decide⟩
  refine ⟨ha, ?_, ?_, ?_, ?_⟩
  · have htoken : (run handleSteps).get? "a" = some token := by decide
    rw [hshared.2.1 _ htoken rfl (by simp [World.NothingDue, world, World.initial])]
    exact ha
  · exact hshared.2.2.1 token _ (by decide)
  · rw [((hshared.2.2.2.1 (.create "b") "b" rfl).2 "a" (by decide)).2]
    exact ha
  · exact (cancellation_is_shared_and_permanent [.create "a", .clone "a" "b", .default "c"]).2.2.2.2
      "c" "b" (by decide)

end Sample
end RestClient
