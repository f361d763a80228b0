import RestClient.Cancel

/-!
# Steps with named handles

Handles on tokens are made, cloned, replaced and canceled in any order.  A name that is used again
lets go of the handle that it had.
-/

namespace RestClient
namespace Handles

variable {handles : Handles} {name target : String}

inductive Step where
  /-- The name gets a token of a new family. -/
  | create (name : String)
  /-- The name gets the default token, which is a new one. -/
  | default (name : String)
  | clone (source target : String)
  | cancel (name : String)
deriving DecidableEq

namespace Step

def creates? : Step -> Option String
  | .create name | .default name => some name
  | .clone _ _ | .cancel _ => none

def target? : Step -> Option String
  | .create name | .default name | .clone _ name => some name
  | .cancel _ => none

end Step

def step (handles : Handles) : Step -> Handles
  | .create name | .default name => handles.create name
  | .clone source target => handles.clone source target
  | .cancel name => handles.cancel name

def run (steps : List Step) : Handles := steps.foldl step .empty

theorem run_append (steps more : List Step) : run (steps ++ more) = more.foldl step (run steps) :=
  List.foldl_append

theorem run_snoc (steps : List Step) (next : Step) :
    run (steps ++ [next]) = (run steps).step next :=
  run_append steps [next]

theorem get?_replace (entries : List (String × Token)) (name : String) (token : Token)
    (other : String) :
    Assoc.get? (entries.map fun entry => if entry.1 = name then (name, token) else entry) other =
      if other = name then (Assoc.get? entries name).map fun _ => token
      else Assoc.get? entries other := by
  unfold Assoc.get?
  induction entries with
  | nil => simp
  | cons entry rest ih =>
    rw [List.map_cons, List.find?_cons, List.find?_cons, List.find?_cons]
    by_cases hentry : entry.1 = name
    · by_cases hother : other = name
      · simp [hentry, hother]
      · simpa [hentry, hother, Ne.symm hother] using ih
    · by_cases hother : other = name
      · simpa [hentry, hother] using ih
      · by_cases hfound : entry.1 = other
        · simp [hother, hfound]
        · simpa [hentry, hother, hfound] using ih

theorem get?_put (handles : Handles) (name : String) (token : Token) (other : String) :
    (handles.put name token).get? other =
      if other = name then some token else handles.get? other := by
  unfold put
  by_cases hknown : (handles.get? name).isSome = true
  · rw [if_pos hknown]
    unfold get? at hknown ⊢
    rw [get?_replace]
    split
    · rcases Option.isSome_iff_exists.mp hknown with ⟨held, hheld⟩
      rw [hheld, Option.map_some]
    · rfl
  · rw [if_neg hknown]
    unfold get? at hknown ⊢
    rw [Assoc.get?_append]
    by_cases hother : other = name
    · rw [if_pos hother, hother, Option.not_isSome_iff_eq_none.mp hknown]
      simp [Assoc.get?]
    · have hlast : Assoc.get? [(name, token)] other = none := by
        simp [Assoc.get?, Ne.symm hother]
      rw [if_neg hother, hlast, Option.or_none]

theorem get?_create (handles : Handles) (name other : String) :
    (handles.create name).get? other =
      if other = name then some ⟨handles.tokens.created⟩ else handles.get? other :=
  get?_put { handles with tokens := handles.tokens.fresh.2 } name _ other

theorem get?_clone (handles : Handles) (source target other : String) :
    (handles.clone source target).get? other =
      if other = target then (handles.get? source).or (handles.get? target)
      else handles.get? other := by
  unfold clone
  cases handles.get? source with
  | none =>
    dsimp only
    rw [Option.none_or]
    split
    · rename_i hother
      rw [hother]
    · rfl
  | some token => exact get?_put handles target token other

theorem tokens_clone (handles : Handles) (source target : String) :
    (handles.clone source target).tokens = handles.tokens := by
  unfold clone
  cases handles.get? source <;> rfl

theorem get?_cancel (handles : Handles) (name other : String) :
    (handles.cancel name).get? other = handles.get? other := by
  unfold cancel
  cases handles.get? name <;> rfl

/-!
## What a step leaves alone
-/

theorem isCanceled_step {token : Token} (h : handles.tokens.isCanceled token = true) (next : Step) :
    (handles.step next).tokens.isCanceled token = true := by
  cases next with
  | create | default => exact h
  | clone source target =>
    unfold step
    dsimp only
    rw [tokens_clone]
    exact h
  | cancel target =>
    unfold step cancel
    dsimp only
    cases handles.get? target with
    | none => exact h
    | some other =>
      dsimp only
      rw [Tokens.isCanceled_cancel, h, Bool.or_true]

theorem isCanceled_foldl {token : Token} (h : handles.tokens.isCanceled token = true)
    (more : List Step) : (more.foldl step handles).tokens.isCanceled token = true := by
  induction more generalizing handles with
  | nil => exact h
  | cons next more ih => exact ih (isCanceled_step h next)

theorem get?_step_of_ne {next : Step} (h : next.target? ≠ some name) :
    (handles.step next).get? name = handles.get? name := by
  cases next with
  | create target | default target =>
    have hne : name ≠ target := fun heq => h (congrArg some heq.symm)
    exact (get?_create handles target name).trans (if_neg hne)
  | clone source target =>
    have hne : name ≠ target := fun heq => h (congrArg some heq.symm)
    exact (get?_clone handles source target name).trans (if_neg hne)
  | cancel target => exact get?_cancel handles target name

theorem canceled_step_of_target {next : Step} (h : next.target? = some target) :
    (handles.step next).tokens.canceled = handles.tokens.canceled := by
  cases next with
  | create | default => rfl
  | clone source other => exact congrArg Tokens.canceled (tokens_clone handles source other)
  | cancel => cases h

end Handles
end RestClient
