import RestClient.Assoc

/-!
# Cancellation

A token belongs to a family; all its clones are the same token.  Canceling a token cancels its
whole family for good.
-/

namespace RestClient

structure Token where
  family : Nat
deriving DecidableEq

/-- All families: how many there are, and which of them are canceled. -/
structure Tokens where
  created : Nat
  canceled : List Nat
deriving DecidableEq

namespace Tokens

def none : Tokens := ⟨0, []⟩

def fresh (tokens : Tokens) : Token × Tokens :=
  (⟨tokens.created⟩, { tokens with created := tokens.created + 1 })

def cancel (tokens : Tokens) (token : Token) : Tokens :=
  { tokens with canceled := token.family :: tokens.canceled }

def isCanceled (tokens : Tokens) (token : Token) : Bool := tokens.canceled.contains token.family

theorem isCanceled_cancel (tokens : Tokens) (token other : Token) :
    (tokens.cancel token).isCanceled other = (other == token || tokens.isCanceled other) := by
  cases token with
  | mk n =>
    cases other with
    | mk m =>
      by_cases h : m = n
      · simp [cancel, isCanceled, h]
      · simp [cancel, isCanceled, h]

end Tokens

/-!
## Named handles
-/

/-- Tokens under names, in the order in which the names were first used. -/
structure Handles where
  tokens : Tokens
  named : List (String × Token)
deriving DecidableEq

namespace Handles

def empty : Handles := ⟨.none, []⟩

def get? (handles : Handles) (name : String) : Option Token :=
  Assoc.get? handles.named name

def put (handles : Handles) (name : String) (token : Token) : Handles :=
  { handles with
    named :=
      if (handles.get? name).isSome then
        handles.named.map fun entry => if entry.1 = name then (name, token) else entry
      else handles.named ++ [(name, token)] }

def create (handles : Handles) (name : String) : Handles :=
  let (token, tokens) := handles.tokens.fresh
  { handles with tokens }.put name token

def clone (handles : Handles) (source target : String) : Handles :=
  match handles.get? source with
  | some token => handles.put target token
  | none => handles

def cancel (handles : Handles) (name : String) : Handles :=
  match handles.get? name with
  | some token => { handles with tokens := handles.tokens.cancel token }
  | none => handles

def isCanceled (handles : Handles) (name : String) : Bool :=
  match handles.get? name with
  | some token => handles.tokens.isCanceled token
  | none => false

end Handles
end RestClient
