import Wiring.Error

/-!
# Cancellation

Tokens tell a running analysis to stop. A token is cancelled when this was asked of it, when its
deadline has come, or when its parent is cancelled. What has been asked is kept apart from the
tokens, so that all holders of a token see it.
-/

namespace Wiring

/-- A token, by the number it was given when it was made. -/
inductive Token where
  /-- A token without a parent, with a deadline if it has one. -/
  | root (id : Nat) (deadline : Option Nat)
  /-- A token that is cancelled with its parent. -/
  | child (id : Nat) (parent : Token)
deriving DecidableEq, Repr, Inhabited

namespace Token

/-- The number of a token. -/
def id : Token → Nat
  | .root i _ => i
  | .child i _ => i

/-- The deadline of a token itself. -/
def deadline : Token → Option Nat
  | .root _ d => d
  | .child _ _ => none

/-- The token, its parent, the parent of that, and so on. -/
def lineage : Token → List Token
  | .root i d => [.root i d]
  | .child i p => .child i p :: p.lineage

/-- Whether a deadline has come. -/
def isDue (now : Nat) : Option Nat → Bool
  | none => false
  | some d => d ≤ now

/-- Whether a token is cancelled at a time, given the tokens that were asked to be. -/
def isCancelled (requested : List Nat) (now : Nat) : Token → Bool
  | .root i d => requested.contains i || isDue now d
  | .child i p => requested.contains i || p.isCancelled requested now

end Token

/-- The tokens made so far and the numbers of those that were asked to be cancelled. A token that
was cloned is listed more than once. -/
structure Tokens where
  issued : List Token
  requested : List Nat
deriving DecidableEq, Repr, Inhabited

/-- What can be done with tokens, which are named by their place in the list. -/
inductive TokenStep where
  | create (deadline : Option Nat)
  | child (of : Nat)
  | clone (of : Nat)
  | cancel (of : Nat)
deriving DecidableEq, Repr

namespace Tokens

/-- No tokens yet. -/
def empty : Tokens :=
  ⟨[], []⟩

/-- Adds a token to the list. -/
def issue (ts : Tokens) (t : Token) : Tokens :=
  { ts with issued := ts.issued ++ [t] }

/-- Asks for the cancellation of a token. -/
def cancel (ts : Tokens) (t : Token) : Tokens :=
  { ts with requested := t.id :: ts.requested }

/-- Takes a step, which fails if the token that it names is not there. -/
def step? (ts : Tokens) : TokenStep → Option Tokens
  | .create deadline => some (ts.issue (.root ts.issued.length deadline))
  | .child i => ts.issued[i]?.map (fun t => ts.issue (.child ts.issued.length t))
  | .clone i => ts.issued[i]?.map ts.issue
  | .cancel i => ts.issued[i]?.map ts.cancel

/-- The tokens after some steps, all of which have to be possible. -/
def after? (steps : List TokenStep) : Option Tokens :=
  steps.foldlM step? empty

/-- Whether a token is cancelled. -/
def isCancelled (ts : Tokens) (now : Nat) (t : Token) : Bool :=
  t.isCancelled ts.requested now

/-- Fails if a token is cancelled. -/
def ensureActive (ts : Tokens) (now : Nat) (t : Token) : Except Error Unit :=
  if ts.isCancelled now t then .error .cancelled else .ok ()

end Tokens

end Wiring
