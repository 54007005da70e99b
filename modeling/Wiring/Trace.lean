import Wiring.Location

/-!
# Procedure traces

What a procedure does with scopes and providers, as events in the blocks of its control-flow graph,
and the assignments to members that may cache a provider.
-/

namespace Wiring

/-- What a handle refers to. -/
inductive HandleKind where
  /-- A scope of the container. -/
  | scope
  /-- A provider that the procedure builds for itself. -/
  | rootProvider
deriving DecidableEq, Repr, Inhabited

/-- How a handle is acquired. -/
inductive Acquisition where
  /-- By plain assignment, so that only explicit disposal releases it. -/
  | manual
  /-- In a statement that releases it on every way out. -/
  | usingStatement
  /-- In a statement that releases it asynchronously on every way out. -/
  | awaitUsing
deriving DecidableEq, Repr, Inhabited

/-- Whether the language releases the handle by itself. -/
def Acquisition.isGuarded : Acquisition → Bool
  | .manual => false
  | _ => true

/-- Where an escaping value goes. -/
inductive EscapeSink where
  | returned
  | fieldStore
  | outerCapture
deriving DecidableEq, Repr, Inhabited

/-- The words for an escape in a message. -/
def EscapeSink.describe : EscapeSink → String
  | .returned => "returned"
  | .fieldStore => "stored in a field"
  | .outerCapture => "captured by an outer closure"

/-- An event in program order. -/
inductive Event where
  /-- A scope or provider is created. -/
  | create (handle : String) (kind : HandleKind) (isAsync : Bool) (acquisition : Acquisition)
      (location : Location)
  /-- A handle is disposed, explicitly or at the end of its statement. -/
  | dispose (handle : String) (location : Location)
  /-- A value is resolved from a handle. -/
  | resolve (handle : String) (result : String) (location : Location)
  /-- A value leaves the procedure. -/
  | escape (value : String) (sink : EscapeSink) (location : Location)
  /-- A value is used. -/
  | use (value : String) (location : Location)
deriving DecidableEq, Repr, Inhabited

/-- A basic block. -/
structure Block where
  events : List Event
  /-- The blocks that may follow, by number. -/
  successors : List UInt64
deriving DecidableEq, Repr, Inhabited

namespace Block

/-- The numbers of the blocks that may follow. -/
def targets (b : Block) : List Nat :=
  b.successors.map UInt64.toNat

/-- A block without successors leaves the procedure. -/
def isExit (b : Block) : Bool :=
  b.successors.isEmpty

end Block

/-- The trace of one procedure; block 0 is the entry. -/
structure Procedure where
  name : String
  isAsync : Bool
  blocks : List Block
deriving DecidableEq, Repr, Inhabited

namespace Procedure

/-- A procedure without branches. -/
def linear (name : String) (isAsync : Bool) (events : List Event) : Procedure :=
  ⟨name, isAsync, [⟨events, []⟩]⟩

/-- All events in block order. -/
def events (p : Procedure) : List Event :=
  p.blocks.flatMap Block.events

/-- The number of events in all blocks. -/
def eventCount (p : Procedure) : Nat :=
  p.events.length

end Procedure

/-- Where a member lives. -/
inductive Storage where
  /-- Once for the process. -/
  | shared
  /-- Once for each instance. -/
  | perInstance
deriving DecidableEq, Repr, Inhabited

/-- What is assigned to a member. -/
inductive ValueKind where
  | serviceProvider
  | scopeFactory
  | other
deriving DecidableEq, Repr, Inhabited

/-- An assignment to a field or property. -/
structure StaticAssignment where
  member : String
  storage : Storage
  valueKind : ValueKind
  location : Location
deriving DecidableEq, Repr, Inhabited

end Wiring
