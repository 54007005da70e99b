import Wiring.Error
import Wiring.Trace

/-!
# Handles of a procedure

The handles that a procedure creates, the values resolved from them, and the traces that make sense:
every successor is a block, and every handle that is disposed or resolved from is created somewhere.
-/

namespace Wiring

/-- A handle as its first creation describes it. -/
structure Handle where
  name : String
  kind : HandleKind
  isAsync : Bool
  acquisition : Acquisition
  createdAt : Location
deriving DecidableEq, Repr, Inhabited

/-- The handle that an event creates. -/
def Event.created? : Event → Option Handle
  | .create name kind isAsync acquisition location =>
    some ⟨name, kind, isAsync, acquisition, location⟩
  | _ => none

/-- The handle that an event needs. -/
def Event.needs? : Event → Option String
  | .dispose h _ => some h
  | .resolve h _ _ => some h
  | _ => none

namespace Handle

/-- The handles that events create beside those with the given names, each as it is first created.
-/
def createdBy (known : List String) : List Event → List Handle
  | [] => []
  | e :: es =>
    match e.created? with
    | some h =>
      if known.contains h.name then createdBy known es else h :: createdBy (h.name :: known) es
    | none => createdBy known es

/-- The handle of a name. -/
def find? (hs : List Handle) (name : String) : Option Handle :=
  hs.find? (fun h => h.name == name)

end Handle

namespace Procedure

/-- The handles of a procedure in the order of their first creation. -/
def handles (p : Procedure) : List Handle :=
  Handle.createdBy [] p.events

/-- The name of the handle that the last event to resolve the value takes it from. -/
def derivedFrom? (value : String) : List Event → Option String
  | [] => none
  | e :: es =>
    match derivedFrom? value es with
    | some h => some h
    | none =>
      match e with
      | .resolve h r _ => if r = value then some h else none
      | _ => none

/-- The first block with a successor that is no block, and its first such successor. -/
def malformed? (p : Procedure) : Option (Nat × Nat) :=
  p.blocks.zipIdx.findSome? (fun (block, ix) =>
    (block.targets.find? (fun s => p.blocks.length ≤ s)).map (fun s => (ix, s)))

/-- The first handle that is needed and never created. -/
def dangling? (p : Procedure) : Option String :=
  (p.events.filterMap Event.needs?).find? (fun h => (Handle.find? p.handles h).isNone)

/-- Why the trace makes no sense, if it makes none. -/
def fault? (p : Procedure) : Option Error :=
  match p.malformed? with
  | some (block, successor) =>
    some (.malformedTrace p.name block successor p.blocks.length)
  | none => p.dangling?.map (fun h => .danglingHandle h p.name)

end Procedure

end Wiring
