import Wiring.Graph
import Wiring.Snapshot.Labels

/-!
# Snapshots

A graph in plain words, for tools that show it.
-/

namespace Wiring

/-- How a service asks for another. -/
inductive Demand where
  | required
  | optional
  /-- All registrations of a service. -/
  | multiple
deriving DecidableEq, Repr, Inhabited

namespace Demand

/-- The word for the demand. -/
def word : Demand → String
  | .required => "Required"
  | .optional => "Optional"
  | .multiple => "Multiple"

/-- Every way to ask. -/
def all : List Demand :=
  [.required, .optional, .multiple]

/-- How a dependency asks. -/
def of (d : Dependency) : Demand :=
  if d.isEnumerable then .multiple
  else if d.isOptional then .optional
  else .required

end Demand

/-- A node in words. -/
structure SnapshotNode where
  id : String
  service : String
  implementation : String
  lifetime : String
  isOpenGeneric : Bool
  labels : Labels
deriving DecidableEq, Repr, Inhabited

/-- An edge between nodes given by their ids. -/
structure SnapshotEdge where
  source : String
  target : String
  demand : Demand
deriving DecidableEq, Repr, Inhabited

/-- What a snapshot holds, in numbers. -/
structure SnapshotSummary where
  serviceCount : UInt64
  singletonCount : UInt64
  scopedCount : UInt64
  transientCount : UInt64
  openGenericCount : UInt64
  version : String
deriving DecidableEq, Repr, Inhabited

namespace SnapshotSummary

/-- Counts a node of this lifetime. -/
def countLifetime (s : SnapshotSummary) : Lifetime → SnapshotSummary
  | .singleton => { s with singletonCount := s.singletonCount + 1 }
  | .scoped => { s with scopedCount := s.scopedCount + 1 }
  | .transient => { s with transientCount := s.transientCount + 1 }

/-- Counts a node, by its lifetime and among the generic definitions if it provides one. -/
def count (s : SnapshotSummary) (n : Node) : SnapshotSummary :=
  let counted := s.countLifetime n.lifetime
  if n.isOpen then { counted with openGenericCount := counted.openGenericCount + 1 } else counted

end SnapshotSummary

/-- A graph in words. -/
structure Snapshot where
  nodes : List SnapshotNode
  edges : List SnapshotEdge
  summary : SnapshotSummary
deriving DecidableEq, Repr, Inhabited

namespace Snapshot

/-- The version of the format. -/
def version : String :=
  "0.1.0"

/-- The id of a node. -/
def nodeId (n : Node) : String :=
  "service_" ++ toString n.ix

/-- The labels of a node: its call, its place, and the number of registrations if there are more. -/
def labelsOf (n : Node) : Labels :=
  .ofList ([("call", n.registration.callName), ("location", n.registration.location.text)] ++
    (if n.entries.length > 1 then [("registrations", toString n.entries.length)] else []))

/-- A node in words. -/
def nodeOf (n : Node) : SnapshotNode :=
  { id := nodeId n
    service := n.service.text
    implementation := n.registration.implementation.describe
    lifetime := n.lifetime.text
    isOpenGeneric := n.isOpen
    labels := labelsOf n }

/-- An edge in words. -/
def edgeOf (e : Edge) : SnapshotEdge :=
  ⟨nodeId e.source, nodeId e.target, .of e.dependency⟩

/-- The summary of this many nodes, before the first of them is counted. -/
def blankSummary (size : Nat) : SnapshotSummary :=
  ⟨.ofNat size, 0, 0, 0, 0, version⟩

/-- The numbers of a graph. -/
def summaryOf (g : Graph) : SnapshotSummary :=
  g.nodes.foldl SnapshotSummary.count (blankSummary g.nodes.length)

end Snapshot

/-- The graph in words. -/
def Graph.snapshot (g : Graph) : Snapshot :=
  ⟨g.nodes.map Snapshot.nodeOf, g.edges.map Snapshot.edgeOf, Snapshot.summaryOf g⟩

end Wiring
