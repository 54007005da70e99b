import Wiring.Document.Json.Reader
import Wiring.Error
import Wiring.Format.Facts
import Wiring.Snapshot.Basic

/-!
# Snapshots in documents
-/

namespace Wiring

namespace Labels

/-- The document of labels. -/
def toDocument (ls : Labels) : Document :=
  .fields (ls.entries.map (fun e => (e.1, .str e.2)))

/-- Labels; of labels with the same name the last counts. -/
def decode : Decoder Labels :=
  fun n a doc => (Decode.mapOf Decode.text n a doc).map ofList

end Labels

namespace SnapshotNode

/-- The document of a node. -/
def toDocument (n : SnapshotNode) : Document :=
  .fields [("id", .str n.id), ("service", .str n.service),
    ("implementation", .str n.implementation), ("lifetime", .str n.lifetime),
    ("is_open_generic", .bool n.isOpenGeneric), ("metadata", n.labels.toDocument)]

/-- A node; the labels may be missing. -/
def decode : Decoder SnapshotNode :=
  Decode.record ["id", "service", "implementation", "lifetime", "is_open_generic", "metadata"]
    (fun fs => do
      return ⟨← fs.need "id" Decode.text, ← fs.need "service" Decode.text,
        ← fs.need "implementation" Decode.text, ← fs.need "lifetime" Decode.text,
        ← fs.need "is_open_generic" Decode.bool, ← fs.maybe "metadata" .empty Labels.decode⟩)

end SnapshotNode

namespace SnapshotEdge

/-- The document of an edge. -/
def toDocument (e : SnapshotEdge) : Document :=
  .fields [("from", .str e.source), ("to", .str e.target), ("dependency_type", .str e.demand.word)]

/-- An edge. -/
def decode : Decoder SnapshotEdge :=
  Decode.record ["from", "to", "dependency_type"] (fun fs => do
    return ⟨← fs.need "from" Decode.text, ← fs.need "to" Decode.text,
      ← fs.need "dependency_type" (Decode.word (Demand.all.map (fun d => (d.word, d))))⟩)

end SnapshotEdge

namespace SnapshotSummary

/-- The document of the numbers. -/
def toDocument (s : SnapshotSummary) : Document :=
  .fields [("service_count", .nat s.serviceCount.toNat),
    ("singleton_count", .nat s.singletonCount.toNat),
    ("scoped_count", .nat s.scopedCount.toNat), ("transient_count", .nat s.transientCount.toNat),
    ("open_generic_count", .nat s.openGenericCount.toNat), ("version", .str s.version)]

/-- The numbers. -/
def decode : Decoder SnapshotSummary :=
  Decode.record ["service_count", "singleton_count", "scoped_count", "transient_count",
    "open_generic_count", "version"] (fun fs => do
      return ⟨← fs.need "service_count" Decode.u64, ← fs.need "singleton_count" Decode.u64,
        ← fs.need "scoped_count" Decode.u64, ← fs.need "transient_count" Decode.u64,
        ← fs.need "open_generic_count" Decode.u64, ← fs.need "version" Decode.text⟩)

end SnapshotSummary

namespace Snapshot

/-- The document of a snapshot. -/
def toDocument (s : Snapshot) : Document :=
  .fields [("nodes", .list (s.nodes.map SnapshotNode.toDocument)),
    ("edges", .list (s.edges.map SnapshotEdge.toDocument)), ("metadata", s.summary.toDocument)]

/-- A snapshot. -/
def decode : Decoder Snapshot :=
  Decode.record ["nodes", "edges", "metadata"] (fun fs => do
    return ⟨← fs.need "nodes" (Decode.list SnapshotNode.decode),
      ← fs.need "edges" (Decode.list SnapshotEdge.decode),
      ← fs.need "metadata" SnapshotSummary.decode⟩)

/-- The snapshot as JSON text. -/
def toJson (s : Snapshot) : String :=
  s.toDocument.toPrettyJson

/-- The snapshot in a document that comes from JSON text. -/
def ofDocument (doc : Document) : Except Error Snapshot :=
  match decode Json.maxDepth .json doc with
  | some s => .ok s
  | none => .error .malformedFacts

/-- The snapshot that JSON text holds. -/
def ofJson (text : String) : Except Error Snapshot :=
  match Json.read? text.toList with
  | some doc => ofDocument doc
  | none => .error .malformedFacts

end Snapshot

end Wiring
