import Wiring.Format.Location
import Wiring.Trace

/-!
# Traces and assignments in documents
-/

namespace Wiring

namespace HandleKind

/-- The word for the kind. -/
def word : HandleKind → String
  | .scope => "scope"
  | .rootProvider => "root_provider"

/-- A kind by its word. -/
def decode : Decoder HandleKind :=
  Decode.word ([scope, rootProvider].map (fun k => (k.word, k)))

end HandleKind

namespace Acquisition

/-- The word for the acquisition. -/
def word : Acquisition → String
  | .manual => "manual"
  | .usingStatement => "using"
  | .awaitUsing => "await_using"

/-- An acquisition by its word. -/
def decode : Decoder Acquisition :=
  Decode.word ([manual, usingStatement, awaitUsing].map (fun a => (a.word, a)))

end Acquisition

namespace EscapeSink

/-- The word for the sink. -/
def word : EscapeSink → String
  | .returned => "return"
  | .fieldStore => "field_store"
  | .outerCapture => "outer_capture"

/-- A sink by its word. -/
def decode : Decoder EscapeSink :=
  Decode.word ([returned, fieldStore, outerCapture].map (fun s => (s.word, s)))

end EscapeSink

namespace Event

/-- The document of an event. -/
def toDocument : Event → Document
  | .create handle kind isAsync acquisition location =>
    .fields [("event", .str "create"), ("handle", .str handle), ("kind", .str kind.word),
      ("is_async", .bool isAsync), ("acquisition", .str acquisition.word),
      ("location", location.toDocument)]
  | .dispose handle location =>
    .fields [("event", .str "dispose"), ("handle", .str handle), ("location", location.toDocument)]
  | .resolve handle result location =>
    .fields [("event", .str "resolve"), ("handle", .str handle), ("result", .str result),
      ("location", location.toDocument)]
  | .escape value sink location =>
    .fields [("event", .str "escape"), ("value", .str value), ("sink", .str sink.word),
      ("location", location.toDocument)]
  | .use value location =>
    .fields [("event", .str "use"), ("value", .str value), ("location", location.toDocument)]

/-- The variants of an event with their fields. -/
def variants : List (String × List String) :=
  [("create", ["handle", "kind", "is_async", "acquisition", "location"]),
    ("dispose", ["handle", "location"]), ("resolve", ["handle", "result", "location"]),
    ("escape", ["value", "sink", "location"]), ("use", ["value", "location"])]

/-- An event. -/
def decode : Decoder Event :=
  Decode.tagged "event" variants (fun v fs =>
    match v with
    | "create" => do
      return .create (← fs.need "handle" Decode.text) (← fs.maybe "kind" .scope HandleKind.decode)
        (← fs.maybe "is_async" false Decode.bool)
        (← fs.maybe "acquisition" .manual Acquisition.decode)
        (← fs.need "location" Location.decode)
    | "dispose" => do
      return .dispose (← fs.need "handle" Decode.text) (← fs.need "location" Location.decode)
    | "resolve" => do
      return .resolve (← fs.need "handle" Decode.text) (← fs.need "result" Decode.text)
        (← fs.need "location" Location.decode)
    | "escape" => do
      return .escape (← fs.need "value" Decode.text) (← fs.need "sink" EscapeSink.decode)
        (← fs.need "location" Location.decode)
    | _ => do return .use (← fs.need "value" Decode.text) (← fs.need "location" Location.decode))

end Event

namespace Block

/-- The document of a block. -/
def toDocument (b : Block) : Document :=
  .fields [("events", .list (b.events.map Event.toDocument)),
    ("successors", .list (b.successors.map (fun s => .nat s.toNat)))]

/-- A block. -/
def decode : Decoder Block :=
  Decode.record ["events", "successors"] (fun fs => do
    return ⟨← fs.maybe "events" [] (Decode.list Event.decode),
      ← fs.maybe "successors" [] (Decode.list Decode.u64)⟩)

end Block

namespace Procedure

/-- The document of a procedure. -/
def toDocument (p : Procedure) : Document :=
  .fields [("name", .str p.name), ("is_async", .bool p.isAsync),
    ("blocks", .list (p.blocks.map Block.toDocument))]

/-- A procedure. -/
def decode : Decoder Procedure :=
  Decode.record ["name", "is_async", "blocks"] (fun fs => do
    return ⟨← fs.need "name" Decode.text, ← fs.maybe "is_async" false Decode.bool,
      ← fs.maybe "blocks" [] (Decode.list Block.decode)⟩)

end Procedure

namespace Storage

/-- The word for the storage. -/
def word : Storage → String
  | .shared => "static"
  | .perInstance => "instance"

/-- A storage by its word. -/
def decode : Decoder Storage :=
  Decode.word ([shared, perInstance].map (fun s => (s.word, s)))

end Storage

namespace ValueKind

/-- The word for the kind of value. -/
def word : ValueKind → String
  | .serviceProvider => "service_provider"
  | .scopeFactory => "scope_factory"
  | .other => "other"

/-- A kind of value by its word. -/
def decode : Decoder ValueKind :=
  Decode.word ([serviceProvider, scopeFactory, other].map (fun k => (k.word, k)))

end ValueKind

namespace StaticAssignment

/-- The document of an assignment. -/
def toDocument (s : StaticAssignment) : Document :=
  .fields [("member", .str s.member), ("storage", .str s.storage.word),
    ("value_kind", .str s.valueKind.word), ("location", s.location.toDocument)]

/-- An assignment. -/
def decode : Decoder StaticAssignment :=
  Decode.record ["member", "storage", "value_kind", "location"] (fun fs => do
    return ⟨← fs.need "member" Decode.text, ← fs.need "storage" Storage.decode,
      ← fs.need "value_kind" ValueKind.decode, ← fs.need "location" Location.decode⟩)

end StaticAssignment

end Wiring
