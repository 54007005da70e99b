import Wiring.Document.Json.Printer
import Wiring.Facts
import Wiring.Format.Registration
import Wiring.Format.Trace

/-!
# Facts in documents

JSON text may nest lists and records to a depth of 127, YAML text to a depth of 128.
-/

namespace Wiring

/-- The depth to which JSON text may be nested. -/
def Json.maxDepth : Nat :=
  127

/-- The depth to which YAML text may be nested. -/
def Yaml.maxDepth : Nat :=
  128

namespace Facts

/-- The document of facts. -/
def toDocument (f : Facts) : Document :=
  .fields [("registrations", .list (f.registrations.map Registration.toDocument)),
    ("type_shapes", .list (f.shapes.map TypeShape.toDocument)),
    ("procedures", .list (f.procedures.map Procedure.toDocument)),
    ("static_assignments", .list (f.assignments.map StaticAssignment.toDocument))]

/-- Facts; what is missing is empty. -/
def decode : Decoder Facts :=
  Decode.record ["registrations", "type_shapes", "procedures", "static_assignments"] (fun fs => do
    return ⟨← fs.maybe "registrations" [] (Decode.list Registration.decode),
      ← fs.maybe "type_shapes" [] (Decode.list TypeShape.decode),
      ← fs.maybe "procedures" [] (Decode.list Procedure.decode),
      ← fs.maybe "static_assignments" [] (Decode.list StaticAssignment.decode)⟩)

/-- The facts as JSON text, one entry to a line. -/
def toJson (f : Facts) : String :=
  f.toDocument.toPrettyJson

end Facts

end Wiring
