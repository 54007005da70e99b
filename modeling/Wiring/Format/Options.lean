import Wiring.Config.Options
import Wiring.Format.Facts

/-!
# Options in documents
-/

namespace Wiring

namespace TraceErrorPolicy

/-- A policy by its word. -/
def decode : Decoder TraceErrorPolicy :=
  Decode.word [("skip", .skip), ("fail", .fail)]

end TraceErrorPolicy

namespace Options

/-- The overrides in the order of rules; of those for the same rule the last counts. -/
def arrange (overrides : List (Rule × Severity)) : List (Rule × Severity) :=
  Rule.all.filterMap (fun r => (overrides.reverse.lookup r).map (fun s => (r, s)))

/-- Severities by rule. -/
def decodeOverrides : Decoder (List (Rule × Severity)) := fun n a doc => do
  let pairs ← Decode.mapOf Severity.decode n a doc
  let rules ← pairs.mapM (fun p =>
    (Rule.all.find? (fun r => r.word == p.1)).map (fun r => (r, p.2)))
  return arrange rules

/-- Rules in their order, each once. -/
def decodeRules : Decoder (List Rule) := fun n a doc =>
  (Decode.list Rule.decode n a doc).map (fun rs => Rule.all.filter (fun r => rs.contains r))

/-- The document of options. -/
def toDocument (o : Options) : Document :=
  .fields [("assume_framework_services_registered", .bool o.assumeFramework),
    ("framework_services", .list (o.frameworkServices.map Document.str)),
    ("max_resolution_depth", .nat o.maxDepth),
    ("trace_errors", .str o.traceErrors.word),
    ("severity_overrides", .fields (o.severityOverrides.map (fun p => (p.1.word, .str p.2.word)))),
    ("disabled_rules", .list (o.disabledRules.map (fun r => .str r.word)))]

/-- Options; what is missing has its default. -/
def decode : Decoder Options :=
  Decode.record ["assume_framework_services_registered", "framework_services",
    "max_resolution_depth", "trace_errors", "severity_overrides", "disabled_rules"] (fun fs => do
      return ⟨← fs.maybe "assume_framework_services_registered" default.assumeFramework Decode.bool,
        ← fs.maybe "framework_services" default.frameworkServices (Decode.list Decode.text),
        ← fs.maybe "max_resolution_depth" default.maxDepth (Decode.natBelow UInt64.size),
        ← fs.maybe "trace_errors" default.traceErrors TraceErrorPolicy.decode,
        ← fs.maybe "severity_overrides" default.severityOverrides decodeOverrides,
        ← fs.maybe "disabled_rules" default.disabledRules decodeRules⟩)

end Options

end Wiring
