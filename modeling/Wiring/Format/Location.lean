import Wiring.Document.Decoder
import Wiring.Diagnostic

/-!
# Locations and diagnostics in documents
-/

namespace Wiring

namespace Location

/-- The document of a location. -/
def toDocument (l : Location) : Document :=
  .fields [("file", .str l.file), ("line", .nat l.line.toNat), ("column", .nat l.column.toNat)]

/-- A location; the column may be missing. -/
def decode : Decoder Location :=
  Decode.record ["file", "line", "column"] (fun fs => do
    return ⟨← fs.need "file" Decode.text, ← fs.need "line" Decode.u32,
      ← fs.maybe "column" 0 Decode.u32⟩)

end Location

namespace Severity

/-- A severity by its word. -/
def decode : Decoder Severity :=
  Decode.word (all.map (fun s => (s.word, s)))

end Severity

namespace Rule

/-- A rule by its word. -/
def decode : Decoder Rule :=
  Decode.word (all.map (fun r => (r.word, r)))

end Rule

namespace Diagnostic

/-- The document of a finding; related places are left out if there are none. -/
def toDocument (d : Diagnostic) : Document :=
  .fields ([("rule", Document.str d.rule.word), ("severity", .str d.severity.word),
    ("message", .str d.message), ("primary", d.primary.toDocument)] ++
    (if d.related.isEmpty then [] else [("related", .list (d.related.map Location.toDocument))]))

/-- A finding. -/
def decode : Decoder Diagnostic :=
  Decode.record ["rule", "severity", "message", "primary", "related"] (fun fs => do
    return ⟨← fs.need "rule" Rule.decode, ← fs.need "severity" Severity.decode,
      ← fs.need "message" Decode.text, ← fs.need "primary" Location.decode,
      ← fs.maybe "related" [] (Decode.list Location.decode)⟩)

/-- A finding whose severity may be left to its rule. -/
def decodeLoose : Decoder Diagnostic :=
  Decode.record ["rule", "severity", "message", "primary", "related"] (fun fs => do
    let rule ← fs.need "rule" Rule.decode
    let severity ← fs.maybe "severity" rule.defaultSeverity Severity.decode
    return ⟨rule, severity, ← fs.need "message" Decode.text, ← fs.need "primary" Location.decode,
      ← fs.maybe "related" [] (Decode.list Location.decode)⟩)

end Diagnostic

end Wiring
