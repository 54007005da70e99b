import Wiring.Analysis
import Wiring.Document.Json.Printer
import Wiring.Format.Location

/-!
# Reports in documents
-/

namespace Wiring

/-- The document of a procedure that was left out. -/
def Skipped.toDocument (s : Skipped) : Document :=
  .fields [("procedure", .str s.procedure), ("reason", .str s.reason)]

/-- The document of the numbers. -/
def Stats.toDocument (s : Stats) : Document :=
  .fields [("registrations", .nat s.registrations), ("services", .nat s.services),
    ("edges", .nat s.edges), ("procedures_analyzed", .nat s.proceduresAnalyzed),
    ("procedures_skipped", .nat s.proceduresSkipped), ("infos", .nat s.infos),
    ("warnings", .nat s.warnings), ("errors", .nat s.errors)]

namespace Report

/-- The document of a report. -/
def toDocument (r : Report) : Document :=
  .fields [("diagnostics", .list (r.diagnostics.map Diagnostic.toDocument)),
    ("skipped", .list (r.skipped.map Skipped.toDocument)), ("stats", r.stats.toDocument)]

/-- The report as JSON text, one entry to a line. -/
def toJson (r : Report) : String :=
  r.toDocument.toPrettyJson

end Report

end Wiring
