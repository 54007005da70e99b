import Wiring.Check.Captive
import Wiring.Check.Compatibility
import Wiring.Config.Options
import Wiring.Facts
import Wiring.Scope.Report

/-!
# Analysis

All checks over one set of facts, and the report on their findings.
-/

namespace Wiring

/-- A procedure that was left out, and why. -/
structure Skipped where
  procedure : String
  reason : String
deriving DecidableEq, Repr, Inhabited

/-- What was looked at and what was found, in numbers. -/
structure Stats where
  registrations : Nat
  services : Nat
  edges : Nat
  proceduresAnalyzed : Nat
  proceduresSkipped : Nat
  infos : Nat
  warnings : Nat
  errors : Nat
deriving DecidableEq, Repr, Inhabited

/-- The result of an analysis. -/
structure Report where
  diagnostics : List Diagnostic
  skipped : List Skipped
  stats : Stats
deriving DecidableEq, Repr, Inhabited

namespace Report

/-- Whether there is an error among the findings. -/
def hasErrors (r : Report) : Bool :=
  r.stats.errors > 0

/-- The number of findings of a rule. -/
def count (r : Report) (rule : Rule) : Nat :=
  r.diagnostics.countP (fun d => d.rule == rule)

end Report

/-- The turns that procedures take, each with its number among them. A procedure has its turn when
its findings go into the sink, or its fault is noted. Checked one after another, procedures take
their turns in their order; checked side by side, they take them as they come. -/
structure Turns (ps : List Procedure) where
  order : List (Procedure × Nat)
  perm : order.Perm ps.zipIdx

/-- One procedure after another. -/
def Turns.inOrder (ps : List Procedure) : Turns ps :=
  ⟨ps.zipIdx, .refl _⟩

namespace Analysis

/-- The findings of the checks on the graph. -/
def graphFindings (o : Options) (f : Facts) : List Diagnostic :=
  let g := Graph.build f.registrations f.shapes
  nullifiedRegistrations f.registrations ++ Captive.findings g ++
    Resolvability.findings g o.framework o.maxDepth ++ Compatibility.findings g

/-- The findings as the options want them reported. -/
def configured (o : Options) (ds : List Diagnostic) : List Diagnostic :=
  (ds.filter (fun d => o.isEnabled d.rule)).map
    (fun d => { d with severity := o.severityFor d.rule })

/-- The number of findings of a severity. -/
def tally (ds : List Diagnostic) (s : Severity) : Nat :=
  ds.countP (fun d => d.severity == s)

/-- A procedure in its turn: its findings go into the sink. If its trace makes no sense, the policy
says whether it is left out or ends the analysis. -/
def checkProcedure (policy : TraceErrorPolicy) (s : Sink) (p : Procedure) :
    Except Error (Sink × Option Skipped) :=
  match p.analyze with
  | .ok ds => .ok (s.extend ds, none)
  | .error e =>
    match policy with
    | .skip => .ok (s, some ⟨p.name, e.message.getD ""⟩)
    | .fail => .error e

/-- The procedures in turn, up to the first that ends the analysis, and those that are left out with
their numbers. -/
def checkProcedures (policy : TraceErrorPolicy) :
    List (Procedure × Nat) → Sink → Except Error (Sink × List (Skipped × Nat))
  | [], s => .ok (s, [])
  | (p, i) :: turns, s => do
    let (s, left?) ← checkProcedure policy s p
    let (s, left) ← checkProcedures policy turns s
    return (s, left?.toList.map (fun entry => (entry, i)) ++ left)

/-- Entries in the order of their numbers, whatever the turns were. -/
def collected (left : List (Skipped × Nat)) : List Skipped :=
  (left.mergeSort (fun a b => a.2 ≤ b.2)).map Prod.fst

/-- The analysis: the checks on the graph, the procedures and the static members put their findings
into one sink. -/
def run (o : Options) (f : Facts) (turns : Turns f.procedures) : Except Error Report := do
  let g := Graph.build f.registrations f.shapes
  let sink := Sink.empty.extend (graphFindings o f)
  let (sink, left) ← checkProcedures o.traceErrors turns.order sink
  let ds := configured o (sink.extend (staticCacheFindings f.assignments)).finish
  return {
    diagnostics := ds
    skipped := collected left
    stats :=
      { registrations := f.registrations.length
        services := g.nodes.length
        edges := g.edges.length
        proceduresAnalyzed := f.procedures.length - left.length
        proceduresSkipped := left.length
        infos := tally ds .info
        warnings := tally ds .warning
        errors := tally ds .error } }

end Analysis

/-- Analyses facts under a token that is cancelled or not, with the procedures checked in these
turns. -/
def analyzeIn (o : Options) (f : Facts) (turns : Turns f.procedures) (cancelled : Bool) :
    Except Error Report :=
  if cancelled then .error .cancelled else Analysis.run o f turns

/-- Analyses facts with one procedure checked after another. -/
def analyze (o : Options) (f : Facts) (cancelled : Bool) : Except Error Report :=
  analyzeIn o f (.inOrder f.procedures) cancelled

namespace Analysis

/-! ## The report in one piece -/

/-- The procedures whose traces make sense. -/
def sound (f : Facts) : List Procedure :=
  f.procedures.filter (fun p => p.fault?.isNone)

/-- The findings of all checks, each once and in order. -/
def findings (o : Options) (f : Facts) : List Diagnostic :=
  (Sink.empty.extend (graphFindings o f ++ (sound f).flatMap Procedure.findings ++
    staticCacheFindings f.assignments)).finish

/-- The entry for a procedure that is left out. -/
def skipped? (p : Procedure) : Option Skipped :=
  p.fault?.map (fun e => ⟨p.name, e.message.getD ""⟩)

/-- The procedures that are left out. -/
def skipped (f : Facts) : List Skipped :=
  f.procedures.filterMap skipped?

/-- The report, with procedures left out whose traces make no sense. -/
def report (o : Options) (f : Facts) : Report :=
  let g := Graph.build f.registrations f.shapes
  let ds := configured o (findings o f)
  { diagnostics := ds
    skipped := skipped f
    stats :=
      { registrations := f.registrations.length
        services := g.nodes.length
        edges := g.edges.length
        proceduresAnalyzed := (sound f).length
        proceduresSkipped := (skipped f).length
        infos := tally ds .info
        warnings := tally ds .warning
        errors := tally ds .error } }

/-- Why the analysis fails for the traces, if the options do not let them be left out: the first
fault counts. -/
def fault? (o : Options) (f : Facts) : Option Error :=
  match o.traceErrors with
  | .skip => none
  | .fail => f.procedures.findSome? Procedure.fault?

end Analysis

end Wiring
