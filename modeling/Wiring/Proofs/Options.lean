import Mathlib.Data.List.Forall2
import Wiring.Proofs.Arrival

/-!
# What the options change in a report

Two groups of options come after the checks. The policy for trace errors says what becomes of
procedures whose traces make no sense; the severities and the disabled rules say how findings are
reported. Neither changes what the checks find in the rest of the facts.

Results:
1. `analyze_of_policy`: a procedure that is refused is left out without a trace in the findings, or
   it ends the analysis.
2. `analyzeIn_configured`: severities and disabled rules are applied to the finished findings,
   whatever turns the procedures take.
-/

namespace Wiring

/-! ## Traces that make no sense -/

namespace Procedure

theorem analyze_eq_error_iff {p : Procedure} {e : Error} :
    p.analyze = .error e ↔ p.fault? = some e := by
  unfold analyze
  cases p.fault? with
  | none => simp
  | some e' => simp

theorem isOk_analyze (p : Procedure) : p.analyze.isOk = p.fault?.isNone := by
  unfold analyze
  cases p.fault? <;> rfl

/-- There are words for every fault of a trace. -/
theorem message_of_fault? {p : Procedure} {e : Error} (h : p.fault? = some e) :
    e.message = some (e.message.getD "") := by
  unfold fault? at h
  split at h
  · cases h
    rfl
  · obtain ⟨handle, -, rfl⟩ := Option.map_eq_some_iff.1 h
    rfl

end Procedure

/-- The facts without the procedures that are refused. -/
def Facts.accepted (f : Facts) : Facts :=
  { f with procedures := f.procedures.filter (fun p => p.analyze.isOk) }

/-- The entry names the procedure, and its reason is the text of the error for which the procedure
is refused. -/
def Skipped.Accounts (p : Procedure) (s : Skipped) : Prop :=
  s.procedure = p.name ∧ ∃ e, p.analyze = .error e ∧ e.message = some s.reason

namespace Analysis

theorem forall₂_accounts_skipped (f : Facts) :
    List.Forall₂ Skipped.Accounts (f.procedures.filter (fun p => !p.analyze.isOk)) (skipped f) := by
  unfold skipped
  induction f.procedures with
  | nil => exact .nil
  | cons p ps ih =>
    rw [List.filter_cons, List.filterMap_cons, p.isOk_analyze, skipped?]
    cases hp : p.fault? with
    | none => exact ih
    | some e =>
      have herror : p.analyze = .error e := Procedure.analyze_eq_error_iff.2 hp
      exact .cons ⟨rfl, e, herror, Procedure.message_of_fault? hp⟩ ih

theorem sound_accepted (f : Facts) : sound f.accepted = sound f := by
  unfold sound Facts.accepted
  simp only [List.filter_filter, Procedure.isOk_analyze, Bool.and_self]

theorem findings_accepted (o : Options) (f : Facts) : findings o f.accepted = findings o f := by
  unfold findings
  rw [sound_accepted]
  rfl

section Fail

variable {o : Options} (h : o.traceErrors = .fail) (f : Facts)

include h

theorem fault?_of_fail : fault? o f = f.procedures.findSome? Procedure.fault? := by
  unfold fault?
  rw [h]

/-- The first refusal ends the analysis. -/
theorem analyze_eq_error_iff_of_fail (e : Error) :
    analyze o f false = .error e ↔
      ∃ before p after, f.procedures = before ++ p :: after ∧
        (∀ q ∈ before, q.analyze.isOk) ∧ p.analyze = .error e := by
  simp only [analyze_eq_error_iff, fault?_of_fail h, List.findSome?_eq_some_iff,
    Procedure.analyze_eq_error_iff, Procedure.isOk_analyze, Option.isNone_iff_eq_none]
  constructor
  · rintro ⟨before, p, after, heq, hp, hbefore⟩
    exact ⟨before, p, after, heq, hbefore, hp⟩
  · rintro ⟨before, p, after, heq, hbefore, hp⟩
    exact ⟨before, p, after, heq, hp, hbefore⟩

theorem fault?_eq_none_iff_of_fail :
    fault? o f = none ↔ ∀ p ∈ f.procedures, p.analyze.isOk := by
  simp only [fault?_of_fail h, List.findSome?_eq_none_iff, Procedure.isOk_analyze,
    Option.isNone_iff_eq_none]

theorem exists_analyze_eq_error_iff_of_fail :
    (∃ e, analyze o f false = .error e) ↔ ∃ p ∈ f.procedures, ¬ p.analyze.isOk := by
  simp only [analyze_eq_error_iff, ← Option.isSome_iff_exists, ← Option.ne_none_iff_isSome,
    ne_eq, fault?_eq_none_iff_of_fail h, not_forall, exists_prop]

end Fail

end Analysis

/-- The policy for trace errors. Where procedures may be left out, the analysis succeeds, lists the
refused ones in their order with the reason for each, counts every procedure on one side, and finds
what it finds without them. Where they may not, it fails for the first refused procedure and with
its error, and gives the same report if none is refused. -/
theorem analyze_of_policy (o : Options) (f : Facts) :
    let skipping := { o with traceErrors := .skip }
    let failing := { o with traceErrors := .fail }
    (∃ r r', analyze skipping f false = .ok r ∧ analyze skipping f.accepted false = .ok r' ∧
      List.Forall₂ Skipped.Accounts (f.procedures.filter (fun p => !p.analyze.isOk)) r.skipped ∧
      r.stats.proceduresSkipped = r.skipped.length ∧
      r.stats.proceduresAnalyzed + r.stats.proceduresSkipped = f.procedures.length ∧
      r.diagnostics = r'.diagnostics) ∧
    ((∃ e, analyze failing f false = .error e) ↔ ∃ p ∈ f.procedures, ¬ p.analyze.isOk) ∧
    (∀ e, analyze failing f false = .error e ↔
      ∃ before p after, f.procedures = before ++ p :: after ∧
        (∀ q ∈ before, q.analyze.isOk) ∧ p.analyze = .error e) ∧
    (analyze failing f false = analyze skipping f false ↔
      ∀ p ∈ f.procedures, p.analyze.isOk) := by
  intro skipping failing
  have hskip : ∀ f, analyze skipping f false = .ok (Analysis.report skipping f) :=
    fun f => analyze_eq_ok_iff.2 ⟨rfl, rfl⟩
  refine ⟨⟨_, _, hskip f, hskip f.accepted, Analysis.forall₂_accounts_skipped f, rfl,
    Analysis.length_sound_add_length_skipped f, ?_⟩,
    Analysis.exists_analyze_eq_error_iff_of_fail rfl f,
    Analysis.analyze_eq_error_iff_of_fail rfl f, ?_⟩
  · show Analysis.configured _ _ = Analysis.configured _ _
    rw [Analysis.findings_accepted]
  · rw [hskip f, analyze_eq_ok_iff, Analysis.fault?_eq_none_iff_of_fail rfl]
    exact and_iff_left rfl

/-! ## Severities and disabled rules -/

/-- The options with every rule enabled and at its own severity. -/
def Options.unconfigured (o : Options) : Options :=
  { o with severityOverrides := [], disabledRules := [] }

namespace Analysis

theorem configured_unconfigured (o : Options) (ds : List Diagnostic) :
    configured o.unconfigured ds = ds.map Diagnostic.plain := by
  have hall : ds.filter (fun d => o.unconfigured.isEnabled d.rule) = ds :=
    List.filter_eq_self.2 (fun d _ => rfl)
  rw [configured, hall]
  rfl

/-- The configuration can be applied to findings that are reported already. -/
theorem configured_configured_unconfigured (o : Options) (ds : List Diagnostic) :
    configured o (configured o.unconfigured ds) = configured o ds := by
  rw [configured_unconfigured, configured_map_plain]

theorem tally_add_tally (ds : List Diagnostic) :
    tally ds .info + tally ds .warning + tally ds .error = ds.length := by
  unfold tally
  induction ds with
  | nil => rfl
  | cons d ds ih =>
    have hone : (if d.severity == .info then 1 else 0) + (if d.severity == .warning then 1 else 0) +
        (if d.severity == .error then 1 else 0) = 1 := by
      cases d.severity <;> rfl
    simp only [List.countP_cons, List.length_cons]
    omega

end Analysis

/-- Severities and disabled rules are applied last. Take any analysis under the options, and any
with every rule enabled at its own severity; procedures may take other turns in the one than in the
other. Both fail or neither does, and with the same turns they fail with the same error. Otherwise
the first reports the findings that the second does, less those of disabled rules and each with the
severity set for its rule; nothing else in the reports differs but the numbers by severity, which
count what is reported. -/
theorem analyzeIn_configured (o : Options) (f : Facts) (turns turns₀ : Turns f.procedures) :
    (∃ e e₀, analyzeIn o f turns false = .error e ∧
      analyzeIn o.unconfigured f turns₀ false = .error e₀ ∧
      analyzeIn o.unconfigured f turns false = .error e) ∨
    ∃ r r₀, analyzeIn o f turns false = .ok r ∧ analyzeIn o.unconfigured f turns₀ false = .ok r₀ ∧
      r.diagnostics = (r₀.diagnostics.filter (fun d => o.isEnabled d.rule)).map
        (fun d => { d with severity := o.severityFor d.rule }) ∧
      r.skipped = r₀.skipped ∧
      r.stats = { r₀.stats with
        infos := r.diagnostics.countP (fun d => d.severity == .info)
        warnings := r.diagnostics.countP (fun d => d.severity == .warning)
        errors := r.diagnostics.countP (fun d => d.severity == .error) } ∧
      r.stats.infos + r.stats.warnings + r.stats.errors = r.diagnostics.length := by
  have hsame : turns.fault? o = none ↔ turns₀.fault? o.unconfigured = none := by
    rw [turns.fault?_eq_none_iff, turns₀.fault?_eq_none_iff]
    rfl
  cases hf : turns.fault? o with
  | some e =>
    have hne : turns₀.fault? o.unconfigured ≠ none := fun h => by
      rw [hsame.2 h] at hf
      cases hf
    obtain ⟨e₀, hf₀⟩ := Option.ne_none_iff_exists'.1 hne
    exact Or.inl ⟨e, e₀, analyzeIn_eq_error_iff.2 hf, analyzeIn_eq_error_iff.2 hf₀,
      analyzeIn_eq_error_iff.2 hf⟩
  | none =>
    refine Or.inr ⟨_, _, analyzeIn_eq_ok_iff.2 ⟨hf, rfl⟩,
      analyzeIn_eq_ok_iff.2 ⟨hsame.1 hf, rfl⟩, ?_, rfl, rfl, Analysis.tally_add_tally _⟩
    exact (Analysis.configured_configured_unconfigured o _).symm

end Wiring
