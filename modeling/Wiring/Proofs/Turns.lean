import Mathlib.Data.List.Nodup
import Wiring.Analysis
import Wiring.Proofs.Sink

/-!
# Turns of procedures

Procedures may be checked side by side, and then chance decides in which order they take their
turns. The report shows nothing of it: findings are put in order at the end, and the procedures that
are left out are listed by their numbers. Only where faults end the analysis do the turns decide
something, namely which of the faults that is.

Results:
1. `Analysis.run_eq`: an analysis fails for the first fault in turn, and otherwise gives one report
   for all turns.
2. `analyzeIn_eq_ok_iff`, `analyzeIn_eq_error_iff`: the same for an analysis that is not cancelled.
3. `exists_turns_error_iff`: every fault may be the one that ends an analysis.
-/

namespace Wiring

namespace Turns

variable {ps : List Procedure}

theorem map_fst_perm (turns : Turns ps) : (turns.order.map Prod.fst).Perm ps := by
  have hperm := turns.perm.map Prod.fst
  rw [List.zipIdx_map_fst] at hperm
  exact hperm

/-- Why an analysis with these turns fails for the traces, if the options do not let them be left
out: the first fault in turn counts. -/
def fault? (o : Options) (turns : Turns ps) : Option Error :=
  match o.traceErrors with
  | .skip => none
  | .fail => (turns.order.map Prod.fst).findSome? Procedure.fault?

theorem fault?_inOrder (o : Options) (f : Facts) :
    (inOrder f.procedures).fault? o = Analysis.fault? o f := by
  have horder : (inOrder f.procedures).order.map Prod.fst = f.procedures :=
    List.zipIdx_map_fst 0 f.procedures
  unfold fault? Analysis.fault?
  cases o.traceErrors with
  | skip => rfl
  | fail => exact congrArg (List.findSome? Procedure.fault?) horder

/-- Every procedure may take the first turn. -/
theorem exists_first {p : Procedure} (h : p ∈ ps) :
    ∃ (turns : Turns ps) (i : Nat) (rest : List (Procedure × Nat)),
      turns.order = (p, i) :: rest := by
  rw [← List.zipIdx_map_fst 0 ps] at h
  obtain ⟨⟨q, i⟩, hq, rfl⟩ := List.mem_map.1 h
  exact ⟨⟨(q, i) :: ps.zipIdx.erase (q, i), (List.perm_cons_erase hq).symm⟩, i, _, rfl⟩

/-- Whether there is a fault does not depend on the turns. -/
theorem fault?_eq_none_iff {o : Options} (turns : Turns ps) :
    turns.fault? o = none ↔ o.traceErrors = .fail → ∀ p ∈ ps, p.fault? = none := by
  unfold fault?
  cases o.traceErrors with
  | skip => simp
  | fail => simp [List.findSome?_eq_none_iff, ← turns.map_fst_perm.mem_iff]

end Turns

namespace Analysis

/-! ## What the turns add up to -/

/-- The entries of procedures that are left out, with their numbers. -/
def numbered? (turn : Procedure × Nat) : Option (Skipped × Nat) :=
  (skipped? turn.1).map (fun entry => (entry, turn.2))

/-- Unless a fault ends the analysis, the sink gets the findings of the sound procedures and the
others are left out. -/
theorem checkProcedures_eq_ok {policy : TraceErrorPolicy} {turns : List (Procedure × Nat)}
    (h : policy = .fail → ∀ turn ∈ turns, turn.1.fault? = none) (s : Sink) :
    checkProcedures policy turns s =
      .ok (s.extend (((turns.map Prod.fst).filter (fun p => p.fault?.isNone)).flatMap
        Procedure.findings), turns.filterMap numbered?) := by
  induction turns generalizing s with
  | nil => simp [checkProcedures, Sink.extend]
  | cons turn turns ih =>
    obtain ⟨p, i⟩ := turn
    have hturns : policy = .fail → ∀ turn ∈ turns, turn.1.fault? = none :=
      fun hfail turn hturn => h hfail turn (List.mem_cons_of_mem _ hturn)
    rw [checkProcedures, checkProcedure, Procedure.analyze]
    cases hp : p.fault? with
    | none =>
      simp [bind, Except.bind, pure, Except.pure, ih hturns, hp, Sink.extend, numbered?, skipped?]
    | some e =>
      cases policy with
      | fail =>
        have hnone := h rfl (p, i) List.mem_cons_self
        rw [hp] at hnone
        cases hnone
      | skip =>
        simp [bind, Except.bind, pure, Except.pure, ih hturns, hp, numbered?, skipped?]

theorem checkProcedures_eq_error {turns : List (Procedure × Nat)} {e : Error}
    (h : (turns.map Prod.fst).findSome? Procedure.fault? = some e) (s : Sink) :
    checkProcedures .fail turns s = .error e := by
  induction turns generalizing s with
  | nil => cases h
  | cons turn turns ih =>
    obtain ⟨p, i⟩ := turn
    rw [List.map_cons, List.findSome?_cons] at h
    rw [checkProcedures, checkProcedure, Procedure.analyze]
    cases hp : p.fault? with
    | none =>
      simp only [hp] at h
      simp [bind, Except.bind, ih h]
    | some e' =>
      simp only [hp, Option.some.injEq] at h
      simp [bind, Except.bind, h]

theorem length_sound_add_length_skipped (f : Facts) :
    (sound f).length + (skipped f).length = f.procedures.length := by
  unfold sound skipped
  induction f.procedures with
  | nil => rfl
  | cons p ps ih =>
    cases hp : p.fault? with
    | none =>
      simp only [List.filter_cons, List.filterMap_cons, skipped?, hp, Option.isNone_none, if_true,
        Option.map_none, List.length_cons]
      omega
    | some e =>
      simp only [List.filter_cons, List.filterMap_cons, skipped?, hp, Option.isNone_some,
        Bool.false_eq_true, if_false, Option.map_some, List.length_cons]
      omega

/-! ## What does not depend on the turns -/

/-- Severities are set by the options, whatever they were. -/
theorem configured_map_plain (o : Options) (ds : List Diagnostic) :
    configured o (ds.map Diagnostic.plain) = configured o ds := by
  unfold configured
  rw [List.filter_map, List.map_map]
  rfl

theorem configured_finish_of_perm (o : Options) {s s' : Sink} (h : s.entries.Perm s'.entries) :
    configured o s.finish = configured o s'.finish := by
  rw [← configured_map_plain, Sink.map_plain_finish_of_perm h, configured_map_plain]

/-- Numbers go up along the entries of procedures in their order. -/
theorem pairwise_numbered (ps : List Procedure) :
    (ps.zipIdx.filterMap numbered?).Pairwise (fun a b => a.2 < b.2) := by
  have hzip : ps.zipIdx.Pairwise (fun a b => a.2 < b.2) := by
    rw [← List.pairwise_map (f := Prod.snd), List.zipIdx_map_snd]
    exact List.pairwise_lt_range'
  refine hzip.filterMap _ (fun turn turn' hlt a ha b hb => ?_)
  obtain ⟨-, -, rfl⟩ := Option.map_eq_some_iff.1 ha
  obtain ⟨-, -, rfl⟩ := Option.map_eq_some_iff.1 hb
  exact hlt

theorem map_fst_numbered (f : Facts) :
    (f.procedures.zipIdx.filterMap numbered?).map Prod.fst = skipped f := by
  have hentry : ∀ turn : Procedure × Nat, (numbered? turn).map Prod.fst = skipped? turn.1 := by
    intro turn
    rw [numbered?, Option.map_map]
    exact Option.map_id_apply
  rw [List.map_filterMap, funext hentry, skipped]
  conv_rhs => rw [← List.zipIdx_map_fst 0 f.procedures, List.filterMap_map]
  rfl

/-- Whatever the turns were, the entries are collected in the order of the procedures. -/
theorem collected_filterMap_numbered? (f : Facts) (turns : Turns f.procedures) :
    collected (turns.order.filterMap numbered?) = skipped f := by
  have hperm : (turns.order.filterMap numbered?).Perm (f.procedures.zipIdx.filterMap numbered?) :=
    turns.perm.filterMap _
  have hlt := pairwise_numbered f.procedures
  have hnodup : ((f.procedures.zipIdx.filterMap numbered?).map Prod.snd).Nodup :=
    List.pairwise_map.2 (hlt.imp Nat.ne_of_lt)
  have hsort : (turns.order.filterMap numbered?).mergeSort (fun a b => a.2 ≤ b.2) =
      (f.procedures.zipIdx.filterMap numbered?).mergeSort (fun a b => a.2 ≤ b.2) := by
    refine mergeSort_eq_of_perm ?_ ?_ ?_ hperm
    · intro a b c hab hbc
      simp only [decide_eq_true_eq] at hab hbc ⊢
      exact Nat.le_trans hab hbc
    · intro a b
      simp only [Bool.or_eq_true, decide_eq_true_eq]
      exact Nat.le_total _ _
    · intro a ha b hb hab hba
      simp only [decide_eq_true_eq] at hab hba
      exact List.inj_on_of_nodup_map hnodup (hperm.mem_iff.1 ha) (hperm.mem_iff.1 hb)
        (Nat.le_antisymm hab hba)
  have hsorted : (f.procedures.zipIdx.filterMap numbered?).mergeSort (fun a b => a.2 ≤ b.2) =
      f.procedures.zipIdx.filterMap numbered? :=
    List.mergeSort_of_pairwise (hlt.imp (fun h => decide_eq_true (Nat.le_of_lt h)))
  rw [collected, hsort, hsorted, map_fst_numbered]

/-- Whatever the turns were, the sound procedures have the same findings. -/
theorem findings_perm (f : Facts) (turns : Turns f.procedures) :
    (((turns.order.map Prod.fst).filter (fun p => p.fault?.isNone)).flatMap
      Procedure.findings).Perm ((sound f).flatMap Procedure.findings) :=
  (turns.map_fst_perm.filter _).flatMap_right _

/-- An analysis fails for the first fault in turn, and otherwise has one report for all turns. -/
theorem run_eq (o : Options) (f : Facts) (turns : Turns f.procedures) :
    run o f turns =
      match turns.fault? o with
      | some e => .error e
      | none => .ok (report o f) := by
  cases hf : turns.fault? o with
  | some e =>
    rw [Turns.fault?] at hf
    cases ho : o.traceErrors with
    | skip => simp [ho] at hf
    | fail =>
      simp only [ho] at hf
      simp [run, ho, checkProcedures_eq_error hf, bind, Except.bind]
  | none =>
    have hnone : o.traceErrors = .fail → ∀ turn ∈ turns.order, turn.1.fault? = none := by
      intro ho turn hturn
      exact turns.fault?_eq_none_iff.1 hf ho _
        (turns.map_fst_perm.mem_iff.1 (List.mem_map_of_mem hturn))
    have hleft := collected_filterMap_numbered? f turns
    have hlength : (turns.order.filterMap numbered?).length = (skipped f).length := by
      rw [← hleft, collected, List.length_map, List.length_mergeSort]
    have hanalyzed : f.procedures.length - (skipped f).length = (sound f).length := by
      have := length_sound_add_length_skipped f
      omega
    have hfindings : configured o ((((Sink.empty.extend (graphFindings o f)).extend
        (((turns.order.map Prod.fst).filter (fun p => p.fault?.isNone)).flatMap
          Procedure.findings)).extend (staticCacheFindings f.assignments)).finish) =
        configured o (findings o f) := by
      refine configured_finish_of_perm o ?_
      exact ((findings_perm f turns).append_left (graphFindings o f)).append_right _
    simp only [run, checkProcedures_eq_ok hnone, bind, Except.bind, pure, Except.pure, hleft,
      hlength, hanalyzed, hfindings]
    rfl

end Analysis

theorem analyzeIn_eq_error_iff {o : Options} {f : Facts} {turns : Turns f.procedures}
    {e : Error} : analyzeIn o f turns false = .error e ↔ turns.fault? o = some e := by
  show Analysis.run o f turns = .error e ↔ _
  rw [Analysis.run_eq]
  cases turns.fault? o with
  | none => simp
  | some e' => simp

theorem analyzeIn_eq_ok_iff {o : Options} {f : Facts} {turns : Turns f.procedures} {r : Report} :
    analyzeIn o f turns false = .ok r ↔ turns.fault? o = none ∧ Analysis.report o f = r := by
  show Analysis.run o f turns = .ok r ↔ _
  rw [Analysis.run_eq]
  cases turns.fault? o with
  | none => simp
  | some e => simp

theorem analyze_eq_error_iff {o : Options} {f : Facts} {e : Error} :
    analyze o f false = .error e ↔ Analysis.fault? o f = some e := by
  rw [← Turns.fault?_inOrder]
  exact analyzeIn_eq_error_iff

theorem analyze_eq_ok_iff {o : Options} {f : Facts} {r : Report} :
    analyze o f false = .ok r ↔ Analysis.fault? o f = none ∧ Analysis.report o f = r := by
  rw [← Turns.fault?_inOrder]
  exact analyzeIn_eq_ok_iff

/-- Where faults end an analysis, every one of them does so in some turns, and nothing else does. -/
theorem exists_turns_error_iff {o : Options} (h : o.traceErrors = .fail) (f : Facts) (e : Error) :
    (∃ turns, analyzeIn o f turns false = .error e) ↔ ∃ p ∈ f.procedures, p.fault? = some e := by
  simp only [analyzeIn_eq_error_iff, Turns.fault?, h]
  constructor
  · rintro ⟨turns, hturns⟩
    obtain ⟨p, hp, he⟩ := List.exists_of_findSome?_eq_some hturns
    exact ⟨p, turns.map_fst_perm.mem_iff.1 hp, he⟩
  · rintro ⟨p, hp, he⟩
    obtain ⟨turns, i, rest, hfirst⟩ := Turns.exists_first hp
    refine ⟨turns, ?_⟩
    rw [hfirst, List.map_cons, List.findSome?_cons, he]

end Wiring
