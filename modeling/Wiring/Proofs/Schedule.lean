import Mathlib.Data.List.Permutation
import Wiring.Proofs.Sink

/-!
# Schedules of a sink

Checks that run side by side append to one sink, one finding or a batch of them at a time, and the
schedule decides in which order the appends arrive. Where severities go by the rule, the findings
are compared in all that tells them apart, so no trace of the schedule is left when they are handed
out.

Results:
1. `Diagnostic.precedes_iff`: the comparison of findings goes by place, rule, message and related
   places, and is certain about equality.
2. `Sink.finish_afterAppends`: what is handed out is strictly ascending, holds exactly what was
   appended, and is the same for every schedule.
-/

namespace Wiring

namespace Diagnostic

/-- By place; at the same place by rule; of the same rule by message; with the same message by
related places. -/
def Precedes (a b : Diagnostic) : Prop :=
  a.primary.cmp b.primary = .lt ∨ a.primary = b.primary ∧
    (a.rule.index < b.rule.index ∨ a.rule = b.rule ∧
      (a.message < b.message ∨ a.message = b.message ∧
        Location.cmpAll a.related b.related = .lt))

theorem precedes_iff {a b : Diagnostic} : a.Precedes b ↔ a.cmp b = .lt := by
  have hplace : a.primary.cmp b.primary = .eq ↔ a.primary = b.primary :=
    Std.LawfulEqCmp.compare_eq_iff_eq
  have hrule : compare a.rule.index b.rule.index = .eq ↔ a.rule = b.rule :=
    Std.LawfulEqCmp.compare_eq_iff_eq.trans ⟨Rule.index_injective, congrArg Rule.index⟩
  have hmessage : compare a.message b.message = .eq ↔ a.message = b.message :=
    Std.LawfulEqCmp.compare_eq_iff_eq
  have hbefore : compare a.message b.message = .lt ↔ a.message < b.message :=
    compareOfLessAndEq_eq_lt
  simp only [Precedes, cmp, cmpBrief, Ordering.then_assoc, Ordering.then_eq_lt, hplace, hrule,
    hmessage, hbefore, Nat.compare_eq_lt]

/-- Where severities go by the rule, findings that compare equal are equal. -/
theorem eq_of_cmp_of_severity {severity : Rule → Severity} {a b : Diagnostic}
    (ha : a.severity = severity a.rule) (hb : b.severity = severity b.rule)
    (h : a.cmp b = .eq) : a = b := by
  have hplain := plain_eq_of_cmp h
  cases a
  cases b
  simp_all [plain, Diagnostic.of]

end Diagnostic

/-- One append to a sink, which no other append can divide. -/
inductive Append where
  | push (d : Diagnostic)
  | extend (ds : List Diagnostic)
deriving Repr

namespace Append

/-- The findings that are appended. -/
def findings : Append → List Diagnostic
  | .push d => [d]
  | .extend ds => ds

/-- The sink with the findings in it. -/
def apply (s : Sink) : Append → Sink
  | .push d => s.push d
  | .extend ds => s.extend ds

theorem entries_apply (s : Sink) (a : Append) : (apply s a).entries = s.entries ++ a.findings := by
  cases a <;> rfl

end Append

/-- The findings of a schedule in the order of arrival. -/
def delivered (schedule : List Append) : List Diagnostic :=
  schedule.flatMap Append.findings

namespace Sink

/-- The sink when all appends of the schedule have arrived. -/
def afterAppends (schedule : List Append) : Sink :=
  schedule.foldl Append.apply .empty

theorem entries_afterAppends (schedule : List Append) :
    (afterAppends schedule).entries = delivered schedule := by
  have hfold : ∀ s : Sink, (schedule.foldl Append.apply s).entries =
      s.entries ++ delivered schedule := by
    induction schedule with
    | nil => exact fun s => (List.append_nil _).symm
    | cons a schedule ih =>
      intro s
      rw [List.foldl_cons, ih, Append.entries_apply, List.append_assoc]
      rfl
  exact hfold .empty

/-- The schedule leaves no trace: the findings come out in strictly ascending order of place, rule,
message and related places, exactly those that were appended and each of them once, whatever the
order of the appends and however the findings are divided into batches. -/
theorem finish_afterAppends {severity : Rule → Severity} {schedule : List Append}
    (h : ∀ d ∈ delivered schedule, d.severity = severity d.rule) :
    (afterAppends schedule).finish.Pairwise Diagnostic.Precedes ∧
    (∀ d, d ∈ (afterAppends schedule).finish ↔ d ∈ delivered schedule) ∧
    (afterAppends schedule).finish.Nodup ∧
    ∀ schedule', (delivered schedule').Perm (delivered schedule) →
      (afterAppends schedule').finish = (afterAppends schedule).finish := by
  have hmem : ∀ t : List Append, (∀ d ∈ delivered t, d.severity = severity d.rule) →
      ∀ d, d ∈ (afterAppends t).finish ↔ d ∈ delivered t := by
    intro t ht d
    rw [← entries_afterAppends]
    refine mem_finish_iff (fun a ha b hb heq => ?_)
    rw [entries_afterAppends] at ha hb
    exact Diagnostic.eq_of_cmp_of_severity (ht a ha) (ht b hb) heq
  refine ⟨(pairwise_finish _).imp Diagnostic.precedes_iff.2, hmem schedule h,
    nodup_of_pairwise_cmp (pairwise_finish _), fun schedule' hperm => ?_⟩
  have h' : ∀ d ∈ delivered schedule', d.severity = severity d.rule :=
    fun d hd => h d (hperm.mem_iff.1 hd)
  refine eq_of_pairwise_cmp_of_mem_iff (pairwise_finish _) (pairwise_finish _) (fun d => ?_)
  rw [hmem schedule' h', hmem schedule h, hperm.mem_iff]

/-- A finding that two checks report. -/
def leak : Diagnostic :=
  .of .undisposedScope "left open" ⟨"b", 4, 0⟩ []

/-- A finding before it, in another file. -/
def flight : Diagnostic :=
  .of .scopeEscape "let go" ⟨"a", 9, 0⟩ [⟨"b", 4, 0⟩]

theorem finish_afterAppends_side_by_side :
    (∀ d ∈ delivered [.push leak, .extend [flight, leak]],
      d.severity = d.rule.defaultSeverity) ∧
    (delivered [.extend [leak, leak], .push flight]).Perm
      (delivered [.push leak, .extend [flight, leak]]) ∧
    (afterAppends [.push leak, .extend [flight, leak]]).finish = [flight, leak] ∧
    (afterAppends [.extend [leak, leak], .push flight]).finish = [flight, leak] := by
  have hseverity : ∀ d ∈ delivered [.push leak, .extend [flight, leak]],
      d.severity = d.rule.defaultSeverity := by decide
  have hperm : (delivered [.extend [leak, leak], .push flight]).Perm
      (delivered [.push leak, .extend [flight, leak]]) := by decide
  have hfinish : (afterAppends [.push leak, .extend [flight, leak]]).finish = [flight, leak] := by
    cbv
  have hsame := (finish_afterAppends hseverity).2.2.2 _ hperm
  exact ⟨hseverity, hperm, hfinish, hsame.trans hfinish⟩

end Sink

end Wiring
