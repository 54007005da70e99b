import Mathlib.Data.List.Forall2
import Wiring.Proofs.Scope.Misuse
import Wiring.Proofs.Scope.Undisposed

/-!
# Synchronous and asynchronous procedures

Whether a procedure is asynchronous has a say in one thing alone: under which rule it is reported
that a value leaves while its scope is alive. The states of the handles, the findings about uses and
about handles left undisposed, and the order of all findings are the same in both runs of a trace;
where the scope comes from a synchronous statement, the asynchronous run asks for an asynchronous
scope at the place where the synchronous one reports the escape.

Results:
1. `Scope.reclassified_escape`: one escape, in both runs.
2. `Scope.forall₂_findingsIn`, `Scope.forall₂_findingsOf`: the events of a block, and the blocks.
3. `Procedure.analyze_inMode`: the two answers, position by position.
-/

namespace Wiring

open Scope

namespace Procedure

/-- The trace in a procedure that is asynchronous or not. -/
def inMode (p : Procedure) (isAsync : Bool) : Procedure :=
  { p with isAsync := isAsync }

/-- The finding of the synchronous run that the value of an escape leaves while its scope `c` is
alive. -/
def EscapeFrom (p : Procedure) (c : Handle) (d : Diagnostic) : Prop :=
  ∃ value sink location, .escape value sink location ∈ p.events ∧
    p.concerned? (.escape value sink location) = some c ∧ d.rule = .scopeEscape ∧
    d = Scope.escape (p.inMode false) c value sink location

end Procedure

/-- The handle is created synchronously, in a statement that releases it synchronously. -/
def Handle.SyncUsing (c : Handle) : Prop :=
  c.isAsync = false ∧ c.acquisition = .usingStatement

namespace Scope

/-- What the synchronous and the asynchronous run of a trace have at one position. -/
inductive Reclassified (p : Procedure) : Diagnostic → Diagnostic → Prop
  /-- A value of a synchronous scope escapes: another rule, at the same places. -/
  | required {c : Handle} {d d' : Diagnostic} :
      p.EscapeFrom c d → c.SyncUsing → d'.rule = .asyncScopeRequired →
      d'.primary = d.primary → d'.related = d.related → Reclassified p d d'
  /-- Everything else is the same finding; an escape among it has another kind of scope. -/
  | same {d : Diagnostic} :
      d.rule ≠ .asyncScopeRequired →
      (d.rule = .scopeEscape → ∃ c, p.EscapeFrom c d ∧ ¬ c.SyncUsing) → Reclassified p d d

theorem Reclassified.rule_ne {p : Procedure} {d d' : Diagnostic} (h : Reclassified p d d') :
    d.rule ≠ .asyncScopeRequired := by
  cases h with
  | required he _ _ _ _ =>
    obtain ⟨_, _, _, -, -, hrule, -⟩ := he
    rw [hrule]
    decide
  | same hne _ => exact hne

theorem needsAsyncScope_inMode_iff (p : Procedure) (isAsync : Bool) (c : Handle) :
    needsAsyncScope (p.inMode isAsync) c ↔ isAsync = true ∧ c.SyncUsing := by
  simp [needsAsyncScope, Procedure.inMode, Handle.SyncUsing, and_assoc]

/-- An escape is reported in both runs, and only the rule and its wording depend on the run. -/
theorem reclassified_escape {p : Procedure} {c : Handle} {value : String} {sink : EscapeSink}
    {location : Location} (hmem : .escape value sink location ∈ p.events)
    (hc : p.concerned? (.escape value sink location) = some c) :
    Reclassified p (escape (p.inMode false) c value sink location)
      (escape (p.inMode true) c value sink location) := by
  have hsync : ¬ needsAsyncScope (p.inMode false) c := fun h =>
    Bool.false_ne_true ((needsAsyncScope_inMode_iff p false c).1 h).1
  have hfrom : p.EscapeFrom c (escape (p.inMode false) c value sink location) := by
    refine ⟨value, sink, location, hmem, hc, ?_, rfl⟩
    rw [escape, if_neg hsync]
    rfl
  by_cases hu : c.SyncUsing
  · have hasync : needsAsyncScope (p.inMode true) c :=
      (needsAsyncScope_inMode_iff p true c).2 ⟨rfl, hu⟩
    refine .required hfrom hu ?_ ?_ ?_
    · rw [escape, if_pos hasync]
      rfl
    · rw [escape, escape, if_pos hasync, if_neg hsync]
      rfl
    · rw [escape, escape, if_pos hasync, if_neg hsync]
      rfl
  · have hasync : ¬ needsAsyncScope (p.inMode true) c := fun h =>
      hu ((needsAsyncScope_inMode_iff p true c).1 h).2
    have hsame : escape (p.inMode true) c value sink location =
        escape (p.inMode false) c value sink location := by
      rw [escape, escape, if_neg hasync, if_neg hsync]
    rw [hsame]
    refine .same ?_ (fun _ => ⟨c, hfrom, hu⟩)
    rw [escape, if_neg hsync]
    exact (by decide : Rule.scopeEscape ≠ .asyncScopeRequired)

theorem reclassified_of_rule_ne (p : Procedure) {d : Diagnostic}
    (hasync : d.rule ≠ .asyncScopeRequired) (hescape : d.rule ≠ .scopeEscape) :
    Reclassified p d d :=
  .same hasync (fun h => absurd h hescape)

theorem reclassified_useAfterDispose (p : Procedure) (c : Handle) (value : String)
    (location : Location) :
    Reclassified p (useAfterDispose c value location) (useAfterDispose c value location) :=
  reclassified_of_rule_ne p (by decide : Rule.useAfterDispose ≠ .asyncScopeRequired)
    (by decide : Rule.useAfterDispose ≠ .scopeEscape)

theorem reclassified_undisposed (p : Procedure) (c : Handle) :
    Reclassified p (undisposed p c) (undisposed p c) := by
  have hrule := (isUndisposed_undisposed p c).1
  refine reclassified_of_rule_ne p (fun h => ?_) (fun h => ?_)
  · rw [h] at hrule
    exact Bool.false_ne_true hrule
  · rw [h] at hrule
    exact Bool.false_ne_true hrule

/-! ## Both runs of a trace -/

section Events

variable {p : Procedure}

/-- One event that concerns the handle `c`, in the same states. -/
theorem forall₂_findingFor? {e : Event} {c : Handle} (hmem : e ∈ p.events)
    (hc : p.concerned? e = some c) (s : States) :
    List.Forall₂ (Reclassified p) (findingFor? (p.inMode false) c s e).toList
      (findingFor? (p.inMode true) c s e).toList := by
  cases e with
  | create _ _ _ _ _ | dispose _ _ => exact .nil
  | resolve _ value location | use value location =>
    simp only [findingFor?]
    split
    · exact .cons (reclassified_useAfterDispose p c value location) .nil
    · exact .nil
  | escape value sink location =>
    simp only [findingFor?]
    split
    · exact .cons (reclassified_escape hmem hc) .nil
    · exact .nil

/-- One event, with the handles in the same states. -/
theorem forall₂_finding? {e : Event} (hmem : e ∈ p.events) (states : Handle → States) :
    List.Forall₂ (Reclassified p)
      (finding? (p.inMode false) (p.handles.map (fun c => (c, states c))) e).toList
      (finding? (p.inMode true) (p.handles.map (fun c => (c, states c))) e).toList := by
  have hmode : ∀ isAsync, finding? (p.inMode isAsync) (p.handles.map (fun c => (c, states c))) e =
      (p.concerned? e).bind (fun c => findingFor? (p.inMode isAsync) c (states c) e) :=
    fun isAsync => finding?_map_handles (p.inMode isAsync) states e
  rw [hmode, hmode]
  cases hc : p.concerned? e with
  | none => exact .nil
  | some c => exact forall₂_findingFor? hmem hc (states c)

/-- The events of a block, from the same states on. -/
theorem forall₂_findingsIn {es : List Event} (hmem : ∀ e ∈ es, e ∈ p.events)
    (states : Handle → States) :
    List.Forall₂ (Reclassified p)
      (findingsIn (p.inMode false) (p.handles.map (fun c => (c, states c))) es)
      (findingsIn (p.inMode true) (p.handles.map (fun c => (c, states c))) es) := by
  induction es generalizing states with
  | nil => exact .nil
  | cons e es ih =>
    have hafter : Tracked.after (p.handles.map (fun c => (c, states c))) e =
        p.handles.map (fun c => (c, States.after c.name (states c) e)) := by
      rw [Tracked.after, List.map_map]
      rfl
    have hhead := forall₂_finding? (hmem e List.mem_cons_self) states
    have hrest := ih (fun e' he' => hmem e' (List.mem_cons_of_mem _ he'))
      (fun c => States.after c.name (states c) e)
    rw [findingsIn, findingsIn, hafter]
    exact List.rel_append hhead hrest

/-- The blocks one after the other, where both runs have reported the same handles before. -/
theorem forall₂_findingsOf (ends : Handle → List States) (bs : List Nat) (reported : List Handle) :
    List.Forall₂ (Reclassified p)
      (findingsOf (p.inMode false) (Flow.of p) (p.handles.map (fun c => (c, ends c))) bs reported)
      (findingsOf (p.inMode true) (Flow.of p) (p.handles.map (fun c => (c, ends c))) bs
        reported) := by
  induction bs generalizing reported with
  | nil => exact .nil
  | cons b bs ih =>
    have hevents : ∀ e ∈ (Flow.of p).eventsOf b, e ∈ p.events :=
      fun e he => Procedure.mem_events_iff.2 ⟨b, he⟩
    have hbefore : tracked (Flow.of p) (p.handles.map (fun c => (c, ends c))) b =
        p.handles.map (fun c => (c, (Flow.of p).entry (ends c) b)) := by
      rw [tracked, List.map_map]
      rfl
    have hopen : ∀ cs : List Handle, List.Forall₂ (Reclassified p)
        (cs.map (undisposed (p.inMode false))) (cs.map (undisposed (p.inMode true))) := by
      intro cs
      refine List.forall₂_same.2 (fun d hd => ?_)
      obtain ⟨c, -, rfl⟩ := List.mem_map.1 hd
      exact reclassified_undisposed p c
    rw [findingsOf_cons, findingsOf_cons, hbefore]
    exact List.rel_append (List.rel_append (forall₂_findingsIn hevents _) (hopen _)) (ih _)

end Events

end Scope

namespace Procedure

theorem forall₂_findings (p : Procedure) :
    List.Forall₂ (Reclassified p) (p.inMode false).findings (p.inMode true).findings :=
  forall₂_findingsOf (fun c => (Flow.of p).solution c.name) p.order []

/-- To make a procedure asynchronous replaces escapes and does nothing else. Every trace is refused
in both runs with the same error, or accepted in both. Then the answers are equally long and agree
position by position, except where the synchronous run has an escape from a scope whose first
creation is synchronous and in a synchronous statement: there the asynchronous run asks for an
asynchronous scope at the same places, which the synchronous run never does. -/
theorem analyze_inMode (p : Procedure) :
    (∃ error, (p.inMode false).analyze = .error error ∧ (p.inMode true).analyze = .error error) ∨
    ∃ ds ds', (p.inMode false).analyze = .ok ds ∧ (p.inMode true).analyze = .ok ds' ∧
      ds.length = ds'.length ∧ List.Forall₂ (Reclassified p) ds ds' ∧
      ∀ d ∈ ds, d.rule ≠ .asyncScopeRequired := by
  have hfault : ∀ isAsync, (p.inMode isAsync).fault? = p.fault? := fun _ => rfl
  cases hp : p.fault? with
  | some error =>
    refine Or.inl ⟨error, ?_, ?_⟩
    · rw [analyze, hfault, hp]
    · rw [analyze, hfault, hp]
  | none =>
    have hall := p.forall₂_findings
    have hne := ((List.forall₂_and_left _ _).1 (hall.imp (fun _ _ h => ⟨h.rule_ne, h⟩))).1
    exact Or.inr ⟨_, _, analyze_eq_ok_iff.2 ⟨(hfault false).trans hp, rfl⟩,
      analyze_eq_ok_iff.2 ⟨(hfault true).trans hp, rfl⟩, hall.length_eq, hall, hne⟩

end Procedure

end Wiring
