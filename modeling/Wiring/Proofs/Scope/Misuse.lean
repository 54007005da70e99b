import Wiring.Proofs.Scope.Tracked

/-!
# Values used or let go at the wrong time

A value is reported when it is used after its scope was disposed, or leaves while its scope is
alive. Either must be certain: it must hold on all walks to the event that have done anything to the
scope, and on one at least.
-/

namespace Wiring

namespace Procedure

/-- The handle that an event concerns: of a resolution the handle it resolves from; of a use the
handle of that name, or else the one that the value was resolved from; of the escape of a value that
is no handle, the one that the value was resolved from. -/
def concerned? (p : Procedure) : Event → Option Handle
  | .resolve h _ _ => p.firstCreation? h
  | .use v _ => (p.firstCreation? v).or ((p.lastSource? v).bind p.firstCreation?)
  | .escape v _ _ =>
    match p.firstCreation? v with
    | some _ => none
    | none => (p.lastSource? v).bind p.firstCreation?
  | _ => none

/-- The events of a walk over `bs` to event `i` of block `b`, that event excluded. -/
def eventsBefore (p : Procedure) (bs : List Nat) (b i : Nat) : List Event :=
  p.eventsAlong bs ++ (p.eventsIn b).take i

/-- Before event `i` of block `b` no walk leaves the handle created or escaped, and some walk leaves
it disposed. -/
def SurelyDisposed (p : Procedure) (b i : Nat) (handle : String) : Prop :=
  (∀ bs, p.Walk bs b → ¬ LeavesCreated handle (p.eventsBefore bs b i) ∧
    ¬ LeavesEscaped handle (p.eventsBefore bs b i)) ∧
  ∃ bs, p.Walk bs b ∧ LeavesDisposed handle (p.eventsBefore bs b i)

/-- Before event `i` of block `b` every walk leaves the handle untouched or just created, and some
walk leaves it created. -/
def SurelyAlive (p : Procedure) (b i : Nat) (handle : String) : Prop :=
  (∀ bs, p.Walk bs b → Untouched handle (p.eventsBefore bs b i) ∨
    LeavesCreated handle (p.eventsBefore bs b i)) ∧
  ∃ bs, p.Walk bs b ∧ LeavesCreated handle (p.eventsBefore bs b i)

end Procedure

namespace Scope

/-- What is to be reported for event `i` of block `b`. -/
inductive Misuse (p : Procedure) (b i : Nat) : Event → Diagnostic → Prop
  | resolve {c : Handle} {h result : String} {location : Location} :
      p.concerned? (.resolve h result location) = some c → c.kind = .scope →
      p.SurelyDisposed b i c.name →
      Misuse p b i (.resolve h result location) (useAfterDispose c result location)
  | use {c : Handle} {value : String} {location : Location} :
      p.concerned? (.use value location) = some c → c.kind = .scope →
      p.SurelyDisposed b i c.name →
      Misuse p b i (.use value location) (useAfterDispose c value location)
  | escape {c : Handle} {value : String} {sink : EscapeSink} {location : Location} :
      p.concerned? (.escape value sink location) = some c → c.kind = .scope →
      p.SurelyAlive b i c.name →
      Misuse p b i (.escape value sink location) (Scope.escape p c value sink location)

/-! ## Certain states -/

section Certain

variable {p : Procedure} (hp : p.InRange) {b : Nat} (hr : p.Reachable b) (i : Nat)

/-- The states of a handle before event `i` of block `b`. -/
def statesBefore (p : Procedure) (b i : Nat) (c : Handle) : States :=
  States.run c.name ((Flow.of p).entry ((Flow.of p).solution c.name) b) ((p.eventsIn b).take i)

include hp hr

theorem has_statesBefore_iff (c : Handle) (x : Phase) : (statesBefore p b i c).has x ↔
    ∃ bs, p.Walk bs b ∧ (States.run c.name .none (p.eventsBefore bs b i)).has x :=
  Flow.has_run_entry_iff hp hr _ x

theorem created_statesBefore_iff (c : Handle) : (statesBefore p b i c).created ↔
    ∃ bs, p.Walk bs b ∧ LeavesCreated c.name (p.eventsBefore bs b i) := by
  simp only [← States.created_run_iff]
  exact has_statesBefore_iff hp hr i c .created

theorem disposed_statesBefore_iff (c : Handle) : (statesBefore p b i c).disposed ↔
    ∃ bs, p.Walk bs b ∧ LeavesDisposed c.name (p.eventsBefore bs b i) := by
  simp only [← States.disposed_run_iff]
  exact has_statesBefore_iff hp hr i c .disposed

theorem escaped_statesBefore_iff (c : Handle) : (statesBefore p b i c).escaped ↔
    ∃ bs, p.Walk bs b ∧ LeavesEscaped c.name (p.eventsBefore bs b i) := by
  simp only [← States.escaped_run_iff]
  exact has_statesBefore_iff hp hr i c .escaped

theorem isDisposedScope_iff (c : Handle) :
    isDisposedScope (c, statesBefore p b i c) ↔
      c.kind = .scope ∧ p.SurelyDisposed b i c.name := by
  have hset : statesBefore p b i c = .onlyDisposed ↔
      ¬ (statesBefore p b i c).created ∧ ¬ (statesBefore p b i c).escaped ∧
        (statesBefore p b i c).disposed := by
    rw [States.onlyDisposed]
    cases statesBefore p b i c
    simp [and_comm]
  rw [isDisposedScope, Bool.and_eq_true, beq_iff_eq, beq_iff_eq, hset,
    created_statesBefore_iff hp hr, escaped_statesBefore_iff hp hr,
    disposed_statesBefore_iff hp hr, Procedure.SurelyDisposed]
  simp only [not_exists, not_and, forall_and, and_assoc]

theorem isLiveScope_iff (c : Handle) :
    isLiveScope (c, statesBefore p b i c) ↔ c.kind = .scope ∧ p.SurelyAlive b i c.name := by
  have hset : statesBefore p b i c = .onlyCreated ↔
      ¬ (statesBefore p b i c).disposed ∧ ¬ (statesBefore p b i c).escaped ∧
        (statesBefore p b i c).created := by
    rw [States.onlyCreated]
    cases statesBefore p b i c
    simp [and_comm, and_left_comm]
  rw [isLiveScope, Bool.and_eq_true, beq_iff_eq, beq_iff_eq, hset,
    created_statesBefore_iff hp hr, escaped_statesBefore_iff hp hr,
    disposed_statesBefore_iff hp hr, Procedure.SurelyAlive]
  simp only [States.untouched_or_created_iff, not_exists, not_and, forall_and, and_assoc]

end Certain

/-! ## The finding of one event -/

/-- What an event gives that concerns the handle `c` in these states. -/
def findingFor? (p : Procedure) (c : Handle) (s : States) : Event → Option Diagnostic
  | .resolve _ value location | .use value location =>
    if isDisposedScope (c, s) then some (useAfterDispose c value location) else none
  | .escape value sink location =>
    if isLiveScope (c, s) then some (escape p c value sink location) else none
  | _ => none

section Tracked

variable (p : Procedure) (states : Handle → States)

/-- An event is judged by the handle that it concerns. -/
theorem finding?_map_handles (e : Event) :
    finding? p (p.handles.map (fun c => (c, states c))) e =
      (p.concerned? e).bind (fun c => findingFor? p c (states c) e) := by
  cases e with
  | create _ _ _ _ _ | dispose _ _ => rfl
  | resolve h _ _ =>
    rw [finding?, find?_map_handles, Procedure.concerned?]
    cases p.firstCreation? h <;> rfl
  | use v _ =>
    rw [finding?, find?_map_handles, derived?_map_handles, ← Option.map_or, Procedure.concerned?]
    cases (p.firstCreation? v).or ((p.lastSource? v).bind p.firstCreation?) <;> rfl
  | escape v _ _ =>
    rw [finding?, find?_map_handles, derived?_map_handles, Procedure.concerned?]
    cases p.firstCreation? v with
    | some _ => rfl
    | none => cases (p.lastSource? v).bind p.firstCreation? <;> rfl

end Tracked

theorem finding?_eq_some_iff {p : Procedure} (hp : p.InRange) {b : Nat} (hr : p.Reachable b)
    (i : Nat) (e : Event) (d : Diagnostic) :
    finding? p (statesAt p b ((p.eventsIn b).take i)) e = some d ↔ Misuse p b i e d := by
  have hjudged : finding? p (statesAt p b ((p.eventsIn b).take i)) e =
      (p.concerned? e).bind (fun c => findingFor? p c (statesBefore p b i c) e) :=
    finding?_map_handles p (statesBefore p b i) e
  rw [hjudged, Option.bind_eq_some_iff]
  constructor
  · rintro ⟨c, hc, hd⟩
    cases e with
    | create _ _ _ _ _ | dispose _ _ => cases hd
    | resolve h result location =>
      obtain ⟨htest, hreport⟩ := Option.ite_none_right_eq_some.1 hd
      cases hreport
      obtain ⟨hk, hs⟩ := (isDisposedScope_iff hp hr i c).1 htest
      exact .resolve hc hk hs
    | use value location =>
      obtain ⟨htest, hreport⟩ := Option.ite_none_right_eq_some.1 hd
      cases hreport
      obtain ⟨hk, hs⟩ := (isDisposedScope_iff hp hr i c).1 htest
      exact .use hc hk hs
    | escape value sink location =>
      obtain ⟨htest, hreport⟩ := Option.ite_none_right_eq_some.1 hd
      cases hreport
      obtain ⟨hk, hs⟩ := (isLiveScope_iff hp hr i c).1 htest
      exact .escape hc hk hs
  · intro h
    cases h with
    | resolve hc hk hs | use hc hk hs =>
      exact ⟨_, hc, if_pos ((isDisposedScope_iff hp hr i _).2 ⟨hk, hs⟩)⟩
    | escape hc hk hs => exact ⟨_, hc, if_pos ((isLiveScope_iff hp hr i _).2 ⟨hk, hs⟩)⟩

/-! ## The findings of a procedure -/

/-- The finding of event `i` of block `b`. -/
def findingAt (p : Procedure) (b i : Nat) : Option Diagnostic :=
  (p.eventsIn b)[i]?.bind (finding? p (statesAt p b ((p.eventsIn b).take i)))

theorem findingsIn_eq_filterMap {p : Procedure} {b : Nat} (pre es : List Event)
    (h : p.eventsIn b = pre ++ es) :
    findingsIn p (statesAt p b pre) es =
      (List.range' pre.length es.length).filterMap (findingAt p b) := by
  induction es generalizing pre with
  | nil => rfl
  | cons e es ih =>
    -- the events before are carried along, so the head is the event at their number
    have hat : findingAt p b pre.length = finding? p (statesAt p b pre) e := by
      rw [findingAt, h, List.getElem?_append_right (Nat.le_refl _), Nat.sub_self, List.take_left]
      rfl
    have hafter : (statesAt p b pre).after e = statesAt p b (pre ++ [e]) :=
      foldl_after_statesAt p b pre [e]
    have hrest := ih (pre ++ [e]) (by rw [h, List.append_assoc]; rfl)
    rw [findingsIn, hafter, hrest, List.length_cons, List.range'_succ, List.filterMap_cons, hat,
      List.length_append]
    cases finding? p (statesAt p b pre) e <;> rfl

theorem filter_isMisuse_findings (p : Procedure) :
    p.findings.filter (fun d => d.rule.isMisuse) =
      p.order.flatMap (fun b =>
        (List.range (p.eventsIn b).length).filterMap (findingAt p b)) := by
  rw [Procedure.findings, filter_isMisuse_findingsOf]
  refine congrArg (fun f => List.flatMap f p.order) (funext (fun b => ?_))
  rw [tracked_solution, List.range_eq_range']
  exact findingsIn_eq_filterMap [] _ rfl

end Scope

open Scope

end Wiring
