import Wiring.Proofs.Scope.Handles

/-!
# Handles with their states

At each point of a block the check knows the handles with the states they may be in. This module
computes them from the solution of the flow equations, and splits the findings of a procedure into
those about values, event by event, and those about handles that are left undisposed.
-/

namespace Wiring

namespace Rule

/-- Whether the rule is about a handle that is left undisposed. -/
def isUndisposed : Rule → Bool
  | .undisposedScope => true
  | .rootProviderNotDisposed => true
  | _ => false

/-- Whether the rule is about a value that is used or leaves at the wrong time. -/
def isMisuse : Rule → Bool
  | .useAfterDispose => true
  | .scopeEscape => true
  | .asyncScopeRequired => true
  | _ => false

end Rule

namespace Procedure

theorem fault?_eq_none_iff {p : Procedure} :
    p.fault? = none ↔ p.InRange ∧ p.dangling? = none := by
  unfold fault?
  constructor
  · intro h
    split at h
    · cases h
    · next hm => exact ⟨inRange_of_malformed?_eq_none hm, Option.map_eq_none_iff.1 h⟩
  · rintro ⟨hp, hd⟩
    rw [malformed?_eq_none_of_inRange hp]
    exact Option.map_eq_none_iff.2 hd

theorem analyze_eq_ok_iff {p : Procedure} {ds : List Diagnostic} :
    p.analyze = .ok ds ↔ p.fault? = none ∧ p.findings = ds := by
  unfold analyze
  cases p.fault? with
  | none => simp
  | some e => simp

/-- A trace that is accepted has its successors in range, and its findings are the answer. -/
theorem analyze_eq_ok {p : Procedure} {ds : List Diagnostic} (h : p.analyze = .ok ds) :
    p.InRange ∧ p.findings = ds := by
  obtain ⟨hfault, hds⟩ := analyze_eq_ok_iff.1 h
  exact ⟨(fault?_eq_none_iff.1 hfault).1, hds⟩

end Procedure

namespace Scope

/-! ## States at a point of a block -/

theorem Tracked.foldl_after (es : List Event) (ts : Tracked) :
    es.foldl Tracked.after ts = ts.map (fun t => (t.1, States.run t.1.name t.2 es)) := by
  induction es generalizing ts with
  | nil => exact (List.map_id ts).symm
  | cons e es ih =>
    rw [List.foldl_cons, ih, Tracked.after, List.map_map]
    rfl

/-- The handles with the states they may be in after the events `es` at the start of block `b`. -/
def statesAt (p : Procedure) (b : Nat) (es : List Event) : Tracked :=
  p.handles.map (fun h =>
    (h, States.run h.name ((Flow.of p).entry ((Flow.of p).solution h.name) b) es))

theorem tracked_solution (p : Procedure) (b : Nat) :
    tracked (Flow.of p) (p.handles.map (fun h => (h, (Flow.of p).solution h.name))) b =
      statesAt p b [] := by
  rw [tracked, List.map_map]
  rfl

theorem foldl_after_statesAt (p : Procedure) (b : Nat) (es es' : List Event) :
    es'.foldl Tracked.after (statesAt p b es) = statesAt p b (es ++ es') := by
  rw [Tracked.foldl_after, statesAt, List.map_map, statesAt]
  refine List.map_congr_left (fun h _ => ?_)
  rw [States.run_append]
  rfl

/-- A handle is looked up by its first creation, whatever states are kept with it. -/
theorem find?_map_handles (p : Procedure) (states : Handle → States) (name : String) :
    Tracked.find? (p.handles.map (fun h => (h, states h))) name =
      (p.firstCreation? name).map (fun h => (h, states h)) := by
  rw [← Procedure.find?_handles, Tracked.find?, List.find?_map]
  rfl

theorem derived?_map_handles (p : Procedure) (states : Handle → States) (value : String) :
    derived? p (p.handles.map (fun h => (h, states h))) value =
      ((p.lastSource? value).bind p.firstCreation?).map (fun h => (h, states h)) := by
  rw [derived?, Procedure.derivedFrom?_eq, Procedure.lastSource?, Option.map_bind]
  exact congrArg (Option.bind _) (funext (find?_map_handles p states))

/-! ## The two kinds of findings -/

theorem escape_congr {p q : Procedure} (hname : p.name = q.name)
    (hasync : p.isAsync = q.isAsync) : escape p = escape q := by
  funext c value sink location
  unfold escape needsAsyncScope
  rw [hname, hasync]

theorem undisposed_congr {p q : Procedure} (hname : p.name = q.name) :
    undisposed p = undisposed q := by
  funext c
  simp only [undisposed, hname]

theorem rule_undisposed (p : Procedure) (h : Handle) :
    (undisposed p h).rule =
      match h.kind with
      | .scope => .undisposedScope
      | .rootProvider => .rootProviderNotDisposed := by
  rw [undisposed]
  cases h.kind <;> rfl

theorem isUndisposed_undisposed (p : Procedure) (h : Handle) :
    (undisposed p h).rule.isUndisposed = true ∧ (undisposed p h).rule.isMisuse = false := by
  rw [rule_undisposed]
  cases h.kind <;> exact ⟨rfl, rfl⟩

theorem isMisuse_escape (p : Procedure) (h : Handle) (value : String) (sink : EscapeSink)
    (location : Location) : (escape p h value sink location).rule.isMisuse = true := by
  rw [escape]
  split <;> rfl

theorem isMisuse_of_finding? {p : Procedure} {ts : Tracked} {e : Event} {d : Diagnostic}
    (h : finding? p ts e = some d) : d.rule.isMisuse = true := by
  cases e with
  | create _ _ _ _ _ | dispose _ _ => exact nomatch h
  | resolve _ _ _ | use _ _ =>
    simp only [finding?] at h
    split at h
    · split at h
      · exact Option.some.inj h ▸ rfl
      · exact nomatch h
    · exact nomatch h
  | escape _ _ _ =>
    simp only [finding?] at h
    split at h
    · exact nomatch h
    · split at h
      · split at h
        · exact Option.some.inj h ▸ isMisuse_escape _ _ _ _ _
        · exact nomatch h
      · exact nomatch h

theorem isMisuse_of_mem_findingsIn {p : Procedure} {es : List Event} :
    ∀ {ts : Tracked} {d : Diagnostic}, d ∈ findingsIn p ts es → d.rule.isMisuse = true := by
  induction es with
  | nil => exact fun h => absurd h List.not_mem_nil
  | cons e es ih =>
    intro ts d h
    rw [findingsIn, List.mem_append, Option.mem_toList] at h
    rcases h with h | h
    · exact isMisuse_of_finding? h
    · exact ih h

theorem not_isUndisposed_of_isMisuse {r : Rule} (h : r.isMisuse = true) :
    r.isUndisposed = false := by
  cases r <;> first | rfl | exact Bool.noConfusion h

/-- The findings about values are those of the events, block by block. -/
theorem filter_isMisuse_findingsOf (p : Procedure) (f : Flow) (outs : List (Handle × List States))
    (bs : List Nat) (reported : List Handle) :
    (findingsOf p f outs bs reported).filter (fun d => d.rule.isMisuse) =
      bs.flatMap (fun b => findingsIn p (tracked f outs b) (f.eventsOf b)) := by
  induction bs generalizing reported with
  | nil => rfl
  | cons b bs ih =>
    rw [findingsOf, List.filter_append, List.filter_append, ih, List.flatMap_cons]
    congr 1
    rw [List.filter_eq_self.2 (fun d => isMisuse_of_mem_findingsIn), List.filter_eq_nil_iff.2,
      List.append_nil]
    intro d hd
    obtain ⟨h, -, rfl⟩ := List.mem_map.1 hd
    rw [(isUndisposed_undisposed p h).2]
    exact Bool.false_ne_true

/-- There are no other findings than these two kinds. -/
theorem isMisuse_or_isUndisposed_of_mem_findingsOf {p : Procedure} {f : Flow}
    {outs : List (Handle × List States)} {bs : List Nat} {reported : List Handle} {d : Diagnostic}
    (h : d ∈ findingsOf p f outs bs reported) :
    d.rule.isMisuse = true ∨ d.rule.isUndisposed = true := by
  induction bs generalizing reported with
  | nil => exact absurd h List.not_mem_nil
  | cons b bs ih =>
    rw [findingsOf, List.mem_append, List.mem_append] at h
    rcases h with (h | h) | h
    · exact Or.inl (isMisuse_of_mem_findingsIn h)
    · obtain ⟨c, -, rfl⟩ := List.mem_map.1 h
      exact Or.inr (isUndisposed_undisposed p c).1
    · exact ih h

end Scope

end Wiring
