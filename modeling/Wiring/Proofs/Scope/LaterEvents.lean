import Wiring.Proofs.Scope.Misuse
import Wiring.Proofs.Scope.StraightLine

/-!
# What later events do to earlier findings

The states of a handle at an event come from the events before it, but to whom a value belongs is
settled once for the whole procedure: a name that is created anywhere is a handle everywhere, and
any other value belongs to the handle that it is last resolved from. So one more event at the end of
a straight-line procedure leaves an earlier finding as it is, unless the event gives the value that
the finding is about to another owner.

Results:
1. `Scope.finding?_statesAfter`: an event is judged by the handle that it concerns and the events
   before it.
2. `Procedure.concerned?_concat`: the handle that an event concerns stays the same.
3. `Procedure.count_le_of_concat`: findings are kept as often as they were there.
4. `Procedure.resolution_retracts`, `Procedure.creation_retracts`: both ways to lose one.
-/

namespace Wiring

open Scope

namespace Scope

/-! ## One event -/

theorem finding?_statesAfter (p : Procedure) (pre : List Event) (e : Event) :
    finding? p (statesAfter p pre) e =
      (p.concerned? e).bind (fun c => findingFor? p c (States.run c.name .none pre) e) :=
  finding?_map_handles p _ e

/-- The wording of a finding depends on nothing but the name and the mode of the procedure. -/
theorem findingFor?_congr {p q : Procedure} (hname : p.name = q.name)
    (hasync : p.isAsync = q.isAsync) : findingFor? p = findingFor? q := by
  funext c s e
  cases e with
  | create _ _ _ _ _ | dispose _ _ | resolve _ _ _ | use _ _ => rfl
  | escape _ _ _ => simp only [findingFor?, escape_congr hname hasync]

/-! ## Events one after the other -/

/-- Where the second procedure reports whatever the first one reports, it does so as often. -/
theorem count_findingsIn_le {p q : Procedure} {d : Diagnostic} {es : List Event}
    (hstep : ∀ pre, ∀ e ∈ es, finding? p (statesAfter p pre) e = some d →
      finding? q (statesAfter q pre) e = some d) (pre : List Event) :
    (findingsIn p (statesAfter p pre) es).count d ≤
      (findingsIn q (statesAfter q pre) es).count d := by
  induction es generalizing pre with
  | nil => exact Nat.le_refl _
  | cons e es ih =>
    have hafter : ∀ r : Procedure, (statesAfter r pre).after e = statesAfter r (pre ++ [e]) :=
      fun r => foldl_after_statesAfter r pre [e]
    have hhead : (finding? p (statesAfter p pre) e).toList.count d ≤
        (finding? q (statesAfter q pre) e).toList.count d := by
      by_cases hd : finding? p (statesAfter p pre) e = some d
      · exact Nat.le_of_eq (by rw [hd, hstep pre e List.mem_cons_self hd])
      · rw [List.count_eq_zero_of_not_mem (fun hmem => hd (Option.mem_toList.1 hmem))]
        exact Nat.zero_le _
    have hrest := ih (fun pre e he => hstep pre e (List.mem_cons_of_mem _ he)) (pre ++ [e])
    rw [findingsIn, findingsIn, List.count_append, List.count_append, hafter, hafter]
    exact Nat.add_le_add hhead hrest

end Scope

namespace Procedure

/-! ## One more event -/

/-- The event gives the value, which is no handle so far and was resolved before, to another owner:
it creates a handle of this name, or resolves the value from another handle. -/
def Reowns (es : List Event) (e : Event) (value : String) : Prop :=
  value ∉ Handle.namesIn es ∧ ∃ source, derivedFrom? value es = some source ∧
    ((∃ c, e.created? = some c ∧ c.name = value) ∨
      ∃ h, e.resolvedFrom? value = some h ∧ h ≠ source)

/-- The finding is about a use or an escape of the value, whose owner is `c`. -/
inductive About (p : Procedure) (value : String) : Diagnostic → Prop
  | use {c : Handle} {location : Location} :
      .use value location ∈ p.events → p.concerned? (.use value location) = some c →
      About p value (useAfterDispose c value location)
  | escape {c : Handle} {sink : EscapeSink} {location : Location} :
      .escape value sink location ∈ p.events →
      p.concerned? (.escape value sink location) = some c →
      About p value (Scope.escape p c value sink location)

/-- What is reported for an event about a value is about this value. -/
theorem about_of_findingFor? {p : Procedure} {x : Event} {c : Handle} {s : States}
    {d : Diagnostic} {value : String} (hmem : x ∈ p.events) (hc : p.concerned? x = some c)
    (hd : findingFor? p c s x = some d)
    (hx : (∃ location, x = .use value location) ∨
      ∃ sink location, x = .escape value sink location) : p.About value d := by
  rcases hx with ⟨location, rfl⟩ | ⟨sink, location, rfl⟩
  · rw [findingFor?] at hd
    split at hd
    · obtain rfl := Option.some.inj hd
      exact .use hmem hc
    · cases hd
  · rw [findingFor?] at hd
    split at hd
    · obtain rfl := Option.some.inj hd
      exact .escape hmem hc
    · cases hd

section Concat

variable {p q : Procedure} {e : Event} (hq : q.events = p.events ++ [e])

include hq

theorem firstCreation?_concat (name : String) :
    q.firstCreation? name =
      (p.firstCreation? name).or (e.created?.toList.find? (fun c => c.name == name)) := by
  rw [firstCreation?, firstCreation?, hq, List.filterMap_append, List.find?_append]
  cases h : e.created? <;> simp [h]

theorem lastSource?_concat (value : String) :
    q.lastSource? value = (e.resolvedFrom? value).or (p.lastSource? value) := by
  rw [lastSource?, lastSource?, hq, List.filterMap_append, List.getLast?_append]
  cases h : e.resolvedFrom? value <;> simp [h]

theorem firstCreation?_concat_of_some {name : String} {c : Handle}
    (h : p.firstCreation? name = some c) : q.firstCreation? name = some c := by
  rw [firstCreation?_concat hq, h]
  rfl

/-- A value that is no handle keeps its owner, unless the event gives it to another. -/
theorem owner_concat {value : String} {c : Handle} (hvalue : p.firstCreation? value = none)
    (hc : (p.lastSource? value).bind p.firstCreation? = some c) :
    (q.firstCreation? value = none ∧ (q.lastSource? value).bind q.firstCreation? = some c) ∨
      Reowns p.events e value := by
  obtain ⟨source, hsource, hc⟩ := Option.bind_eq_some_iff.1 hc
  have hderived : derivedFrom? value p.events = some source :=
    (derivedFrom?_eq value p.events).trans hsource
  have hnew : value ∉ Handle.namesIn p.events := firstCreation?_eq_none_iff.1 hvalue
  cases hcreated : e.created?.toList.find? (fun c => c.name == value) with
  | some c' =>
    have hc' : e.created? = some c' := Option.mem_toList.1 (List.mem_of_find?_eq_some hcreated)
    exact Or.inr ⟨hnew, source, hderived, Or.inl ⟨c', hc', by simpa using List.find?_some hcreated⟩⟩
  | none =>
    have hnone : q.firstCreation? value = none := by
      rw [firstCreation?_concat hq, hvalue, hcreated]
      rfl
    by_cases hsame : (e.resolvedFrom? value).or (some source) = some source
    · refine Or.inl ⟨hnone, ?_⟩
      rw [lastSource?_concat hq, hsource, hsame]
      exact firstCreation?_concat_of_some hq hc
    · cases hresolved : e.resolvedFrom? value with
      | none => exact absurd (by rw [hresolved]; rfl) hsame
      | some h =>
        refine Or.inr ⟨hnew, source, hderived, Or.inr ⟨h, hresolved, fun heq => hsame ?_⟩⟩
        rw [hresolved, heq]
        rfl

/-- The handle that an event concerns is the same with one more event, unless that gives the value
of the event to another owner. -/
theorem concerned?_concat {x : Event} {c : Handle} (hc : p.concerned? x = some c) :
    q.concerned? x = some c ∨ ∃ value, Reowns p.events e value ∧
      ((∃ location, x = .use value location) ∨
        ∃ sink location, x = .escape value sink location) := by
  cases x with
  | create _ _ _ _ _ | dispose _ _ => cases hc
  | resolve h _ _ => exact Or.inl (firstCreation?_concat_of_some hq hc)
  | use value location =>
    cases hvalue : p.firstCreation? value with
    | some c' =>
      rw [concerned?, hvalue] at hc
      rw [concerned?, firstCreation?_concat_of_some hq hvalue]
      exact Or.inl hc
    | none =>
      rw [concerned?, hvalue, Option.none_or] at hc
      rcases owner_concat hq hvalue hc with ⟨hnone, howner⟩ | hreowns
      · rw [concerned?, hnone, Option.none_or]
        exact Or.inl howner
      · exact Or.inr ⟨value, hreowns, Or.inl ⟨location, rfl⟩⟩
  | escape value sink location =>
    cases hvalue : p.firstCreation? value with
    | some c' => simp only [concerned?, hvalue, reduceCtorEq] at hc
    | none =>
      simp only [concerned?, hvalue] at hc
      rcases owner_concat hq hvalue hc with ⟨hnone, howner⟩ | hreowns
      · simp only [concerned?, hnone]
        exact Or.inl howner
      · exact Or.inr ⟨value, hreowns, Or.inr ⟨sink, location, rfl⟩⟩

/-- An event that gives a finding still gives it, unless its value is given to another owner. -/
theorem finding?_concat (hname : p.name = q.name) (hasync : p.isAsync = q.isAsync)
    {pre : List Event} {x : Event} {d : Diagnostic} (hmem : x ∈ p.events)
    (hd : finding? p (statesAfter p pre) x = some d) :
    finding? q (statesAfter q pre) x = some d ∨
      ∃ value, Reowns p.events e value ∧ p.About value d := by
  rw [finding?_statesAfter] at hd ⊢
  obtain ⟨c, hc, hd⟩ := Option.bind_eq_some_iff.1 hd
  rcases concerned?_concat hq hc with hc' | ⟨value, hreowns, hx⟩
  · rw [hc', ← findingFor?_congr hname hasync]
    exact Or.inl hd
  · exact Or.inr ⟨value, hreowns, about_of_findingFor? hmem hc hd hx⟩

end Concat

theorem count_findingsAlong {p : Procedure} {d : Diagnostic} (hd : d.rule.isMisuse = true)
    (es : List Event) :
    (findingsAlong p es).count d = (findingsIn p (statesAfter p []) es).count d := by
  have hother : d ∉ (leftOpen (statesAfter p es)).map (undisposed p) := by
    intro hmem
    obtain ⟨c, -, rfl⟩ := List.mem_map.1 hmem
    rw [(isUndisposed_undisposed p c).2] at hd
    exact Bool.false_ne_true hd
  rw [findingsAlong, List.count_append, List.count_eq_zero_of_not_mem hother]
  rfl

/-- One more event at the end of a straight-line procedure takes back no earlier finding about a
value, be it an escape, a scope that must be asynchronous or a use after disposal: it is there as
often as before. The one exception are the findings about a use or an escape of a value that the
event gives to another owner. -/
theorem count_le_of_concat {name : String} {isAsync : Bool} {es : List Event} {e : Event}
    {ds ds' : List Diagnostic} (h : (linear name isAsync es).analyze = .ok ds)
    (h' : (linear name isAsync (es ++ [e])).analyze = .ok ds') {d : Diagnostic}
    (hd : d.rule.isMisuse = true) :
    ds.count d ≤ ds'.count d ∨
      ∃ value, Reowns es e value ∧ (linear name isAsync es).About value d := by
  by_cases hlost : ∃ value, Reowns es e value ∧ (linear name isAsync es).About value d
  · exact Or.inr hlost
  · refine Or.inl ?_
    have hes := events_linear name isAsync es
    have hes' := events_linear name isAsync (es ++ [e])
    have hq : (linear name isAsync (es ++ [e])).events =
        (linear name isAsync es).events ++ [e] := by
      rw [hes, hes']
    obtain ⟨-, rfl⟩ := analyze_eq_ok_iff.1 h
    obtain ⟨-, rfl⟩ := analyze_eq_ok_iff.1 h'
    rw [(straight_linear _ _ _).findings_eq, (straight_linear _ _ _).findings_eq,
      count_findingsAlong hd, count_findingsAlong hd, hes, hes', findingsIn_append,
      List.count_append]
    refine Nat.le_trans (count_findingsIn_le (fun pre x hx hfound => ?_) []) (Nat.le_add_right _ _)
    rcases finding?_concat hq rfl rfl (hes.symm ▸ hx) hfound with hkept | hother
    · exact hkept
    · rw [hes] at hother
      exact absurd hother hlost

/-- A value leaves while its scope is alive, and then another scope is created. -/
def leak : List Event :=
  [.create "first" .scope false .usingStatement ⟨"a", 1, 0⟩,
    .resolve "first" "repo" ⟨"a", 2, 0⟩, .escape "repo" .returned ⟨"a", 3, 0⟩,
    .dispose "first" ⟨"a", 4, 0⟩, .create "second" .scope false .usingStatement ⟨"a", 5, 0⟩]

/-- The finding for it. -/
def leaked : Diagnostic :=
  Scope.escape (linear "Run" false leak) ⟨"first", .scope, false, .usingStatement, ⟨"a", 1, 0⟩⟩
    "repo" .returned ⟨"a", 3, 0⟩

theorem analyze_leak : (linear "Run" false leak).analyze = .ok [leaked] :=
  analyze_eq_ok_iff.2 ⟨by decide, (straight_linear _ _ _).findings_eq.trans (by decide)⟩

/-- A later use of the value adds a finding. -/
theorem leaked_kept : ∃ ds',
    (linear "Run" false (leak ++ [.use "repo" ⟨"a", 6, 0⟩])).analyze = .ok ds' ∧
      leaked.rule.isMisuse = true ∧ [leaked].count leaked ≤ ds'.count leaked := by
  have hused : (linear "Run" false (leak ++ [.use "repo" ⟨"a", 6, 0⟩])).analyze =
      .ok [leaked, useAfterDispose ⟨"first", .scope, false, .usingStatement, ⟨"a", 1, 0⟩⟩ "repo"
        ⟨"a", 6, 0⟩] :=
    analyze_eq_ok_iff.2 ⟨by decide, (straight_linear _ _ _).findings_eq.trans (by decide)⟩
  have hrule : leaked.rule.isMisuse = true := by decide
  refine ⟨_, hused, hrule, ?_⟩
  rcases count_le_of_concat analyze_leak hused hrule with hkept | ⟨value, hreowns, -⟩
  · exact hkept
  · obtain ⟨-, _, -, ⟨_, hcreated, -⟩ | ⟨_, hresolved, -⟩⟩ := hreowns
    · cases hcreated
    · cases hresolved

/-- The value is resolved again from the other scope, which did not exist when it left. -/
theorem resolution_retracts :
    (linear "Run" false leak).analyze = .ok [leaked] ∧ leaked.rule = .scopeEscape ∧
    (linear "Run" false (leak ++ [.resolve "second" "repo" ⟨"a", 6, 0⟩])).analyze = .ok [] := by
  refine ⟨analyze_leak, by decide, analyze_eq_ok_iff.2 ⟨by decide, ?_⟩⟩
  exact (straight_linear _ _ _).findings_eq.trans (by decide)

/-- A scope is created under the name of the value, which so has been a handle all along. -/
theorem creation_retracts :
    (linear "Run" false leak).analyze = .ok [leaked] ∧ leaked.rule = .scopeEscape ∧
    (linear "Run" false
      (leak ++ [.create "repo" .scope false .usingStatement ⟨"a", 6, 0⟩])).analyze = .ok [] := by
  refine ⟨analyze_leak, by decide, analyze_eq_ok_iff.2 ⟨by decide, ?_⟩⟩
  exact (straight_linear _ _ _).findings_eq.trans (by decide)

end Procedure

end Wiring
