import Wiring.Proofs.Scope.Undisposed

/-!
# Straight-line procedures

A procedure without branches may be one block or a chain of blocks that hold its events piece by
piece. The search goes down the chain, and there is one walk to each of its blocks, which has passed
all blocks before it; so each block starts with the states that all events before it leave, and the
findings of the chain are those of its events in one block.

Results:
1. `Procedure.Straight.order_eq`: the search lists the blocks by number.
2. `Procedure.Straight.findings_eq`: the findings depend on the events only.
3. `Procedure.analyze_chained`: where the events are cut makes no difference.
-/

namespace Wiring

open Scope

namespace Procedure

/-- Each block is followed by the next, and the last one by none. -/
def Straight (p : Procedure) : Prop :=
  ∀ b < p.blocks.length, p.targets b = if b + 1 < p.blocks.length then [b + 1] else []

namespace Straight

variable {p : Procedure} (h : p.Straight)

include h

theorem inRange : p.InRange := by
  intro b t ht
  by_cases hb : b < p.blocks.length
  · rw [h b hb] at ht
    split at ht
    · next hnext => exact List.mem_singleton.1 ht ▸ hnext
    · exact absurd ht List.not_mem_nil
  · rw [targets, List.getElem?_eq_none (Nat.le_of_not_lt hb)] at ht
    exact absurd ht List.not_mem_nil

/-! ## The search -/

omit h in
/-- Blocks that have no successors to look at are left one after the other. -/
theorem search_leave (n : Nat) (targets : Nat → List Nat) (seen bs left : List Nat) :
    Blocks.search n targets seen (bs.map (fun b => (b, []))) left = bs.reverse ++ left := by
  induction bs generalizing left with
  | nil => rw [List.map_nil, Blocks.search, List.reverse_nil, List.nil_append]
  | cons b bs ih =>
    rw [List.map_cons, Blocks.search, ih, List.reverse_cons, List.append_assoc]
    rfl

omit h in
theorem reverse_range_succ (j : Nat) :
    (List.range (j + 1)).reverse = j :: (List.range j).reverse := by
  rw [List.range_succ, List.reverse_append]
  rfl

/-- From block `j` the search goes down the rest of the chain, and then leaves all blocks. -/
theorem search_down {j d : Nat} (hj : j + d + 1 = p.blocks.length) :
    Blocks.search p.blocks.length p.targets (List.range (j + 1)).reverse
      ((j, p.targets j) :: (List.range j).reverse.map (fun b => (b, []))) [] =
        List.range p.blocks.length := by
  induction d generalizing j with
  | zero =>
    have hlast : p.targets j = [] := by
      rw [h j (by omega), if_neg (by omega)]
    have hstack : (j, p.targets j) :: (List.range j).reverse.map (fun b => (b, [])) =
        (List.range (j + 1)).reverse.map (fun b => (b, [])) := by
      rw [hlast, reverse_range_succ, List.map_cons]
    rw [hstack, search_leave, List.reverse_reverse, List.append_nil]
    exact congrArg List.range hj
  | succ d ih =>
    have hnext : p.targets j = [j + 1] := by
      rw [h j (by omega), if_pos (by omega)]
    have hnew : j + 1 < p.blocks.length ∧ (List.range (j + 1)).reverse.contains (j + 1) = false :=
      ⟨by omega, by simp⟩
    have hrest := ih (j := j + 1) (by omega)
    rw [reverse_range_succ (j + 1), reverse_range_succ j, List.map_cons] at hrest
    rw [hnext, Blocks.search, if_pos hnew, reverse_range_succ j]
    exact hrest

theorem order_eq : p.order = List.range p.blocks.length := by
  rw [order]
  split
  · next hempty =>
    rw [List.isEmpty_iff.1 hempty]
    rfl
  · next hne =>
    have hpos : 0 < p.blocks.length := List.length_pos_iff.2 (fun he => hne (by rw [he]; rfl))
    exact h.search_down (j := 0) (d := p.blocks.length - 1) (by omega)

/-! ## Walks and states -/

theorem walk_iff {bs : List Nat} {b : Nat} :
    p.Walk bs b ↔ b < p.blocks.length ∧ bs = List.range b := by
  constructor
  · intro hw
    induction hw with
    | entry hpos => exact ⟨hpos, rfl⟩
    | @step bs b c hw hc ih =>
      obtain ⟨hb, rfl⟩ := ih
      have hlt := h.inRange _ _ hc
      rw [h b hb] at hc
      split at hc
      · obtain rfl := List.mem_singleton.1 hc
        exact ⟨hlt, List.range_succ.symm⟩
      · exact absurd hc List.not_mem_nil
  · rintro ⟨hb, rfl⟩
    induction b with
    | zero => exact .entry hb
    | succ b ih =>
      rw [List.range_succ]
      refine (ih (Nat.lt_of_succ_lt hb)).step ?_
      rw [h b (Nat.lt_of_succ_lt hb), if_pos hb]
      exact List.mem_singleton_self _

/-- A block starts with the states that all events before it leave. -/
theorem entry_eq {b : Nat} (hb : b < p.blocks.length) (handle : String) :
    (Flow.of p).entry ((Flow.of p).solution handle) b =
      States.run handle .none (p.eventsAlong (List.range b)) := by
  have hr : p.Reachable b := ⟨_, h.walk_iff.2 ⟨hb, rfl⟩⟩
  refine States.eq_of_has_iff (fun x => (Flow.has_run_entry_iff h.inRange hr [] x).trans ?_)
  simp only [h.walk_iff, List.append_nil]
  constructor
  · rintro ⟨_, ⟨-, rfl⟩, hx⟩
    exact hx
  · exact fun hx => ⟨_, ⟨hb, rfl⟩, hx⟩

end Straight

end Procedure

/-! ## Findings -/

namespace Scope

theorem findingsIn_append (p : Procedure) (ts : Tracked) (es es' : List Event) :
    findingsIn p ts (es ++ es') =
      findingsIn p ts es ++ findingsIn p (es.foldl Tracked.after ts) es' := by
  induction es generalizing ts with
  | nil => rfl
  | cons e es ih =>
    rw [List.cons_append, findingsIn, ih, findingsIn, List.append_assoc]
    rfl

/-- The handles with the states that events leave from none. -/
def statesAfter (p : Procedure) (es : List Event) : Tracked :=
  p.handles.map (fun c => (c, States.run c.name .none es))

theorem foldl_after_statesAfter (p : Procedure) (es es' : List Event) :
    es'.foldl Tracked.after (statesAfter p es) = statesAfter p (es ++ es') := by
  rw [Tracked.foldl_after, statesAfter, List.map_map, statesAfter]
  refine List.map_congr_left (fun c _ => ?_)
  rw [States.run_append]
  rfl

/-- The findings of events that run one after the other, and then leave the procedure. -/
def findingsAlong (p : Procedure) (es : List Event) : List Diagnostic :=
  findingsIn p (statesAfter p []) es ++ (leftOpen (statesAfter p es)).map (undisposed p)

/-- These findings depend on the events of a procedure, not on its blocks. -/
theorem findingsAlong_congr {p q : Procedure} (hname : p.name = q.name)
    (hasync : p.isAsync = q.isAsync) (hevents : p.events = q.events) :
    findingsAlong p = findingsAlong q := by
  have hhandles : p.handles = q.handles := by
    rw [Procedure.handles, hevents]
    rfl
  have hstates : statesAfter p = statesAfter q := by
    funext es
    rw [statesAfter, hhandles]
    rfl
  have hfinding : finding? p = finding? q := by
    funext ts e
    cases e with
    | create _ _ _ _ _ | dispose _ _ | resolve _ _ _ => rfl
    | escape _ _ _ | use _ _ => simp only [finding?, derived?, hevents, escape_congr hname hasync]
  have hfindings : findingsIn p = findingsIn q := by
    funext ts es
    induction es generalizing ts with
    | nil => rfl
    | cons e es ih => rw [findingsIn, findingsIn, hfinding, ih]
  funext es
  rw [findingsAlong, findingsAlong, hfindings, hstates, undisposed_congr hname]

end Scope

namespace Procedure

namespace Straight

variable {p : Procedure} (h : p.Straight)

include h

theorem tracked_eq {b : Nat} (hb : b < p.blocks.length) :
    tracked (Flow.of p) (p.handles.map (fun c => (c, (Flow.of p).solution c.name))) b =
      statesAfter p (p.eventsAlong (List.range b)) := by
  rw [tracked, List.map_map]
  refine List.map_congr_left (fun c _ => ?_)
  rw [← h.entry_eq hb]
  rfl

omit h in
theorem foldl_eventsIn (p : Procedure) (b : Nat) :
    (p.eventsIn b).foldl Tracked.after (statesAfter p (p.eventsAlong (List.range b))) =
      statesAfter p (p.eventsAlong (List.range (b + 1))) := by
  rw [foldl_after_statesAfter, List.range_succ, p.eventsAlong_concat]

/-- The last block alone leaves the procedure, after all events. -/
theorem openAfter_eq {b : Nat} (hb : b < p.blocks.length) :
    openAfter p (Flow.of p) (p.handles.map (fun c => (c, (Flow.of p).solution c.name))) b =
      if b + 1 < p.blocks.length then [] else leftOpen (statesAfter p p.events) := by
  rw [openAfter, h.tracked_eq hb, h b hb]
  split
  · rfl
  · next hlast =>
    have hlength : b + 1 = p.blocks.length := Nat.le_antisymm hb (Nat.le_of_not_lt hlast)
    rw [p.events_eq_flatMap, ← hlength]
    exact congrArg leftOpen (foldl_eventsIn p b)

/-- From block `k` on: the findings of the events that are left, and then those of the last block.
-/
theorem findingsOf_eq {k d : Nat} (hk : k + d + 1 = p.blocks.length) :
    findingsOf p (Flow.of p) (p.handles.map (fun c => (c, (Flow.of p).solution c.name)))
        (List.range' k (d + 1)) [] =
      findingsIn p (statesAfter p (p.eventsAlong (List.range k)))
          (p.eventsAlong (List.range' k (d + 1))) ++
        (leftOpen (statesAfter p p.events)).map (undisposed p) := by
  induction d generalizing k with
  | zero =>
    have hall : ∀ hs : List Handle, hs.filter (fun c => !([] : List Handle).contains c) = hs :=
      fun hs => List.filter_eq_self.2 (fun _ _ => rfl)
    have hone : p.eventsAlong [k] = p.eventsIn k := List.flatMap_singleton _ _
    rw [List.range'_one, findingsOf_cons, h.tracked_eq (by omega), h.openAfter_eq (by omega),
      if_neg (by omega), hall, hone]
    exact List.append_nil _
  | succ d ih =>
    have hsplit : p.eventsAlong (List.range' k (d + 2)) =
        p.eventsIn k ++ p.eventsAlong (List.range' (k + 1) (d + 1)) := by
      rw [List.range'_succ, eventsAlong, List.flatMap_cons]
      rfl
    have hrest := ih (k := k + 1) (by omega)
    rw [hsplit, findingsIn_append, foldl_eventsIn, List.range'_succ, findingsOf_cons,
      h.tracked_eq (by omega), h.openAfter_eq (by omega), if_pos (by omega), List.append_assoc,
      List.append_assoc, ← hrest]
    rfl

theorem findings_eq : p.findings = findingsAlong p p.events := by
  rw [findings, findingsAlong]
  show findingsOf p (Flow.of p) _ p.order [] = _
  rw [h.order_eq, List.range_eq_range']
  cases hlength : p.blocks.length with
  | zero =>
    have hevents : p.events = [] := by
      rw [events, List.length_eq_zero_iff.1 hlength]
      rfl
    have hhandles : p.handles = [] := by
      rw [handles, hevents]
      rfl
    rw [hevents, statesAfter, hhandles]
    rfl
  | succ n =>
    rw [h.findingsOf_eq (by omega), ← hlength, ← List.range_eq_range', p.events_eq_flatMap]
    rfl

theorem fault?_eq :
    p.fault? = p.dangling?.map (fun name => .danglingHandle name p.name) := by
  rw [fault?, malformed?_eq_none_of_inRange h.inRange]

end Straight

/-- Two straight-line procedures with the same events have the same answer. -/
theorem Straight.analyze_congr {p q : Procedure} (hp : p.Straight) (hq : q.Straight)
    (hname : p.name = q.name) (hasync : p.isAsync = q.isAsync) (hevents : p.events = q.events) :
    p.analyze = q.analyze := by
  have hdangling : p.dangling? = q.dangling? := by
    simp only [dangling?, handles, hevents]
  have hfault : p.fault? = q.fault? := by
    rw [hp.fault?_eq, hq.fault?_eq, hdangling, hname]
  have hfindings : p.findings = q.findings := by
    rw [hp.findings_eq, hq.findings_eq, findingsAlong_congr hname hasync hevents, hevents]
  rw [analyze, analyze, hfault, hfindings]

theorem straight_linear (name : String) (isAsync : Bool) (es : List Event) :
    (linear name isAsync es).Straight := by
  intro b hb
  obtain rfl : b = 0 := Nat.lt_one_iff.1 hb
  rfl

theorem events_linear (name : String) (isAsync : Bool) (es : List Event) :
    (linear name isAsync es).events = es :=
  List.flatMap_singleton _ _

/-- The blocks hold the pieces of the events, and each is followed by the next. -/
structure Chained (p : Procedure) (pieces : List (List Event)) : Prop where
  pieces : p.blocks.map Block.events = pieces
  straight : p.Straight

/-- Where the events of a straight-line procedure are cut into blocks makes no difference: for all
events, and all pieces that make them up, empty ones included, the chain of the pieces has the
answer that the events in one block have, be it an error or findings in their order. -/
theorem analyze_chained {p : Procedure} {es : List Event} {pieces : List (List Event)}
    (hcut : pieces.flatten = es) (h : p.Chained pieces) :
    p.analyze = (linear p.name p.isAsync es).analyze := by
  refine h.straight.analyze_congr (straight_linear _ _ _) rfl rfl ?_
  rw [events_linear, ← hcut, ← h.pieces]
  exact List.flatMap_def

/-- A scope that is created, disposed and used in three blocks, with an empty one between them. -/
def sliced : Procedure :=
  ⟨"Run", false,
    [⟨[.create "scope" .scope false .manual ⟨"a", 1, 0⟩, .resolve "scope" "repo" ⟨"a", 2, 0⟩],
        [1]⟩,
      ⟨[.dispose "scope" ⟨"a", 3, 0⟩], [2]⟩,
      ⟨[], [3]⟩,
      ⟨[.use "repo" ⟨"a", 4, 0⟩], []⟩]⟩

theorem sliced_analyze :
    sliced.Chained
      [[.create "scope" .scope false .manual ⟨"a", 1, 0⟩, .resolve "scope" "repo" ⟨"a", 2, 0⟩],
        [.dispose "scope" ⟨"a", 3, 0⟩], [], [.use "repo" ⟨"a", 4, 0⟩]] ∧
    sliced.analyze = (linear "Run" false
      [.create "scope" .scope false .manual ⟨"a", 1, 0⟩, .resolve "scope" "repo" ⟨"a", 2, 0⟩,
        .dispose "scope" ⟨"a", 3, 0⟩, .use "repo" ⟨"a", 4, 0⟩]).analyze := by
  have hchained : sliced.Chained
      [[.create "scope" .scope false .manual ⟨"a", 1, 0⟩, .resolve "scope" "repo" ⟨"a", 2, 0⟩],
        [.dispose "scope" ⟨"a", 3, 0⟩], [], [.use "repo" ⟨"a", 4, 0⟩]] :=
    ⟨rfl, by unfold Straight; decide⟩
  exact ⟨hchained, analyze_chained rfl hchained⟩

end Procedure

end Wiring
