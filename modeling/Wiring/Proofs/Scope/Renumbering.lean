import Mathlib.Data.List.Permutation
import Mathlib.Logic.Equiv.Basic
import Wiring.Proofs.Scope.Misuse
import Wiring.Proofs.Scope.Undisposed

/-!
# Numbers of blocks

The blocks of a procedure may be numbered in any way, as long as the entry is block 0. Other numbers
give another search and another course of the rounds, but the same walks: what a walk does to a
handle does not depend on the numbers along it. Two things do depend on them, for both go by the
order of all events: which creation of a handle is the first, and from which handle a value was last
resolved. A procedure that creates each handle at one place and resolves each value from one handle
has the same findings under all numbers.

Results:
1. `Renumbering.walk`: walks correspond.
2. `Renumbering.findings_perm`: so do the findings.
3. `Procedure.analyze_renumbered`: one trace is accepted iff the other is, and the findings are the
   same.
-/

namespace Wiring

namespace Procedure

/-- Each handle is created by one event at most, and each value is resolved from one handle at
most. -/
structure Unambiguous (p : Procedure) : Prop where
  created : (Handle.namesIn p.events).Nodup
  resolved : ∀ value, ∀ h ∈ p.events.filterMap (Event.resolvedFrom? value),
    ∀ h' ∈ p.events.filterMap (Event.resolvedFrom? value), h = h'

/-- The findings are those about values and those about handles. -/
theorem findings_perm_kinds (p : Procedure) :
    p.findings.Perm (p.findings.filter (fun d => d.rule.isMisuse) ++
      p.findings.filter (fun d => d.rule.isUndisposed)) := by
  have hrest : p.findings.filter (fun d => d.rule.isUndisposed) =
      p.findings.filter (fun d => !d.rule.isMisuse) := by
    refine List.filter_congr (fun d hd => ?_)
    cases hm : d.rule.isMisuse with
    | true => exact Scope.not_isUndisposed_of_isMisuse hm
    | false =>
      rcases Scope.isMisuse_or_isUndisposed_of_mem_findingsOf hd with hm' | ho
      · rw [hm] at hm'
        cases hm'
      · exact ho
  rw [hrest]
  exact (List.filter_append_perm _ _).symm

end Procedure

/-- `q` is `p` with block `b` as block `σ b`. Successors are renamed and may come in another order.
A successor that is no block becomes one that is no block. -/
structure Renumbering (σ : Equiv.Perm Nat) (p q : Procedure) : Prop where
  name : q.name = p.name
  isAsync : q.isAsync = p.isAsync
  length : q.blocks.length = p.blocks.length
  entry : σ 0 = 0
  inside : ∀ b, σ b < p.blocks.length ↔ b < p.blocks.length
  events : ∀ b < p.blocks.length, q.eventsIn (σ b) = p.eventsIn b
  targets : ∀ b < p.blocks.length, (q.targets (σ b)).Perm ((p.targets b).map σ)

namespace Renumbering

variable {σ : Equiv.Perm Nat} {p q : Procedure}

theorem symm (h : Renumbering σ p q) : Renumbering σ.symm q p where
  name := h.name.symm
  isAsync := h.isAsync.symm
  length := h.length.symm
  entry := by rw [Equiv.symm_apply_eq, h.entry]
  inside b := by rw [h.length, ← h.inside, Equiv.apply_symm_apply]
  events b hb := by
    rw [h.length, ← σ.apply_symm_apply b, h.inside] at hb
    rw [← h.events _ hb, Equiv.apply_symm_apply]
  targets b hb := by
    rw [h.length, ← σ.apply_symm_apply b, h.inside] at hb
    have hperm := (h.targets _ hb).map σ.symm
    rw [List.map_map, Equiv.symm_comp_self, List.map_id, Equiv.apply_symm_apply] at hperm
    exact hperm.symm

/-! ## Walks -/

section Transport

variable (h : Renumbering σ p q)

include h

theorem eventsIn_eq (b : Nat) : q.eventsIn (σ b) = p.eventsIn b := by
  by_cases hb : b < p.blocks.length
  · exact h.events b hb
  · have hb' : ¬ σ b < q.blocks.length := by rwa [h.length, h.inside]
    simp [Procedure.eventsIn, Flow.eventsOf, Flow.of, List.getElem?_eq_none (Nat.le_of_not_lt hb),
      List.getElem?_eq_none (Nat.le_of_not_lt hb')]

theorem targets_perm (b : Nat) : (q.targets (σ b)).Perm ((p.targets b).map σ) := by
  by_cases hb : b < p.blocks.length
  · exact h.targets b hb
  · have hb' : ¬ σ b < q.blocks.length := by rwa [h.length, h.inside]
    simp [Procedure.targets, List.getElem?_eq_none (Nat.le_of_not_lt hb),
      List.getElem?_eq_none (Nat.le_of_not_lt hb')]

theorem targets_eq_nil {b : Nat} (hb : p.targets b = []) : q.targets (σ b) = [] := by
  have hperm := h.targets_perm b
  rw [hb] at hperm
  exact hperm.eq_nil

theorem walk {bs : List Nat} {b : Nat} (hw : p.Walk bs b) : q.Walk (bs.map σ) (σ b) := by
  induction hw with
  | entry hlt =>
    rw [h.entry]
    exact .entry (h.length ▸ hlt)
  | @step bs b c _ hc ih =>
    rw [List.map_append]
    exact ih.step ((h.targets_perm b).mem_iff.2 (List.mem_map_of_mem hc))

theorem reachable {b : Nat} (hr : p.Reachable b) : q.Reachable (σ b) := by
  obtain ⟨bs, hw⟩ := hr
  exact ⟨bs.map σ, h.walk hw⟩

theorem eventsAlong_map (bs : List Nat) : q.eventsAlong (bs.map σ) = p.eventsAlong bs := by
  rw [Procedure.eventsAlong, List.flatMap_map]
  exact congrArg (fun f => bs.flatMap f) (funext h.eventsIn_eq)

theorem eventsBefore_map (bs : List Nat) (b i : Nat) :
    q.eventsBefore (bs.map σ) (σ b) i = p.eventsBefore bs b i := by
  rw [Procedure.eventsBefore, h.eventsAlong_map, h.eventsIn_eq]
  rfl

/-- Each walk to the block comes from one. -/
theorem exists_walk_eq {bs : List Nat} {b : Nat} (hw : q.Walk bs (σ b)) :
    ∃ cs, p.Walk cs b ∧ cs.map σ = bs := by
  refine ⟨bs.map σ.symm, ?_, ?_⟩
  · have hback := h.symm.walk hw
    rwa [Equiv.symm_apply_apply] at hback
  · rw [List.map_map, Equiv.self_comp_symm, List.map_id]

theorem inRange (hp : p.InRange) : q.InRange := by
  intro b t ht
  rw [← σ.apply_symm_apply b, (h.targets_perm _).mem_iff] at ht
  obtain ⟨s, hs, rfl⟩ := List.mem_map.1 ht
  rw [h.length, h.inside]
  exact hp _ s hs

theorem order_perm (hp : p.InRange) : q.order.Perm (p.order.map σ) := by
  have hnodup : (p.order.map σ).Nodup := (p.nodup_order hp).map σ.injective
  refine (List.perm_ext_iff_of_nodup (q.nodup_order (h.inRange hp)) hnodup).2 (fun b => ?_)
  rw [q.mem_order_iff (h.inRange hp), List.mem_map]
  simp only [p.mem_order_iff hp]
  constructor
  · intro hr
    exact ⟨σ.symm b, h.symm.reachable hr, σ.apply_symm_apply b⟩
  · rintro ⟨a, hr, rfl⟩
    exact h.reachable hr

/-! ## Events of all blocks -/

theorem events_perm : q.events.Perm p.events := by
  have hblocks : ((List.range p.blocks.length).map σ).Perm (List.range p.blocks.length) := by
    refine (List.perm_ext_iff_of_nodup (List.nodup_range.map σ.injective) List.nodup_range).2
      (fun b => ?_)
    rw [List.mem_map, List.mem_range]
    constructor
    · rintro ⟨a, ha, rfl⟩
      exact (h.inside a).2 (List.mem_range.1 ha)
    · intro hb
      rw [← σ.apply_symm_apply b, h.inside] at hb
      exact ⟨σ.symm b, List.mem_range.2 hb, σ.apply_symm_apply b⟩
  have hp : p.events = ((List.range p.blocks.length).map σ).flatMap q.eventsIn := by
    rw [p.events_eq_flatMap, List.flatMap_map]
    exact congrArg (fun f => (List.range p.blocks.length).flatMap f) (funext h.eventsIn_eq).symm
  rw [hp, q.events_eq_flatMap, h.length]
  exact hblocks.symm.flatMap_right _

theorem unambiguous (hu : p.Unambiguous) : q.Unambiguous where
  created := ((h.events_perm.filterMap _).map _).nodup_iff.2 hu.created
  resolved value := by
    have hmem (s : String) := (h.events_perm.filterMap (Event.resolvedFrom? value)).mem_iff (a := s)
    simp only [hmem]
    exact hu.resolved value

theorem firstCreation?_eq (hu : p.Unambiguous) : q.firstCreation? = p.firstCreation? := by
  funext name
  refine Option.ext (fun c => ?_)
  have hmem : c ∈ q.events.filterMap Event.created? ↔ c ∈ p.events.filterMap Event.created? :=
    (h.events_perm.filterMap _).mem_iff
  rw [Procedure.firstCreation?, Procedure.firstCreation?,
    find?_eq_some_iff_of_nodup (h.unambiguous hu).created, find?_eq_some_iff_of_nodup hu.created,
    hmem]

theorem lastSource?_eq (hu : p.Unambiguous) : q.lastSource? = p.lastSource? := by
  funext value
  have hperm := h.events_perm.filterMap (Event.resolvedFrom? value)
  -- the handles that the value is resolved from are one and the same, so their order is no matter
  have hsame : q.events.filterMap (Event.resolvedFrom? value) =
      p.events.filterMap (Event.resolvedFrom? value) :=
    hperm.eq_of_pairwise
      (fun s s' hs hs' (_ _ : True) => hu.resolved value s (hperm.mem_iff.1 hs) s' hs')
      (List.pairwise_of_forall (fun _ _ => trivial)) (List.pairwise_of_forall (fun _ _ => trivial))
  exact congrArg List.getLast? hsame

theorem concerned?_eq (hu : p.Unambiguous) (e : Event) : q.concerned? e = p.concerned? e := by
  cases e with
  | create _ _ _ _ _ | dispose _ _ => rfl
  | resolve _ _ _ | use _ _ | escape _ _ _ =>
    simp only [Procedure.concerned?, h.firstCreation?_eq hu, h.lastSource?_eq hu]

/-! ## Findings about values -/

theorem forall_walk {b i : Nat} (Q : List Event → Prop)
    (hall : ∀ bs, p.Walk bs b → Q (p.eventsBefore bs b i)) :
    ∀ bs, q.Walk bs (σ b) → Q (q.eventsBefore bs (σ b) i) := by
  intro cs hcs
  obtain ⟨bs, hw, rfl⟩ := h.exists_walk_eq hcs
  rw [h.eventsBefore_map]
  exact hall bs hw

theorem exists_walk {b i : Nat} (Q : List Event → Prop)
    (hsome : ∃ bs, p.Walk bs b ∧ Q (p.eventsBefore bs b i)) :
    ∃ bs, q.Walk bs (σ b) ∧ Q (q.eventsBefore bs (σ b) i) := by
  obtain ⟨bs, hw, hQ⟩ := hsome
  refine ⟨bs.map σ, h.walk hw, ?_⟩
  rw [h.eventsBefore_map]
  exact hQ

theorem surelyDisposed {b i : Nat} {handle : String} (hd : p.SurelyDisposed b i handle) :
    q.SurelyDisposed (σ b) i handle :=
  ⟨h.forall_walk (fun es => ¬ LeavesCreated handle es ∧ ¬ LeavesEscaped handle es) hd.1,
    h.exists_walk (LeavesDisposed handle) hd.2⟩

theorem surelyAlive {b i : Nat} {handle : String} (ha : p.SurelyAlive b i handle) :
    q.SurelyAlive (σ b) i handle :=
  ⟨h.forall_walk (fun es => Untouched handle es ∨ LeavesCreated handle es) ha.1,
    h.exists_walk (LeavesCreated handle) ha.2⟩

theorem escape_eq : Scope.escape q = Scope.escape p :=
  Scope.escape_congr h.name h.isAsync

theorem misuse (hu : p.Unambiguous) {b i : Nat} {e : Event} {d : Diagnostic}
    (hm : Scope.Misuse p b i e d) : Scope.Misuse q (σ b) i e d := by
  have hconcerned := h.concerned?_eq hu e
  cases hm with
  | resolve hc hk hd => exact .resolve (hconcerned.trans hc) hk (h.surelyDisposed hd)
  | use hc hk hd => exact .use (hconcerned.trans hc) hk (h.surelyDisposed hd)
  | escape hc hk ha =>
    rw [← h.escape_eq]
    exact .escape (hconcerned.trans hc) hk (h.surelyAlive ha)

theorem misuse_iff (hu : p.Unambiguous) {b i : Nat} {e : Event} {d : Diagnostic} :
    Scope.Misuse q (σ b) i e d ↔ Scope.Misuse p b i e d := by
  refine ⟨fun hm => ?_, h.misuse hu⟩
  have hback := h.symm.misuse (h.unambiguous hu) hm
  rwa [Equiv.symm_apply_apply] at hback

theorem findingAt_eq (hu : p.Unambiguous) (hp : p.InRange) {b : Nat} (hr : p.Reachable b) :
    Scope.findingAt q (σ b) = Scope.findingAt p b := by
  funext i
  unfold Scope.findingAt
  rw [h.eventsIn_eq]
  cases he : (p.eventsIn b)[i]? with
  | none => rfl
  | some e =>
    refine Option.ext (fun d => ?_)
    have hq := Scope.finding?_eq_some_iff (h.inRange hp) (h.reachable hr) i e d
    rw [h.eventsIn_eq] at hq
    exact (hq.trans (h.misuse_iff hu)).trans (Scope.finding?_eq_some_iff hp hr i e d).symm

theorem filter_isMisuse_perm (hu : p.Unambiguous) (hp : p.InRange) :
    (q.findings.filter (fun d => d.rule.isMisuse)).Perm
      (p.findings.filter (fun d => d.rule.isMisuse)) := by
  rw [Scope.filter_isMisuse_findings, Scope.filter_isMisuse_findings]
  refine ((h.order_perm hp).flatMap_right _).trans (.of_eq ?_)
  rw [List.flatMap_map, List.flatMap_def, List.flatMap_def]
  refine congrArg List.flatten (List.map_congr_left (fun b hb => ?_))
  rw [h.eventsIn_eq, h.findingAt_eq hu hp ((p.mem_order_iff hp).1 hb)]

/-! ## Findings about handles -/

theorem leavesOpen {name : String} (ho : p.LeavesOpen name) : q.LeavesOpen name := by
  obtain ⟨bs, b, hw, hexit, hcreated⟩ := ho
  refine ⟨bs.map σ, σ b, h.walk hw, h.targets_eq_nil hexit, ?_⟩
  have hpath : bs.map σ ++ [σ b] = (bs ++ [b]).map σ := by rw [List.map_append]; rfl
  rw [hpath, h.eventsAlong_map]
  exact hcreated

theorem undisposed_eq : Scope.undisposed q = Scope.undisposed p :=
  Scope.undisposed_congr h.name

theorem filter_isUndisposed_perm (hu : p.Unambiguous) (hp : p.InRange) :
    (q.findings.filter (fun d => d.rule.isUndisposed)).Perm
      (p.findings.filter (fun d => d.rule.isUndisposed)) := by
  obtain ⟨leaks, hfilter, honce, hmem⟩ := Scope.exists_leaks hp
  obtain ⟨leaks', hfilter', honce', hmem'⟩ := Scope.exists_leaks (h.inRange hp)
  have hleaks : ∀ c, c ∈ leaks' ↔ c ∈ leaks := by
    intro c
    rw [hmem, hmem', h.firstCreation?_eq hu]
    exact and_congr_right' (and_congr_right' ⟨h.symm.leavesOpen, h.leavesOpen⟩)
  rw [hfilter, hfilter']
  rw [h.undisposed_eq] at honce' ⊢
  refine (List.perm_ext_iff_of_nodup honce' honce).2 (fun d => ?_)
  simp only [List.mem_map, hleaks]

/-! ## All findings -/

theorem findings_perm (hu : p.Unambiguous) (hp : p.InRange) : q.findings.Perm p.findings := by
  have hparts := (h.filter_isMisuse_perm hu hp).append (h.filter_isUndisposed_perm hu hp)
  exact (q.findings_perm_kinds.trans hparts).trans p.findings_perm_kinds.symm

theorem fault?_eq_none (hu : p.Unambiguous) (hf : p.fault? = none) : q.fault? = none := by
  obtain ⟨hp, hdangling⟩ := Procedure.fault?_eq_none_iff.1 hf
  refine Procedure.fault?_eq_none_iff.2 ⟨h.inRange hp, ?_⟩
  unfold Procedure.dangling? at hdangling ⊢
  simp only [List.find?_eq_none, Procedure.find?_handles] at hdangling ⊢
  intro name hname
  rw [h.firstCreation?_eq hu]
  exact hdangling name ((h.events_perm.filterMap _).mem_iff.1 hname)

end Transport

end Renumbering

/-- The numbers of blocks do not matter where handles and values are described once: a trace is
accepted under other numbers and another order of successors iff it is accepted as it is, and then
has the same findings, each as often. -/
theorem Procedure.analyze_renumbered {σ : Equiv.Perm Nat} {p q : Procedure}
    (h : Renumbering σ p q) (hu : p.Unambiguous) :
    ((∃ ds, q.analyze = .ok ds) ↔ ∃ ds, p.analyze = .ok ds) ∧
    ∀ ds ds', p.analyze = .ok ds → q.analyze = .ok ds' → ds'.Perm ds := by
  have hfault : q.fault? = none ↔ p.fault? = none :=
    ⟨h.symm.fault?_eq_none (h.unambiguous hu), h.fault?_eq_none hu⟩
  have haccepted : ∀ r : Procedure, (∃ ds, r.analyze = .ok ds) ↔ r.fault? = none := by
    intro r
    simp only [analyze_eq_ok_iff, exists_and_left, exists_eq', and_true]
  refine ⟨by rw [haccepted, haccepted, hfault], fun ds ds' hds hds' => ?_⟩
  obtain ⟨hp, rfl⟩ := analyze_eq_ok hds
  obtain ⟨-, rfl⟩ := analyze_eq_ok hds'
  exact h.findings_perm hu hp

/-- A loop that may dispose the scope and then uses its value, but need not be entered. -/
def looped : Procedure :=
  ⟨"Run", false,
    [⟨[.create "scope" .scope false .manual ⟨"a", 1, 0⟩, .resolve "scope" "repo" ⟨"a", 2, 0⟩],
        [1, 2]⟩,
      ⟨[.dispose "scope" ⟨"a", 3, 0⟩, .use "repo" ⟨"a", 4, 0⟩], [2]⟩,
      ⟨[], [3, 1]⟩,
      ⟨[], []⟩]⟩

/-- The same procedure with its blocks 1 and 3 exchanged, and with successors the other way round.
-/
def relooped : Procedure :=
  ⟨"Run", false,
    [⟨[.create "scope" .scope false .manual ⟨"a", 1, 0⟩, .resolve "scope" "repo" ⟨"a", 2, 0⟩],
        [2, 3]⟩,
      ⟨[], []⟩,
      ⟨[], [3, 1]⟩,
      ⟨[.dispose "scope" ⟨"a", 3, 0⟩, .use "repo" ⟨"a", 4, 0⟩], [2]⟩]⟩

theorem renumbering_looped : Renumbering (Equiv.swap 1 3) looped relooped where
  name := rfl
  isAsync := rfl
  length := rfl
  entry := by decide
  inside b := by
    show Equiv.swap 1 3 b < 4 ↔ b < 4
    rw [Equiv.swap_apply_def]
    split
    · omega
    · split <;> omega
  events := by decide
  targets := by decide

theorem unambiguous_looped : looped.Unambiguous where
  created := by decide
  resolved value := by
    by_cases hvalue : "repo" = value
    · simp [looped, Procedure.events, Event.resolvedFrom?, hvalue]
    · simp [looped, Procedure.events, Event.resolvedFrom?, hvalue]

theorem analyze_renumbered_on_loop :
    Renumbering (Equiv.swap 1 3) looped relooped ∧
    looped.Unambiguous ∧
    looped.analyze = .ok
      [Scope.useAfterDispose ⟨"scope", .scope, false, .manual, ⟨"a", 1, 0⟩⟩ "repo" ⟨"a", 4, 0⟩,
        Scope.undisposed looped ⟨"scope", .scope, false, .manual, ⟨"a", 1, 0⟩⟩] ∧
    relooped.analyze = .ok relooped.findings ∧
    relooped.findings.Perm
      [Scope.useAfterDispose ⟨"scope", .scope, false, .manual, ⟨"a", 1, 0⟩⟩ "repo" ⟨"a", 4, 0⟩,
        Scope.undisposed looped ⟨"scope", .scope, false, .manual, ⟨"a", 1, 0⟩⟩] := by
  have hok : looped.analyze = .ok
      [Scope.useAfterDispose ⟨"scope", .scope, false, .manual, ⟨"a", 1, 0⟩⟩ "repo" ⟨"a", 4, 0⟩,
        Scope.undisposed looped ⟨"scope", .scope, false, .manual, ⟨"a", 1, 0⟩⟩] :=
    Procedure.analyze_eq_ok_iff.2 ⟨by decide, by cbv⟩
  have hok' : relooped.analyze = .ok relooped.findings :=
    Procedure.analyze_eq_ok_iff.2 ⟨by decide, rfl⟩
  exact ⟨renumbering_looped, unambiguous_looped, hok, hok',
    (Procedure.analyze_renumbered renumbering_looped unambiguous_looped).2 _ _ hok hok'⟩

end Wiring
