import Mathlib.Data.List.Forall2
import Wiring.Check.Captive
import Wiring.Proofs.Graph

/-!
# Captive dependencies

The check goes over the nodes and, for each of them, over the edges whose numbers are listed under
it. This module shows that it meets every dependency that is satisfied by a node, once and in the
order of the constructor's parameters, and so reports exactly those on a node of a higher rank.

Results:
1. `Links.Entered.step`, `Links.Entered.enter`: the numbers listed under a node are those of the
   edges that leave it.
2. `Graph.Numbered.leaving_eq`: the edges that are found under a node are those of its dependencies.
3. `Captive.check_build`: the findings are the dependencies that increase in rank.
-/

namespace Wiring

namespace Links

/-! ## Edges entered under their nodes -/

/-- Under each node there are the numbers, among all edges, of those edges of `done` that leave it.
-/
def Entered (all done : List Edge) (outgoing : List (List Nat)) : Prop :=
  ∀ ix numbers, outgoing[ix]? = some numbers →
    numbers.filterMap (fun i => all[i]?) = done.filter (fun e => e.source.ix == ix)

theorem Entered.start (all : List Edge) (n : Nat) : Entered all [] (List.replicate n []) := by
  intro ix numbers h
  rw [List.getElem?_replicate] at h
  split at h
  · obtain rfl := Option.some.inj h
    rfl
  · cases h

/-- One more edge is entered under its source, after those that are there. -/
theorem Entered.step {all done : List Edge} {outgoing : List (List Nat)}
    (h : Entered all done outgoing) {e : Edge} (he : all[done.length]? = some e) :
    Entered all (done ++ [e])
      (outgoing.modify e.source.ix (fun numbers => numbers ++ [done.length])) := by
  intro ix numbers hnumbers
  rw [List.getElem?_modify] at hnumbers
  obtain ⟨before, hbefore, rfl⟩ := Option.map_eq_some_iff.1 hnumbers
  rw [List.filter_append, ← h ix before hbefore]
  by_cases hsource : e.source.ix = ix
  · simp [hsource, he]
  · simp [hsource]

theorem length_enter (outgoing : List (List Nat)) (i : Nat) (es : List Edge) :
    (enter outgoing i es).length = outgoing.length := by
  induction es generalizing outgoing i with
  | nil => rfl
  | cons e es ih => rw [enter, ih, List.length_modify]

/-- The edges that are left are entered one after the other. -/
theorem Entered.enter {all done es : List Edge} {outgoing : List (List Nat)}
    (h : Entered all done outgoing) (hall : all = done ++ es) :
    Entered all all (Links.enter outgoing done.length es) := by
  induction es generalizing done outgoing with
  | nil =>
    rw [hall, List.append_nil] at h ⊢
    exact h
  | cons e es ih =>
    have he : all[done.length]? = some e := by simp [hall]
    have hrest : all = (done ++ [e]) ++ es := by rw [hall, List.append_assoc]; rfl
    have hnext := ih (h.step he) hrest
    rw [List.length_append] at hnext
    exact hnext

end Links

namespace Graph

theorem leaving_links (g : Graph) {ix : Nat} (h : ix < g.nodes.length) :
    g.links.leaving ix = g.edges.filter (fun e => e.source.ix == ix) := by
  have hentered := (Links.Entered.start g.edges g.nodes.length).enter rfl
  have hix : ix < g.links.outgoing.length := by
    rw [links, Links.length_enter, List.length_replicate]
    exact h
  have hnumbers := List.getElem?_eq_getElem hix
  rw [Links.leaving, List.getD_eq_getElem?_getD, hnumbers, Option.getD_some]
  exact hentered ix _ hnumbers

/-! ## Nodes by number -/

/-- The number of a node is its place. -/
def Numbered (g : Graph) : Prop :=
  g.nodes.map Node.ix = List.range g.nodes.length

theorem build_numbered (rs : List Registration) (shapes : List TypeShape) :
    (build rs shapes).Numbered := by
  unfold Numbered build
  refine List.ext_getElem (by simp) (fun i hi hi' => ?_)
  simp

theorem source_of_mem_edgesFrom {g : Graph} {n : Node} {e : Edge} (h : e ∈ g.edgesFrom n) :
    e.source = n := by
  obtain ⟨d, -, h⟩ := List.mem_filterMap.1 h
  obtain ⟨t, -, rfl⟩ := Option.map_eq_some_iff.1 h
  rfl

section Numbered

variable {g : Graph} (h : g.Numbered)

include h

theorem Numbered.lt_length {n : Node} (hn : n ∈ g.nodes) : n.ix < g.nodes.length := by
  have hix : n.ix ∈ g.nodes.map Node.ix := List.mem_map_of_mem hn
  rw [h] at hix
  exact List.mem_range.1 hix

/-- The edges that have the node as their source are those of its dependencies. -/
theorem Numbered.filter_edges {n : Node} (hn : n ∈ g.nodes) :
    g.edges.filter (fun e => e.source.ix == n.ix) = g.edgesFrom n := by
  have hnodup : (g.nodes.map Node.ix).Nodup := h ▸ List.nodup_range
  have hown : (g.edgesFrom n).filter (fun e => e.source.ix == n.ix) = g.edgesFrom n := by
    refine List.filter_eq_self.2 (fun e he => ?_)
    rw [source_of_mem_edgesFrom he, beq_self_eq_true]
  have hother : ∀ ms : List Node, n.ix ∉ ms.map Node.ix →
      (ms.flatMap g.edgesFrom).filter (fun e => e.source.ix == n.ix) = [] := by
    intro ms hms
    refine List.filter_eq_nil_iff.2 (fun e he heq => hms ?_)
    obtain ⟨m, hm, he⟩ := List.mem_flatMap.1 he
    rw [source_of_mem_edgesFrom he] at heq
    exact eq_of_beq heq ▸ List.mem_map_of_mem hm
  obtain ⟨before, rest, hnodes⟩ := List.append_of_mem hn
  rw [hnodes, List.map_append, List.map_cons] at hnodup
  have hbefore : n.ix ∉ before.map Node.ix := fun hmem =>
    (List.nodup_append.1 hnodup).2.2 _ hmem _ List.mem_cons_self rfl
  have hrest : n.ix ∉ rest.map Node.ix := (List.nodup_cons.1 (List.nodup_append.1 hnodup).2.1).1
  rw [edges, hnodes, List.flatMap_append, List.flatMap_cons, List.filter_append,
    List.filter_append, hother before hbefore, hown, hother rest hrest, List.nil_append,
    List.append_nil]

theorem Numbered.leaving_eq {n : Node} (hn : n ∈ g.nodes) :
    g.links.leaving n.ix = g.edgesFrom n := by
  rw [g.leaving_links (h.lt_length hn), h.filter_edges hn]

end Numbered

/-! ## Dependencies that increase in rank -/

/-- The dependencies of a node that are satisfied by a node of a higher rank, in the order of the
parameters, each with that node. -/
def rankIncreases (g : Graph) (n : Node) : List (Dependency × Node) :=
  ((g.dependenciesOf? n []).getD []).filterMap (fun d =>
    (g.resolveTarget? d.required).bind (fun t =>
      if n.lifetime.rank < t.node.lifetime.rank then some (d, t.node) else none))

theorem rankIncreases_eq_nil_iff {g : Graph} {n : Node} :
    g.rankIncreases n = [] ↔ ∀ d ∈ (g.dependenciesOf? n []).getD [], ∀ t,
      g.resolveTarget? d.required = some t → t.node.lifetime.rank ≤ n.lifetime.rank := by
  rw [rankIncreases, List.filterMap_eq_nil_iff]
  simp

end Graph

namespace Captive

theorem rule_report (e : Edge) : (report e).rule =
    if e.source.isOpen then .openGenericCaptiveDependency else .captiveDependency := by
  unfold report
  dsimp only
  split <;> rfl

theorem primary_report (e : Edge) : (report e).primary = e.source.registration.location := by
  unfold report
  dsimp only
  split <;> rfl

theorem related_report (e : Edge) : (report e).related = [e.target.registration.location] := by
  unfold report
  dsimp only
  split <;> rfl

/-- The finding for a dependency `d` of the node `n` that the node `m` satisfies. -/
structure Reports (n : Node) (d : Dependency) (m : Node) (found : Diagnostic) : Prop where
  eq_report : found = report ⟨n, m, d⟩
  rule : found.rule =
    if n.service.isOpen then .openGenericCaptiveDependency else .captiveDependency
  primary : found.primary = n.registration.location
  related : found.related = [m.registration.location]

theorem reports_report (n : Node) (d : Dependency) (m : Node) :
    Reports n d m (report ⟨n, m, d⟩) :=
  ⟨rfl, rule_report _, primary_report _, related_report _⟩

theorem findings_eq {g : Graph} (h : g.Numbered) :
    findings g = g.nodes.flatMap (fun n =>
      (g.rankIncreases n).map (fun c => report ⟨n, c.2, c.1⟩)) := by
  refine List.flatMap_congr (fun n hn => ?_)
  rw [findingsAt, h.leaving_eq hn, Graph.edgesFrom, Graph.rankIncreases, List.filter_filterMap,
    List.map_filterMap, List.map_filterMap]
  refine List.filterMap_congr (fun d _ => ?_)
  cases g.resolveTarget? d.required with
  | none => rfl
  | some t =>
    by_cases hrank : n.lifetime.rank < t.node.lifetime.rank
    · have hcaptive : isCaptive ⟨n, t.node, d⟩ = true := decide_eq_true hrank
      simp [hcaptive, hrank]
    · have hcaptive : isCaptive ⟨n, t.node, d⟩ = false := decide_eq_false hrank
      simp [hcaptive, hrank]

/-- The check reports the dependencies that increase in rank and nothing else: for every list of
registrations and of shapes it returns one finding for each dependency of each node that is
satisfied by a node of a higher rank, in the order of the nodes and then of the parameters, whether
the dependency is optional or asks for all registrations. Where no dependency increases in rank
there are no findings. -/
theorem check_build (rs : List Registration) (shapes : List TypeShape) :
    let g := Graph.build rs shapes
    ∃ ds, check g false = .ok ds ∧
      List.Forall₂ (fun c found => Reports c.1 c.2.1 c.2.2 found)
        (g.nodes.flatMap (fun n => (g.rankIncreases n).map (fun c => (n, c)))) ds ∧
      ((∀ n ∈ g.nodes, ∀ d ∈ (g.dependenciesOf? n []).getD [], ∀ t,
        g.resolveTarget? d.required = some t → t.node.lifetime.rank ≤ n.lifetime.rank) →
          ds = []) := by
  intro g
  have hfindings := findings_eq (Graph.build_numbered rs shapes)
  refine ⟨findings g, rfl, ?_, fun hlow => ?_⟩
  · have hmap : findings g = (g.nodes.flatMap (fun n =>
        (g.rankIncreases n).map (fun c => (n, c)))).map (fun c => report ⟨c.1, c.2.2, c.2.1⟩) := by
      rw [List.map_flatMap]
      simp only [List.map_map]
      exact hfindings
    rw [hmap, List.forall₂_map_right_iff, List.forall₂_same]
    exact fun c _ => reports_report c.1 c.2.1 c.2.2
  · rw [hfindings, List.flatMap_eq_nil_iff]
    intro n hn
    rw [Graph.rankIncreases_eq_nil_iff.2 (hlow n hn), List.map_nil]

end Captive

end Wiring
