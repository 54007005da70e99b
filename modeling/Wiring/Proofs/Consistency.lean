import Wiring.Proofs.Accounts
import Wiring.Proofs.Captive
import Wiring.Proofs.Order

/-!
# What a graph keeps in more than one place

A graph has its nodes in order, an index from services to the numbers of nodes and of registrations,
a list of edges, and for each node the numbers of the edges that leave it. Checks read now one of
these and now another. This module shows that they agree in every graph that registrations build,
and that requests for one registration and for all of them, which go through different parts of the
index, find something for the same services.

Results:
1. `Graph.pairwise_precedes_build`: the nodes are in strict order.
2. `Graph.WellFormed.lookup_numbers_iff`, `Graph.lookup_counts_build`: what the index has for a
   service.
3. `Graph.WellFormed.mem_of_mem_edges`, `Graph.Numbered.flatMap_leaving`,
   `Graph.map_dependency_edgesFrom`: where edges lead, and the edges node by node.
4. `Graph.WellFormed.resolveTarget?_eq_some_iff`: where a request ends.
5. `Graph.build_consistent`: all of it, for every graph that is built.
-/

namespace Wiring

/-- The order of nodes: by the index of the effective registration, then by service. -/
def Node.Precedes (a b : Node) : Prop :=
  a.registration.insertionIndex < b.registration.insertionIndex ∨
    a.registration.insertionIndex = b.registration.insertionIndex ∧
      a.service.cmp b.service = .lt

namespace Graph

/-! ## The order of nodes -/

theorem precedes_of_declaredBefore {a b : Node} {as bs : List Registration}
    (h : declaredBefore (a.registration, as) (b.registration, bs) = true)
    (hne : a.service ≠ b.service) : a.Precedes b := by
  have hle : ((compare a.registration.insertionIndex b.registration.insertionIndex).then
      (a.service.cmp b.service)).isLE = true := h
  cases hindex : compare a.registration.insertionIndex b.registration.insertionIndex with
  | lt => exact .inl (Std.compare_eq_lt.1 hindex)
  | eq =>
    refine .inr ⟨Std.LawfulEqOrd.eq_of_compare hindex, ?_⟩
    cases hservice : a.service.cmp b.service with
    | lt => rfl
    | eq => exact absurd (ServiceIdentity.eq_of_cmp hservice) hne
    | gt =>
      rw [hindex, hservice] at hle
      cases hle
  | gt =>
    rw [hindex] at hle
    cases hle

theorem pairwise_precedes_build (rs : List Registration) (shapes : List TypeShape) :
    (build rs shapes).nodes.Pairwise Node.Precedes := by
  have hsorted : ((build rs shapes).nodes.map Node.registration).Pairwise
      (fun a b => declaredBefore (a, []) (b, [])) := by
    rw [registrations_build]
    exact List.pairwise_map.2 (pairwise_declaredBefore_effectiveGroups rs)
  have hdistinct := List.pairwise_map.1 (build_wellFormed rs shapes).nodup
  exact (List.pairwise_map.1 hsorted).imp₂ (fun _ _ => precedes_of_declaredBefore) hdistinct

/-! ## The index -/

section WellFormed

variable {g : Graph} (h : g.WellFormed)

include h

/-- Where no service has two nodes, the index has the number of the one that provides it. -/
theorem WellFormed.lookup_numbers_iff {s : ServiceIdentity} {i : Nat} :
    g.index.numbers.lookup s = some i ↔ ∃ n, g.nodes[i]? = some n ∧ n.service = s := by
  constructor
  · intro hi
    obtain ⟨n, hn, hs, -⟩ := g.index_covers.found s i hi
    exact ⟨n, hn, hs⟩
  · rintro ⟨n, hn, hs⟩
    cases hj : g.index.numbers.lookup s with
    | none => exact absurd hs ((g.index_covers.missing s hj).2 n (List.mem_of_getElem? hn))
    | some j =>
      obtain ⟨m, hm, hs', -⟩ := g.index_covers.found s j hj
      have hi : (g.nodes.map Node.service)[i]? = some s := by rw [List.getElem?_map, hn, ← hs]; rfl
      have hj' : (g.nodes.map Node.service)[j]? = some s := by
        rw [List.getElem?_map, hm, ← hs']
        rfl
      have hlt := (List.getElem?_eq_some_iff.1 hj').1
      rw [(List.getElem?_inj hlt h.nodup).1 (hj'.trans hi.symm)]

theorem WellFormed.isSome_lookup_numbers_iff {s : ServiceIdentity} :
    (g.index.numbers.lookup s).isSome ↔ s ∈ g.nodes.map Node.service := by
  rw [Option.isSome_iff_exists, List.mem_map]
  constructor
  · rintro ⟨i, hi⟩
    obtain ⟨n, hn, hs⟩ := h.lookup_numbers_iff.1 hi
    exact ⟨n, List.mem_of_getElem? hn, hs⟩
  · rintro ⟨n, hn, hs⟩
    obtain ⟨i, hi⟩ := List.mem_iff_getElem?.1 hn
    exact ⟨i, h.lookup_numbers_iff.2 ⟨n, hi, hs⟩⟩

theorem WellFormed.effective?_eq_some_iff {s : ServiceIdentity} {n : Node} :
    g.effective? s = some n ↔ n ∈ g.nodes ∧ n.service = s := by
  refine ⟨mem_of_effective?, ?_⟩
  rintro ⟨hn, rfl⟩
  exact h.effective?_service hn

/-- A request ends at the node of the service, or, if there is none, at that of its definition. -/
theorem WellFormed.resolveTarget?_eq_some_iff {s : ServiceIdentity} {t : Target} :
    g.resolveTarget? s = some t ↔ t.node ∈ g.nodes ∧
      (t.node.service = s ∧ t.closingArgs = [] ∨
        (∀ n ∈ g.nodes, n.service ≠ s) ∧ s.openDefinition = some t.node.service ∧
          t.closingArgs = s.ty.args) := by
  obtain ⟨node, args⟩ := t
  rw [resolveTarget?]
  cases hs : g.effective? s with
  | some n =>
    obtain ⟨hn, hservice⟩ := mem_of_effective? hs
    constructor
    · rintro ⟨⟩
      exact ⟨hn, .inl ⟨hservice, rfl⟩⟩
    · rintro ⟨hnode, ⟨hown, rfl⟩ | ⟨hnone, -⟩⟩
      · rw [← hs, h.effective?_eq_some_iff.2 ⟨hnode, hown⟩]
      · exact absurd hservice (hnone n hn)
  | none =>
    have hnone : ∀ n ∈ g.nodes, n.service ≠ s := by
      rintro n hn rfl
      rw [h.effective?_service hn] at hs
      cases hs
    constructor
    · intro ht
      obtain ⟨m, hm, heq⟩ := Option.map_eq_some_iff.1 ht
      obtain ⟨rfl, rfl⟩ := Target.mk.inj heq
      obtain ⟨o, ho, hm⟩ := Option.bind_eq_some_iff.1 hm
      obtain ⟨hmem, rfl⟩ := mem_of_effective? hm
      exact ⟨hmem, .inr ⟨hnone, ho, rfl⟩⟩
    · rintro ⟨hnode, ⟨hown, -⟩ | ⟨-, ho, rfl⟩⟩
      · exact absurd hown (hnone node hnode)
      · rw [ho, Option.bind_some, h.effective?_service hnode]
        rfl

end WellFormed

theorem lookup_counts_build {rs : List Registration} {shapes : List TypeShape}
    {s : ServiceIdentity} {k : Nat} :
    (build rs shapes).index.counts.lookup s = some k ↔
      k = rs.countP (fun r => r.service == s) ∧ 0 < k := by
  have hcovers := (build rs shapes).index_covers
  cases hi : (build rs shapes).index.numbers.lookup s with
  | none =>
    obtain ⟨hcount, hservices⟩ := hcovers.missing s hi
    have hzero : rs.countP (fun r => r.service == s) = 0 := by
      refine List.countP_eq_zero.2 (fun r hr heq => ?_)
      have hmem : s ∈ (build rs shapes).nodes.map Node.service := by
        rw [(services_build_perm rs shapes).mem_iff, mem_servicesOf]
        exact ⟨r, hr, eq_of_beq heq⟩
      obtain ⟨n, hn, hs⟩ := List.mem_map.1 hmem
      exact hservices n hn hs
    rw [hcount, hzero]
    constructor
    · intro h
      cases h
    · rintro ⟨rfl, hpos⟩
      exact absurd hpos (Nat.lt_irrefl 0)
  | some i =>
    obtain ⟨n, hn, rfl, hcount⟩ := hcovers.found s i hi
    have hmem := List.mem_of_getElem? hn
    have hlength : n.entries.length = rs.countP (fun r => r.service == n.service) := by
      rw [(mem_nodes_build rs shapes hmem).2.1, (entriesOf_perm rs _).length_eq,
        List.countP_eq_length_filter]
    have hpos : 0 < n.entries.length :=
      List.length_pos_iff.2 ((build_wellFormed rs shapes).entries_ne_nil n hmem)
    rw [hcount, Option.some.injEq, ← hlength]
    constructor
    · rintro rfl
      exact ⟨rfl, hpos⟩
    · exact fun h => h.1.symm

/-! ## The edges -/

theorem Numbered.ix_eq {g : Graph} (h : g.Numbered) {i : Nat} {n : Node}
    (hn : g.nodes[i]? = some n) : n.ix = i := by
  have hlt := (List.getElem?_eq_some_iff.1 hn).1
  have hix : (g.nodes.map Node.ix)[i]? = some n.ix := by rw [List.getElem?_map, hn]; rfl
  rw [h, List.getElem?_range hlt] at hix
  exact (Option.some.inj hix).symm

theorem Numbered.getElem?_ix {g : Graph} (h : g.Numbered) {n : Node} (hn : n ∈ g.nodes) :
    g.nodes[n.ix]? = some n := by
  obtain ⟨i, hi⟩ := List.mem_iff_getElem?.1 hn
  rw [h.ix_eq hi, hi]

/-- The lists of edges under the nodes make up the list of all edges. -/
theorem Numbered.flatMap_leaving {g : Graph} (h : g.Numbered) :
    (List.range g.nodes.length).flatMap g.links.leaving = g.links.edges := by
  rw [← h, List.flatMap_map]
  exact List.flatMap_congr (fun n hn => h.leaving_eq hn)

theorem leaving_eq_nil (g : Graph) {i : Nat} (hi : g.nodes.length ≤ i) :
    g.links.leaving i = [] := by
  have hlen : g.links.outgoing.length ≤ i := by
    rw [links, Links.length_enter, List.length_replicate]
    exact hi
  rw [Links.leaving, List.getD_eq_getElem?_getD, List.getElem?_eq_none hlen]
  rfl

theorem target_of_mem_edgesFrom {g : Graph} {n : Node} {e : Edge} (h : e ∈ g.edgesFrom n) :
    (g.resolveTarget? e.dependency.required).map Target.node = some e.target := by
  obtain ⟨d, -, h⟩ := List.mem_filterMap.1 h
  obtain ⟨t, ht, rfl⟩ := Option.map_eq_some_iff.1 h
  rw [ht]
  rfl

/-- Edges lead from nodes to nodes. -/
theorem WellFormed.mem_of_mem_edges {g : Graph} (h : g.WellFormed) {e : Edge} (he : e ∈ g.edges) :
    e.source ∈ g.nodes ∧ e.target ∈ g.nodes := by
  obtain ⟨n, hn, he⟩ := List.mem_flatMap.1 he
  obtain ⟨t, ht, htarget⟩ := Option.map_eq_some_iff.1 (target_of_mem_edgesFrom he)
  rw [source_of_mem_edgesFrom he, ← htarget]
  exact ⟨hn, (h.resolveTarget?_eq_some_iff.1 ht).1⟩

/-- The edges of a node are those of its dependencies that are satisfied, in order. -/
theorem map_dependency_edgesFrom (g : Graph) (n : Node) :
    (g.edgesFrom n).map Edge.dependency =
      ((g.dependenciesOf? n []).getD []).filter
        (fun d => (g.resolveTarget? d.required).isSome) := by
  rw [edgesFrom, List.map_filterMap, ← List.filterMap_eq_filter]
  refine List.filterMap_congr (fun d _ => ?_)
  cases ht : g.resolveTarget? d.required with
  | none => simp [Option.guard, ht]
  | some t => simp [Option.guard, ht]

/-! ## The whole graph -/

/-- The parts of a graph agree with each other and with the registrations. -/
structure Consistent (g : Graph) (rs : List Registration) : Prop where
  /-- The number of a node is its place. -/
  ix_eq : ∀ (i : Nat) (n : Node), g.nodes[i]? = some n → n.ix = i
  /-- The nodes are in strict order. -/
  increasing : g.nodes.Pairwise Node.Precedes
  /-- The index leads from a service to the one node that provides it. -/
  numbers_iff : ∀ s i, g.index.numbers.lookup s = some i ↔
    ∃ n, g.nodes[i]? = some n ∧ n.service = s
  /-- It does so for the registered services and no others. -/
  registered_iff : ∀ s, (g.index.numbers.lookup s).isSome ↔ ∃ r ∈ rs, r.service = s
  /-- For these it has the number of their registrations. -/
  counts_iff : ∀ s k, g.index.counts.lookup s = some k ↔
    k = rs.countP (fun r => r.service == s) ∧ 0 < k
  /-- Edges lead from nodes to nodes. -/
  ends : ∀ e ∈ g.links.edges, g.nodes[e.source.ix]? = some e.source ∧
    g.nodes[e.target.ix]? = some e.target
  /-- The edges under the nodes make up all edges, in order. -/
  edges_eq : (List.range g.nodes.length).flatMap g.links.leaving = g.links.edges
  /-- Under a node there are its dependencies that are satisfied, in order. -/
  leaving : ∀ (i : Nat) (n : Node), g.nodes[i]? = some n →
    (g.links.leaving i).map Edge.dependency =
      ((g.dependenciesOf? n []).getD []).filter (fun d => (g.resolveTarget? d.required).isSome) ∧
    ∀ e ∈ g.links.leaving i, e.source = n ∧
      (g.resolveTarget? e.dependency.required).map Target.node = some e.target
  leaving_outside : ∀ i, g.nodes.length ≤ i → g.links.leaving i = []
  /-- A request for one registration finds a node if a request for all finds one. -/
  isSome_iff : ∀ s, (g.resolveTarget? s).isSome ↔ 0 < g.registrationCount s
  /-- It is the node of the service itself, or else that of its definition under the same key. -/
  target_iff : ∀ s t, g.resolveTarget? s = some t ↔ t.node ∈ g.nodes ∧
    (t.node.service = s ∧ t.closingArgs = [] ∨
      (∀ n ∈ g.nodes, n.service ≠ s) ∧ s.ty.openDefinition = some t.node.service.ty ∧
        t.node.service.key = s.key ∧ t.closingArgs = s.ty.args)

theorem openDefinition_eq_some_iff {s o : ServiceIdentity} :
    s.openDefinition = some o ↔ s.ty.openDefinition = some o.ty ∧ o.key = s.key := by
  rw [ServiceIdentity.openDefinition, Option.map_eq_some_iff]
  constructor
  · rintro ⟨ty, hty, rfl⟩
    exact ⟨hty, rfl⟩
  · rintro ⟨hty, hkey⟩
    exact ⟨o.ty, hty, by rw [ServiceIdentity.withTy, ← hkey]⟩

/-- Whatever the registrations and the shapes are, the graph that they build is consistent. -/
theorem build_consistent (rs : List Registration) (shapes : List TypeShape) :
    (build rs shapes).Consistent rs where
  ix_eq i n hn := (build_numbered rs shapes).ix_eq hn
  increasing := pairwise_precedes_build rs shapes
  numbers_iff s i := (build_wellFormed rs shapes).lookup_numbers_iff
  registered_iff s := by
    rw [(build_wellFormed rs shapes).isSome_lookup_numbers_iff,
      (services_build_perm rs shapes).mem_iff, mem_servicesOf]
  counts_iff s k := lookup_counts_build
  ends e he := by
    obtain ⟨hsource, htarget⟩ := (build_wellFormed rs shapes).mem_of_mem_edges he
    have hnumbered := build_numbered rs shapes
    exact ⟨hnumbered.getElem?_ix hsource, hnumbered.getElem?_ix htarget⟩
  edges_eq := (build_numbered rs shapes).flatMap_leaving
  leaving i n hn := by
    have hnumbered := build_numbered rs shapes
    have hleaving := hnumbered.leaving_eq (List.mem_of_getElem? hn)
    rw [hnumbered.ix_eq hn] at hleaving
    rw [hleaving]
    exact ⟨map_dependency_edgesFrom _ n,
      fun e he => ⟨source_of_mem_edgesFrom he, target_of_mem_edgesFrom he⟩⟩
  leaving_outside i hi := leaving_eq_nil _ hi
  isSome_iff s := by
    rw [Nat.pos_iff_ne_zero, Ne, (build_wellFormed rs shapes).registrationCount_eq_zero_iff]
    exact Option.isSome_iff_ne_none
  target_iff s t := by
    rw [(build_wellFormed rs shapes).resolveTarget?_eq_some_iff, openDefinition_eq_some_iff,
      and_assoc]

end Graph

end Wiring
