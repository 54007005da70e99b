import Mathlib.Data.List.Forall2
import Std.Data.String.ToNat
import Wiring.Proofs.Consistency
import Wiring.Snapshot.Basic

/-!
# What a snapshot shows of a graph

A snapshot has the nodes and the edges of a graph in words, and some counts. Tools that read it know
nodes by their ids only. This module shows that the ids tell the nodes apart, that every edge joins
the nodes that stand for its two ends, and that the counts, which are kept while the nodes are gone
through, are those of the nodes.

Results:
1. `Snapshot.nodeId_injective`, `Snapshot.nodup_ids`: ids are decimal numbers with a word before
   them, and no two nodes have the same one.
2. `SnapshotSummary.foldl_count`: what a counter has after some nodes.
3. `Graph.snapshot_faithful`: the snapshot of every graph that is built.
-/

namespace Wiring

/-! ## Counting nodes -/

namespace SnapshotSummary

/-- The number of nodes of a lifetime. -/
def ofLifetime (s : SnapshotSummary) : Lifetime → UInt64
  | .singleton => s.singletonCount
  | .scoped => s.scopedCount
  | .transient => s.transientCount

theorem ofLifetime_count (l : Lifetime) (s : SnapshotSummary) (n : Node) :
    (s.count n).ofLifetime l = s.ofLifetime l + if n.lifetime == l then 1 else 0 := by
  unfold count countLifetime ofLifetime
  cases n.lifetime <;> cases l <;> cases n.isOpen <;> simp

theorem openGenericCount_count (s : SnapshotSummary) (n : Node) :
    (s.count n).openGenericCount = s.openGenericCount + if n.isOpen then 1 else 0 := by
  unfold count countLifetime
  cases n.lifetime <;> cases n.isOpen <;> simp

theorem serviceCount_count (s : SnapshotSummary) (n : Node) :
    (s.count n).serviceCount = s.serviceCount := by
  unfold count countLifetime
  cases n.lifetime <;> cases n.isOpen <;> rfl

theorem serviceCount_foldl (s : SnapshotSummary) (ns : List Node) :
    (ns.foldl count s).serviceCount = s.serviceCount := by
  induction ns generalizing s with
  | nil => rfl
  | cons n ns ih => rw [List.foldl_cons, ih, serviceCount_count]

/-- A counter that goes up by one for some nodes has their number in the end. -/
theorem foldl_count (counter : SnapshotSummary → UInt64) (p : Node → Bool)
    (hstep : ∀ s n, counter (s.count n) = counter s + if p n then 1 else 0)
    (s : SnapshotSummary) (ns : List Node) :
    counter (ns.foldl count s) = counter s + .ofNat (ns.countP p) := by
  induction ns generalizing s with
  | nil => simp
  | cons n ns ih =>
    rw [List.foldl_cons, ih, hstep, List.countP_cons, UInt64.add_assoc]
    cases p n with
    | false => simp
    | true => simp [UInt64.ofNat_add, UInt64.add_comm]

end SnapshotSummary

/-- Every node has one of the three lifetimes. -/
theorem length_eq_countP_lifetimes (ns : List Node) :
    ns.length = ns.countP (fun n => n.lifetime == .singleton) +
      ns.countP (fun n => n.lifetime == .scoped) +
      ns.countP (fun n => n.lifetime == .transient) := by
  induction ns with
  | nil => rfl
  | cons n ns ih =>
    simp only [List.length_cons, List.countP_cons]
    cases hl : n.lifetime <;> simp <;> omega

namespace Snapshot

theorem nodeId_injective {a b : Node} (h : nodeId a = nodeId b) : a.ix = b.ix := by
  have htext : toString a.ix = toString b.ix := (String.append_right_inj _).1 h
  rw [Nat.toString_eq_repr, Nat.toString_eq_repr] at htext
  exact Nat.repr_injective htext

theorem nodup_ids {g : Graph} (h : g.Numbered) : (g.snapshot.nodes.map SnapshotNode.id).Nodup := by
  have hix : (g.nodes.map Node.ix).Nodup := h ▸ List.nodup_range
  have hids : g.snapshot.nodes.map SnapshotNode.id = g.nodes.map nodeId := List.map_map
  rw [hids, List.Nodup, List.pairwise_map]
  exact (List.pairwise_map.1 hix).imp (fun hne heq => hne (nodeId_injective heq))

/-! ## The summary -/

section Summary

variable (g : Graph)

theorem serviceCount_summaryOf : (summaryOf g).serviceCount = .ofNat g.nodes.length :=
  SnapshotSummary.serviceCount_foldl _ g.nodes

theorem ofLifetime_summaryOf (l : Lifetime) :
    (summaryOf g).ofLifetime l = .ofNat (g.nodes.countP (fun n => n.lifetime == l)) := by
  have hcount := SnapshotSummary.foldl_count (fun s => s.ofLifetime l) (fun n => n.lifetime == l)
    (SnapshotSummary.ofLifetime_count l) (blankSummary g.nodes.length) g.nodes
  have hblank : (blankSummary g.nodes.length).ofLifetime l = 0 := by cases l <;> rfl
  rw [hblank, UInt64.zero_add] at hcount
  exact hcount

theorem openGenericCount_summaryOf :
    (summaryOf g).openGenericCount = .ofNat (g.nodes.countP Node.isOpen) := by
  have hcount := SnapshotSummary.foldl_count SnapshotSummary.openGenericCount Node.isOpen
    SnapshotSummary.openGenericCount_count (blankSummary g.nodes.length) g.nodes
  exact hcount.trans (UInt64.zero_add _)

/-- The three counts by lifetime make up the count of all. -/
theorem sum_summaryOf :
    (summaryOf g).singletonCount + (summaryOf g).scopedCount + (summaryOf g).transientCount =
      (summaryOf g).serviceCount := by
  have hsum : (summaryOf g).ofLifetime .singleton + (summaryOf g).ofLifetime .scoped +
      (summaryOf g).ofLifetime .transient = (summaryOf g).serviceCount := by
    rw [ofLifetime_summaryOf, ofLifetime_summaryOf, ofLifetime_summaryOf, serviceCount_summaryOf,
      length_eq_countP_lifetimes g.nodes, UInt64.ofNat_add, UInt64.ofNat_add]
  exact hsum

end Summary

/-! ## Counts that fit in a word -/

section Fits

variable {g : Graph} (hfits : g.nodes.length < UInt64.size)

include hfits

theorem toNat_ofNat_countP (p : Node → Bool) :
    (UInt64.ofNat (g.nodes.countP p)).toNat = g.nodes.countP p :=
  UInt64.toNat_ofNat_of_lt' (Nat.lt_of_le_of_lt List.countP_le_length hfits)

theorem toNat_serviceCount : (summaryOf g).serviceCount.toNat = g.nodes.length := by
  rw [serviceCount_summaryOf, UInt64.toNat_ofNat_of_lt' hfits]

theorem toNat_ofLifetime (l : Lifetime) :
    ((summaryOf g).ofLifetime l).toNat = g.nodes.countP (fun n => n.lifetime == l) := by
  rw [ofLifetime_summaryOf, toNat_ofNat_countP hfits]

theorem toNat_openGenericCount :
    (summaryOf g).openGenericCount.toNat = g.nodes.countP Node.isOpen := by
  rw [openGenericCount_summaryOf, toNat_ofNat_countP hfits]

theorem toNat_sum :
    (summaryOf g).singletonCount.toNat + (summaryOf g).scopedCount.toNat +
      (summaryOf g).transientCount.toNat = (summaryOf g).serviceCount.toNat := by
  have hsum := length_eq_countP_lifetimes g.nodes
  rw [← toNat_serviceCount hfits, ← toNat_ofLifetime hfits, ← toNat_ofLifetime hfits,
    ← toNat_ofLifetime hfits] at hsum
  exact hsum.symm

end Fits

/-! ## The whole snapshot -/

/-- A node of the graph and what is shown of it. -/
structure ShowsNode (n : Node) (m : SnapshotNode) : Prop where
  service : m.service = n.service.text
  implementation : m.implementation = n.registration.implementation.describe
  lifetime : m.lifetime = n.lifetime.text
  isOpenGeneric : m.isOpenGeneric = n.isOpen

/-- An edge of the graph and what is shown of it: the ids at its ends are those of the nodes that
stand for the consumer and for the dependency. -/
structure ShowsEdge (s : Snapshot) (g : Graph) (e : Edge) (x : SnapshotEdge) : Prop where
  source : ∃ (i : Nat) (m : SnapshotNode), g.nodes[i]? = some e.source ∧ s.nodes[i]? = some m ∧
    x.source = m.id
  target : ∃ (i : Nat) (m : SnapshotNode), g.nodes[i]? = some e.target ∧ s.nodes[i]? = some m ∧
    x.target = m.id
  demand : x.demand =
    if e.dependency.isEnumerable then .multiple
    else if e.dependency.isOptional then .optional
    else .required

/-- The snapshot shows the graph. The counts are words, and so the numbers themselves as long as the
nodes can be counted in a word. -/
structure Faithful (s : Snapshot) (g : Graph) : Prop where
  nodes : List.Forall₂ ShowsNode g.nodes s.nodes
  nodup : (s.nodes.map SnapshotNode.id).Nodup
  edges : List.Forall₂ (s.ShowsEdge g) g.edges s.edges
  serviceCount : s.summary.serviceCount = .ofNat s.nodes.length
  lifetimeCount : ∀ l, s.summary.ofLifetime l = .ofNat (g.nodes.countP (fun n => n.lifetime == l))
  openGenericCount : s.summary.openGenericCount =
    .ofNat (s.nodes.countP (fun m => m.isOpenGeneric))
  sum : s.summary.singletonCount + s.summary.scopedCount + s.summary.transientCount =
    s.summary.serviceCount
  fits : s.nodes.length < UInt64.size →
    s.summary.serviceCount.toNat = s.nodes.length ∧
    (∀ l, (s.summary.ofLifetime l).toNat = g.nodes.countP (fun n => n.lifetime == l)) ∧
    s.summary.openGenericCount.toNat = s.nodes.countP (fun m => m.isOpenGeneric) ∧
    s.summary.singletonCount.toNat + s.summary.scopedCount.toNat +
      s.summary.transientCount.toNat = s.summary.serviceCount.toNat

theorem countP_isOpenGeneric (g : Graph) :
    g.snapshot.nodes.countP (fun m => m.isOpenGeneric) = g.nodes.countP Node.isOpen :=
  List.countP_map

/-- The node under the number of a node is shown with the id of that node. -/
theorem getElem?_nodes {g : Graph} (h : g.Numbered) {n : Node} (hn : n ∈ g.nodes) :
    g.snapshot.nodes[n.ix]? = some (nodeOf n) := by
  have hmap : g.snapshot.nodes[n.ix]? = g.nodes[n.ix]?.map nodeOf := List.getElem?_map
  rw [hmap, h.getElem?_ix hn]
  rfl

end Snapshot

open Snapshot

/-- The snapshot of a graph shows every node and every edge of it, in order, under ids that tell the
nodes apart, and counts the nodes. -/
theorem Graph.snapshot_faithful (rs : List Registration) (shapes : List TypeShape) :
    (build rs shapes).snapshot.Faithful (build rs shapes) := by
  have hnumbered := build_numbered rs shapes
  have hwellFormed := build_wellFormed rs shapes
  generalize build rs shapes = g at hnumbered hwellFormed
  have hlength : g.snapshot.nodes.length = g.nodes.length := List.length_map _
  refine ⟨?_, nodup_ids hnumbered, ?_, ?_, ofLifetime_summaryOf g, ?_, sum_summaryOf g, ?_⟩
  · exact List.forall₂_map_right_iff.2 (List.forall₂_same.2 (fun n _ => ⟨rfl, rfl, rfl, rfl⟩))
  · refine List.forall₂_map_right_iff.2 (List.forall₂_same.2 (fun e he => ?_))
    obtain ⟨hsource, htarget⟩ := hwellFormed.mem_of_mem_edges he
    exact ⟨⟨e.source.ix, nodeOf e.source, hnumbered.getElem?_ix hsource,
        getElem?_nodes hnumbered hsource, rfl⟩,
      ⟨e.target.ix, nodeOf e.target, hnumbered.getElem?_ix htarget,
        getElem?_nodes hnumbered htarget, rfl⟩, rfl⟩
  · rw [hlength]
    exact serviceCount_summaryOf g
  · rw [countP_isOpenGeneric]
    exact openGenericCount_summaryOf g
  · intro hfits
    rw [hlength] at hfits
    rw [countP_isOpenGeneric, hlength]
    exact ⟨toNat_serviceCount hfits, toNat_ofLifetime hfits, toNat_openGenericCount hfits,
      toNat_sum hfits⟩

end Wiring
