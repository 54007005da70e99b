import Mathlib.Data.List.Nodup
import Wiring.Graph

/-!
# The graph that registrations build

The graph has one node for each registered service, and the node knows all registrations of its
service. So a request finds a node exactly when it is registered, itself or as a generic definition,
and then a request for all registrations finds some.

Results:
1. `Graph.index_covers`: what the index has for a service is the number of a node that provides it
   and the number of registrations there.
2. `Graph.build_wellFormed`: one node for each service, each with a registration.
3. `Graph.isSome_effective?_build`: which services have a node.
4. `Graph.WellFormed.registrationCount_eq_zero_iff`: requests for one and for all fail together.
5. `Graph.shapeFor?_cases`: a type has a shape of its own or that of its definition.
6. `Graph.build_eq_of_declaredBefore`: the graph of registrations that are listed in order, each of
   another service.
-/

namespace Wiring

/-- Where no two entries have the same key, a search by key finds the entry that has it. -/
theorem find?_eq_some_iff_of_nodup {α β : Type} [DecidableEq β] {key : α → β} {l : List α}
    (h : (l.map key).Nodup) {k : β} {a : α} :
    l.find? (fun x => key x == k) = some a ↔ a ∈ l ∧ key a = k := by
  constructor
  · intro hfind
    exact ⟨List.mem_of_find?_eq_some hfind, by simpa using List.find?_some hfind⟩
  · rintro ⟨ha, rfl⟩
    induction l with
    | nil => exact absurd ha List.not_mem_nil
    | cons b l ih =>
      rw [List.map_cons, List.nodup_cons] at h
      rw [List.find?_cons]
      rcases List.mem_cons.1 ha with rfl | ha
      · rw [beq_self_eq_true]
      · have hne : key b ≠ key a := fun heq => h.1 (heq ▸ List.mem_map_of_mem ha)
        rw [beq_false_of_ne hne]
        exact ih h.2 ha

/-! ## The registrations of a service -/

theorem mem_servicesOf {rs : List Registration} {s : ServiceIdentity} :
    s ∈ servicesOf rs ↔ ∃ r ∈ rs, r.service = s := by
  rw [servicesOf, List.mem_eraseDups, List.mem_map]

theorem nodup_eraseDups (ss : List ServiceIdentity) : ss.eraseDups.Nodup := by
  match ss with
  | [] => exact List.nodup_nil
  | s :: ss =>
    have hlt : (ss.filter (fun t => !t == s)).length < ss.length + 1 :=
      Nat.lt_succ_of_le (List.length_filter_le _ ss)
    rw [List.eraseDups_cons, List.nodup_cons, List.mem_eraseDups]
    exact ⟨by simp, nodup_eraseDups _⟩
termination_by ss.length

theorem nodup_servicesOf (rs : List Registration) : (servicesOf rs).Nodup :=
  nodup_eraseDups _

theorem mem_entriesOf {rs : List Registration} {s : ServiceIdentity} {r : Registration} :
    r ∈ entriesOf rs s ↔ r ∈ rs ∧ r.service = s := by
  rw [entriesOf, List.mem_mergeSort, List.mem_filter, beq_iff_eq]

theorem index_le_trans (a b c : Registration)
    (hab : decide (a.insertionIndex ≤ b.insertionIndex) = true)
    (hbc : decide (b.insertionIndex ≤ c.insertionIndex) = true) :
    decide (a.insertionIndex ≤ c.insertionIndex) = true := by
  simp only [decide_eq_true_eq] at hab hbc ⊢
  exact UInt64.le_trans hab hbc

theorem index_le_total (a b : Registration) :
    (decide (a.insertionIndex ≤ b.insertionIndex) ||
      decide (b.insertionIndex ≤ a.insertionIndex)) = true := by
  simp only [Bool.or_eq_true, decide_eq_true_eq]
  exact UInt64.le_total _ _

theorem lastUnconditional?_lt {entries : List Registration} {i : Nat}
    (h : lastUnconditional? entries = some i) : i < entries.length := by
  induction entries generalizing i with
  | nil => exact nomatch h
  | cons r rs ih =>
    rw [lastUnconditional?] at h
    split at h
    · next j hj =>
      obtain rfl := Option.some.inj h
      exact Nat.succ_lt_succ (ih hj)
    · split at h
      · exact nomatch h
      · obtain rfl := Option.some.inj h
        exact Nat.succ_pos _

theorem inForceIx_lt {entries : List Registration} (h : entries ≠ []) :
    inForceIx entries < entries.length := by
  cases entries with
  | nil => exact absurd rfl h
  | cons first rest =>
    rw [inForceIx]
    split
    · exact Nat.succ_pos _
    · cases hlast : lastUnconditional? (first :: rest) with
      | none => exact Nat.succ_pos _
      | some i => exact lastUnconditional?_lt hlast

theorem mem_of_inForce? {entries : List Registration} {r : Registration}
    (h : inForce? entries = some r) : r ∈ entries :=
  List.mem_of_getElem? h

theorem exists_inForce? {entries : List Registration} (h : entries ≠ []) :
    ∃ r, inForce? entries = some r :=
  ⟨_, List.getElem?_eq_getElem (inForceIx_lt h)⟩

theorem inForce?_singleton (r : Registration) : inForce? [r] = some r := by
  cases h : r.isConditional with
  | false => simp [inForce?, inForceIx, lastUnconditional?, h]
  | true => simp [inForce?, inForceIx, h]

/-- A registered service has an effective registration. -/
theorem exists_inForce?_entriesOf {rs : List Registration} {s : ServiceIdentity}
    (h : s ∈ servicesOf rs) : ∃ r, inForce? (entriesOf rs s) = some r ∧ r.service = s := by
  obtain ⟨r₀, hr₀, hs⟩ := mem_servicesOf.1 h
  obtain ⟨r, hr⟩ := exists_inForce? (List.ne_nil_of_mem (mem_entriesOf.2 ⟨hr₀, hs⟩))
  exact ⟨r, hr, (mem_entriesOf.1 (mem_of_inForce? hr)).2⟩

/-! ## Nodes by service -/

namespace Index

/-- The index is that of the nodes: under a service there is the number of a node that provides it,
with the number of its registrations, and there is nothing only if no node does. -/
structure Covers (x : Index) (ns : List Node) : Prop where
  found : ∀ s i, x.numbers.lookup s = some i →
    ∃ n, ns[i]? = some n ∧ n.service = s ∧ x.counts.lookup s = some n.entries.length
  missing : ∀ s, x.numbers.lookup s = none → x.counts.lookup s = none ∧ ∀ n ∈ ns, n.service ≠ s

theorem covers_empty : empty.Covers [] where
  found s i h := by cases h
  missing s _ := ⟨rfl, fun n hn => by cases hn⟩

/-- One more node is entered with the next number. -/
theorem Covers.insert {x : Index} {ns : List Node} (h : x.Covers ns) (n : Node) :
    (x.insert ns.length n).Covers (ns ++ [n]) where
  found s i hi := by
    rw [Index.insert, List.lookup_cons] at hi
    by_cases hs : s = n.service
    · subst hs
      rw [beq_self_eq_true] at hi
      obtain rfl := Option.some.inj hi
      exact ⟨n, List.getElem?_concat_length, rfl, List.lookup_cons_self⟩
    · rw [beq_false_of_ne hs] at hi
      obtain ⟨m, hm, hservice, hcount⟩ := h.found s i hi
      obtain ⟨hlt, -⟩ := List.getElem?_eq_some_iff.1 hm
      refine ⟨m, (List.getElem?_append_left hlt).trans hm, hservice, ?_⟩
      rw [Index.insert, List.lookup_cons, beq_false_of_ne hs]
      exact hcount
  missing s hnone := by
    rw [Index.insert, List.lookup_cons] at hnone
    by_cases hs : s = n.service
    · subst hs
      rw [beq_self_eq_true] at hnone
      cases hnone
    · rw [beq_false_of_ne hs] at hnone
      obtain ⟨hcount, hservices⟩ := h.missing s hnone
      refine ⟨?_, fun m hm => ?_⟩
      · rw [Index.insert, List.lookup_cons, beq_false_of_ne hs]
        exact hcount
      · rcases List.mem_append.1 hm with hm | hm
        · exact hservices m hm
        · rw [List.mem_singleton.1 hm]
          exact Ne.symm hs

/-- The nodes that are left are entered one after the other. -/
theorem Covers.enter {x : Index} {done : List Node} (h : x.Covers done) (ns : List Node) :
    (x.enter done.length ns).Covers (done ++ ns) := by
  induction ns generalizing x done with
  | nil =>
    rw [List.append_nil]
    exact h
  | cons n ns ih =>
    have hrest := ih (h.insert n)
    rw [List.length_append, List.append_assoc] at hrest
    exact hrest

end Index

namespace Graph

theorem index_covers (g : Graph) : g.index.Covers g.nodes :=
  Index.covers_empty.enter g.nodes

/-! ## One node for each service -/

/-- No service has two nodes, and every node has a registration. -/
structure WellFormed (g : Graph) : Prop where
  nodup : (g.nodes.map Node.service).Nodup
  entries_ne_nil : ∀ n ∈ g.nodes, n.entries ≠ []

theorem mem_of_effective? {g : Graph} {s : ServiceIdentity} {n : Node}
    (h : g.effective? s = some n) : n ∈ g.nodes ∧ n.service = s := by
  obtain ⟨i, hi, hn⟩ := Option.bind_eq_some_iff.1 h
  obtain ⟨m, hm, hservice, -⟩ := g.index_covers.found s i hi
  obtain rfl := Option.some.inj (hm.symm.trans hn)
  exact ⟨List.mem_of_getElem? hm, hservice⟩

theorem isSome_effective?_iff {g : Graph} {s : ServiceIdentity} :
    (g.effective? s).isSome ↔ s ∈ g.nodes.map Node.service := by
  rw [List.mem_map]
  constructor
  · intro h
    obtain ⟨n, hn⟩ := Option.isSome_iff_exists.1 h
    exact ⟨n, mem_of_effective? hn⟩
  · rintro ⟨n, hn, hs⟩
    cases hi : g.index.numbers.lookup s with
    | none => exact absurd hs ((g.index_covers.missing s hi).2 n hn)
    | some i =>
      obtain ⟨m, hm, -, -⟩ := g.index_covers.found s i hi
      rw [effective?, hi, Option.bind_some, hm]
      rfl

theorem WellFormed.effective?_service {g : Graph} (h : g.WellFormed) {n : Node}
    (hn : n ∈ g.nodes) : g.effective? n.service = some n := by
  have hsome : (g.effective? n.service).isSome :=
    isSome_effective?_iff.2 (List.mem_map_of_mem hn)
  obtain ⟨m, hm⟩ := Option.isSome_iff_exists.1 hsome
  obtain ⟨hmem, hservice⟩ := mem_of_effective? hm
  rw [hm, List.inj_on_of_nodup_map h.nodup hmem hn hservice]

/-- The numbers that are kept are those of the nodes that are found. -/
theorem entryCount_eq (g : Graph) (s : ServiceIdentity) :
    g.entryCount s = ((g.effective? s).map (fun n => n.entries.length)).getD 0 := by
  rw [entryCount, effective?]
  cases hi : g.index.numbers.lookup s with
  | none =>
    rw [(g.index_covers.missing s hi).1]
    rfl
  | some i =>
    obtain ⟨n, hn, -, hcount⟩ := g.index_covers.found s i hi
    rw [hcount, Option.bind_some, hn]
    rfl

theorem WellFormed.entryCount_eq_zero_iff {g : Graph} (h : g.WellFormed) {s : ServiceIdentity} :
    g.entryCount s = 0 ↔ g.effective? s = none := by
  rw [entryCount_eq]
  cases hs : g.effective? s with
  | none => simp
  | some n => simpa using h.entries_ne_nil n (mem_of_effective? hs).1

theorem WellFormed.registrationCount_eq_zero_iff {g : Graph} (h : g.WellFormed)
    {s : ServiceIdentity} : g.registrationCount s = 0 ↔ g.resolveTarget? s = none := by
  rw [registrationCount, Nat.add_eq_zero_iff, h.entryCount_eq_zero_iff, resolveTarget?]
  cases g.effective? s with
  | some n => simp
  | none =>
    cases hs : s.openDefinition with
    | none => simp
    | some o => simp [h.entryCount_eq_zero_iff]

/-! ## Graphs without generic definitions -/

theorem isOpen_of_openDefinition {s o : ServiceIdentity} (h : s.openDefinition = some o) :
    o.isOpen := by
  obtain ⟨ty, hty, rfl⟩ := Option.map_eq_some_iff.1 h
  rw [TypeRef.openDefinition.eq_def] at hty
  split at hty
  · exact nomatch hty
  · obtain rfl := Option.some.inj hty
    rfl
  · exact nomatch hty

/-- No node provides a generic definition. -/
def Closed (g : Graph) : Prop :=
  ∀ n ∈ g.nodes, n.isOpen = false

/-- Without generic definitions a request ends at its own registration. -/
theorem Closed.resolveTarget?_eq {g : Graph} (h : g.Closed) (s : ServiceIdentity) :
    g.resolveTarget? s = (g.effective? s).map (fun n => ⟨n, []⟩) := by
  rw [resolveTarget?]
  cases hs : g.effective? s with
  | some n => rfl
  | none =>
    cases ho : s.openDefinition with
    | none => rfl
    | some o =>
      have hnone : g.effective? o = none := by
        rw [Option.eq_none_iff_forall_ne_some]
        intro n hn
        obtain ⟨hmem, rfl⟩ := mem_of_effective? hn
        exact Bool.false_ne_true ((h n hmem).symm.trans (isOpen_of_openDefinition ho))
      rw [Option.bind_some, hnone]
      rfl

/-! ## The shape of a type -/

section Shapes

variable {g : Graph} {ty : TypeRef} {shape : TypeShape} {args : List TypeRef}

theorem identity_of_declaredShape? (h : g.declaredShape? ty = some shape) :
    shape.identity = ty := by
  simpa using List.find?_some h

theorem declaredShape?_eq_none_iff :
    g.declaredShape? ty = none ↔ ∀ s ∈ g.shapes, s.identity ≠ ty := by
  simp [declaredShape?]

/-- A shape is declared for the type, or for its definition and closed over its arguments. -/
theorem shapeFor?_cases (h : g.shapeFor? ty = some (shape, args)) :
    (shape.identity = ty ∧ args = []) ∨
      ∃ name, ty = .closed name args ∧ args ≠ [] ∧
        shape.identity = .generic name (UInt64.ofNat args.length) := by
  unfold shapeFor? at h
  split at h
  · next s hs =>
    obtain ⟨rfl, rfl⟩ := Prod.mk.inj (Option.some.inj h)
    exact .inl ⟨identity_of_declaredShape? hs, rfl⟩
  · obtain ⟨s, hs, heq⟩ := Option.map_eq_some_iff.1 h
    obtain ⟨rfl, rfl⟩ := Prod.mk.inj heq
    obtain ⟨o, ho, hs⟩ := Option.bind_eq_some_iff.1 hs
    have hidentity := identity_of_declaredShape? hs
    cases ty with
    | closed name as =>
      cases as with
      | nil => exact absurd ho (Option.some_ne_none o).symm
      | cons a as =>
        obtain rfl := Option.some.inj ho
        exact .inr ⟨name, rfl, List.cons_ne_nil a as, hidentity⟩
    | generic name k => exact absurd ho (Option.some_ne_none o).symm
    | param p => exact absurd ho (Option.some_ne_none o).symm

theorem shapeFor?_of_declaredShape? (h : g.declaredShape? ty = some shape) :
    g.shapeFor? ty = some (shape, []) := by
  rw [shapeFor?, h]

/-- A closed type without a shape of its own has that of its definition. -/
theorem shapeFor?_closed {name : String} {k : UInt64}
    (hshape : g.declaredShape? (.generic name k) = some shape) (hk : 1 ≤ k.toNat)
    (hlen : args.length = k.toNat) (hown : g.declaredShape? (.closed name args) = none) :
    g.shapeFor? (.closed name args) = some (shape, args) := by
  have hopen : (TypeRef.closed name args).openDefinition = some (.generic name k) := by
    cases args with
    | nil => exact absurd hlen (Nat.ne_of_lt hk)
    | cons a as => rw [TypeRef.openDefinition, hlen, UInt64.ofNat_toNat]
  rw [shapeFor?, hown, hopen, Option.bind_some, hshape]
  rfl

end Shapes

/-! ## The graph of a list of registrations -/

section Build

variable (rs : List Registration) (shapes : List TypeShape)

/-- A node and the group of registrations that it stands for. -/
theorem mem_nodes_build {n : Node} (h : n ∈ (build rs shapes).nodes) :
    n.service ∈ servicesOf rs ∧ n.entries = entriesOf rs n.service ∧
      inForce? n.entries = some n.registration := by
  obtain ⟨i, hi, rfl⟩ := List.mem_mapIdx.1 h
  have hgroup : ∀ g ∈ effectiveGroups rs, g.1.service ∈ servicesOf rs ∧
      g.2 = entriesOf rs g.1.service ∧ inForce? g.2 = some g.1 := by
    intro g hg
    rw [effectiveGroups, List.mem_mergeSort, List.mem_filterMap] at hg
    obtain ⟨s, hs, hg⟩ := hg
    obtain ⟨r, hr, rfl⟩ := Option.map_eq_some_iff.1 hg
    obtain rfl : r.service = s := (mem_entriesOf.1 (mem_of_inForce? hr)).2
    exact ⟨hs, rfl, hr⟩
  exact hgroup _ (List.getElem_mem hi)

theorem registrations_build :
    (build rs shapes).nodes.map Node.registration = (effectiveGroups rs).map Prod.fst := by
  refine List.ext_getElem? (fun i => ?_)
  simp only [build, List.getElem?_map, List.getElem?_mapIdx, Option.map_map]
  rfl

theorem services_build_perm :
    ((build rs shapes).nodes.map Node.service).Perm (servicesOf rs) := by
  have hnodes : (build rs shapes).nodes.map Node.service =
      (effectiveGroups rs).map (fun g => g.1.service) := by
    have hservices := congrArg (List.map Registration.service) (registrations_build rs shapes)
    rwa [List.map_map, List.map_map] at hservices
  have hgroups : ((servicesOf rs).filterMap (fun s =>
      (inForce? (entriesOf rs s)).map (fun r => (r, entriesOf rs s)))).map (fun g => g.1.service) =
        servicesOf rs := by
    rw [List.map_filterMap]
    refine (List.filterMap_congr (fun s hs => ?_)).trans List.filterMap_some
    obtain ⟨r, hr, hs⟩ := exists_inForce?_entriesOf hs
    rw [hr]
    exact congrArg some hs
  rw [hnodes]
  exact ((List.mergeSort_perm _ _).map _).trans (List.Perm.of_eq hgroups)

theorem build_wellFormed : (build rs shapes).WellFormed where
  nodup := (services_build_perm rs shapes).nodup_iff.2 (nodup_servicesOf rs)
  entries_ne_nil n hn := by
    obtain ⟨-, -, hforce⟩ := mem_nodes_build rs shapes hn
    exact List.ne_nil_of_mem (mem_of_inForce? hforce)

theorem isSome_effective?_build {s : ServiceIdentity} :
    ((build rs shapes).effective? s).isSome ↔ ∃ r ∈ rs, r.service = s := by
  rw [isSome_effective?_iff, (services_build_perm rs shapes).mem_iff, mem_servicesOf]

theorem build_closed (h : ∀ r ∈ rs, r.service.isOpen = false) : (build rs shapes).Closed := by
  intro n hn
  obtain ⟨hmem, -, -⟩ := mem_nodes_build rs shapes hn
  obtain ⟨r, hr, hs⟩ := mem_servicesOf.1 hmem
  rw [Node.isOpen, ← hs]
  exact h r hr

end Build

/-! ## Registrations listed in order, each of another service -/

section InOrder

variable {rs : List Registration} (hnodup : (rs.map Registration.service).Nodup)

include hnodup

theorem servicesOf_eq_map : servicesOf rs = rs.map Registration.service := by
  rw [servicesOf]
  generalize rs.map Registration.service = ss at hnodup
  induction ss with
  | nil => rfl
  | cons s ss ih =>
    obtain ⟨hs, hss⟩ := List.nodup_cons.1 hnodup
    have hfilter : ss.filter (fun t => !t == s) = ss := by
      rw [List.filter_eq_self]
      intro t ht
      rw [Bool.not_eq_true', beq_eq_false_iff_ne]
      exact fun heq => hs (heq ▸ ht)
    rw [List.eraseDups_cons, hfilter, ih hss]

theorem entriesOf_eq_singleton {r : Registration} (hr : r ∈ rs) : entriesOf rs r.service = [r] := by
  have hfilter : rs.filter (fun r' => r'.service == r.service) = [r] := by
    induction rs with
    | nil => exact absurd hr List.not_mem_nil
    | cons r' rs ih =>
      rw [List.map_cons, List.nodup_cons] at hnodup
      rcases List.mem_cons.1 hr with rfl | hr
      · rw [List.filter_cons, if_pos (beq_self_eq_true _), List.filter_eq_nil_iff.2]
        intro r' hr' heq
        exact hnodup.1 (eq_of_beq heq ▸ List.mem_map_of_mem hr')
      · have hne : ¬ (r'.service == r.service) = true := by
          intro heq
          exact hnodup.1 (eq_of_beq heq ▸ List.mem_map_of_mem hr)
        rw [List.filter_cons, if_neg hne, ih hnodup.2 hr]
  rw [entriesOf, hfilter, List.mergeSort_singleton]

/-- None of them is without effect. -/
theorem nullifiedRegistrations_eq_nil : nullifiedRegistrations rs = [] := by
  have hnone : (servicesOf rs).flatMap (fun s => nullifiedAmong (entriesOf rs s)) = [] := by
    rw [List.flatMap_eq_nil_iff, servicesOf_eq_map hnodup]
    intro s hs
    obtain ⟨r, hr, rfl⟩ := List.mem_map.1 hs
    rw [entriesOf_eq_singleton hnodup hr]
    cases h : r.isConditional with
    | false => simp [nullifiedAmong, inForce?, inForceIx, lastUnconditional?, h]
    | true => simp [nullifiedAmong, inForce?, inForceIx, h]
  rw [nullifiedRegistrations, hnone, List.mergeSort_nil]

/-- They are the nodes of the graph. -/
theorem build_eq_of_declaredBefore
    (hsorted : rs.Pairwise (fun a b => declaredBefore (a, [a]) (b, [b])))
    (shapes : List TypeShape) : build rs shapes = ⟨rs.mapIdx (fun i r => ⟨i, r, [r]⟩), shapes⟩ := by
  have hgroups : (servicesOf rs).filterMap (fun s =>
      (inForce? (entriesOf rs s)).map (fun r => (r, entriesOf rs s))) =
        rs.map (fun r => (r, [r])) := by
    rw [servicesOf_eq_map hnodup, List.filterMap_map, ← List.filterMap_eq_map]
    refine List.filterMap_congr (fun r hr => ?_)
    rw [Function.comp, entriesOf_eq_singleton hnodup hr, inForce?_singleton]
    rfl
  have horder : (rs.map (fun r => (r, [r]))).Pairwise (fun a b => declaredBefore a b) :=
    List.pairwise_map.2 hsorted
  rw [build, effectiveGroups, hgroups, List.mergeSort_of_pairwise horder]
  congr 1
  refine List.ext_getElem? (fun i => ?_)
  simp only [List.getElem?_mapIdx, List.getElem?_map, Option.map_map]
  rfl

/-- Where the indices ascend, services are not compared. -/
theorem build_eq_of_inOrder (hsorted : rs.Pairwise (fun a b => a.insertionIndex < b.insertionIndex))
    (shapes : List TypeShape) : build rs shapes = ⟨rs.mapIdx (fun i r => ⟨i, r, [r]⟩), shapes⟩ := by
  refine build_eq_of_declaredBefore hnodup (hsorted.imp (fun hlt => ?_)) shapes
  rw [declaredBefore, Std.compare_eq_lt.2 hlt]
  rfl

end InOrder

theorem build_singleton (r : Registration) (shapes : List TypeShape) :
    build [r] shapes = ⟨[⟨0, r, [r]⟩], shapes⟩ := by
  have hnodup : ([r].map Registration.service).Nodup := List.pairwise_singleton _ _
  exact build_eq_of_inOrder hnodup (List.pairwise_singleton _ _) shapes

end Graph

end Wiring
