import Mathlib.Data.List.Nodup
import Std.Data.String.ToNat
import Wiring.Proofs.Resolvability.Exact

/-!
# The limit has to leave room for all nodes

One node more than the limit is enough for a root to be missed, even if the missing service is only
a few steps away. The root asks first for a service from which a way leads through all others, and
then for one near the end of that way. The limit stops the walk just before the end, and from then
on the service near the end counts as walked.
-/

namespace Wiring

namespace Resolvability

namespace Detour

/-! ## The registrations -/

/-- The type that has the number for its name. -/
def numbered (i : Nat) : TypeRef :=
  .closed (toString i) []

/-- The constructor parameters: the way goes up by one from `1` to `m + 1`, which is missing.
Besides, `0` asks for `m - 1`, and the services before that one ask for an earlier service. -/
def params (m i : Nat) : List Nat :=
  if i = 0 then [1, m - 1]
  else if i = 1 then [0, 2]
  else if i < m - 1 then [1, i + 1]
  else [i + 1]

/-- Each number up to `m` is registered on its own line. -/
def registrations (m : Nat) : List Registration :=
  (List.range (m + 1)).map (fun i => asItself (numbered i) (UInt32.ofNat (i + 1)))

/-- The shapes of the registered types. -/
def shapes (m : Nat) : List TypeShape :=
  (List.range (m + 1)).map (fun i => constructedFrom (numbered i) ((params m i).map numbered))

/-- The graph of the registrations. -/
def graph (m : Nat) : Graph :=
  .build (registrations m) (shapes m)

/-- The service that has the number for its name. -/
def service (i : Nat) : ServiceIdentity :=
  .of (numbered i)

/-- The node of the service. -/
def node (i : Nat) : Node :=
  let r := asItself (numbered i) (UInt32.ofNat (i + 1))
  ⟨i, r, [r]⟩

theorem numbered_injective : Function.Injective numbered := by
  intro i j h
  have hname : toString i = toString j := (TypeRef.closed.inj h).1
  rw [Nat.toString_eq_repr, Nat.toString_eq_repr] at hname
  exact Nat.repr_injective hname

theorem service_injective : Function.Injective service := by
  intro i j h
  exact numbered_injective (ServiceIdentity.mk.inj h).1

theorem mem_registrations_iff {m : Nat} {s : ServiceIdentity} :
    (∃ r ∈ registrations m, r.service = s) ↔ ∃ i ≤ m, service i = s := by
  simp only [registrations, List.mem_map, List.mem_range, Nat.lt_succ_iff]
  constructor
  · rintro ⟨_, ⟨i, hi, rfl⟩, rfl⟩
    exact ⟨i, hi, rfl⟩
  · rintro ⟨i, hi, rfl⟩
    exact ⟨_, ⟨i, hi, rfl⟩, rfl⟩

theorem isOpen_registrations {m : Nat} : ∀ r ∈ registrations m, r.service.isOpen = false := by
  intro r hr
  obtain ⟨i, -, rfl⟩ := List.mem_map.1 hr
  rfl

theorem graph_closed (m : Nat) : (graph m).Closed :=
  Graph.build_closed _ _ isOpen_registrations

section Graph

variable {m : Nat} (hm : m ≤ maxDepth)

include hm

/-- The lines are in order, since so few lines have different numbers. -/
theorem nodes_graph : (graph m).nodes = (List.range (m + 1)).map node := by
  have hnodup : ((registrations m).map Registration.service).Nodup := by
    rw [registrations, List.map_map]
    exact List.nodup_range.map service_injective
  have hsorted : (registrations m).Pairwise (fun a b => a.insertionIndex < b.insertionIndex) := by
    rw [registrations, List.pairwise_map]
    refine List.pairwise_lt_range.imp_of_mem ?_
    intro i j hi hj hlt
    rw [List.mem_range] at hi hj
    rw [maxDepth] at hm
    rw [UInt64.lt_iff_toNat_lt]
    simp only [asItself, UInt32.toNat_toUInt64, UInt32.toNat_ofNat']
    omega
  rw [graph, Graph.build_eq_of_inOrder hnodup hsorted]
  refine List.ext_getElem? (fun i => ?_)
  simp only [registrations, List.getElem?_mapIdx, List.getElem?_map, Option.map_map]
  by_cases hi : i < m + 1
  · rw [List.getElem?_range hi]
    rfl
  · rw [List.getElem?_eq_none (by rw [List.length_range]; omega)]
    rfl

theorem effective?_graph {i : Nat} (hi : i ≤ m) :
    (graph m).effective? (service i) = some (node i) := by
  have hmem : node i ∈ (graph m).nodes := by
    rw [nodes_graph hm]
    exact List.mem_map_of_mem (List.mem_range.2 (Nat.lt_succ_of_le hi))
  exact (Graph.build_wellFormed _ _).effective?_service hmem

theorem resolveTarget?_graph {i : Nat} (hi : i ≤ m) :
    (graph m).resolveTarget? (service i) = some ⟨node i, []⟩ := by
  rw [(graph_closed m).resolveTarget?_eq, effective?_graph hm hi]
  rfl

omit hm in
theorem dependenciesOf?_graph {i : Nat} (hi : i ≤ m) :
    (graph m).dependenciesOf? (node i) [] =
      some ((params m i).map (fun j => .require (numbered j))) := by
  have hfind : (List.range (m + 1)).find? (fun j => numbered j == numbered i) = some i := by
    rw [List.find?_range_eq_some]
    refine ⟨beq_self_eq_true _, List.mem_range.2 (Nat.lt_succ_of_le hi), fun j hj => ?_⟩
    rw [Bool.not_eq_true', beq_eq_false_iff_ne]
    exact fun heq => Nat.ne_of_lt hj (numbered_injective heq)
  have hshape : (graph m).declaredShape? (numbered i) =
      some (constructedFrom (numbered i) ((params m i).map numbered)) := by
    have heq : ∀ j, ((fun s : TypeShape => s.identity == numbered i) ∘
        fun i => constructedFrom (numbered i) ((params m i).map numbered)) j =
          (numbered j == numbered i) := fun j => rfl
    rw [Graph.declaredShape?, graph, Graph.build, shapes, List.find?_map, funext heq, hfind]
    rfl
  have hdeps : (constructedFrom (numbered i) ((params m i).map numbered)).dependencies =
      (params m i).map (fun j => .require (numbered j)) := by
    rw [constructedFrom, List.map_map]
    rfl
  rw [← hdeps]
  simp only [Graph.dependenciesOf?, node, asItself, Graph.shapeFor?, hshape, Option.map_some]
  rfl

end Graph

/-! ## The walk of the first root -/

/-- The walk does not enter the service again. -/
def Knows (c : Cache) (s : ServiceIdentity) : Prop :=
  s ∈ c.resolved ∨ s ∈ c.walked

section Walk

variable {g : Graph} {fw : FrameworkServices} {p : Path} {s : ServiceIdentity} {c : Cache}

theorem chain_expand_of_knows (room : Nat) (h : Knows c s) :
    (expand g fw room p s c).1.chain = none := by
  by_cases hr : s ∈ c.resolved
  · rw [expand_of_mem_resolved hr]
    rfl
  · obtain ⟨_, heq⟩ := expand_of_walked room hr (h.resolve_left hr)
    rw [heq]

/-- Where the visits below find nothing missing, the service becomes known and all that was known
stays so. -/
theorem knows_expand {room : Nat} {t : Target} {ds : List Dependency} (harr : Arrives g p s c t)
    (he : expandable? g t = some ds)
    (hnone : (visitBelow g fw room p s t.node ds c).1.chain = none) :
    (expand g fw (room + 1) p s c).1.chain = none ∧ Knows (expand g fw (room + 1) p s c).2 s ∧
      ∀ x, Knows (visitBelow g fw room p s t.node ds c).2 x →
        Knows (expand g fw (room + 1) p s c).2 x := by
  rw [expand_eq_of_arrives harr he]
  simp only [hnone, Option.isSome_none, Bool.false_eq_true, if_false]
  split
  · refine ⟨rfl, .inl List.mem_cons_self, fun x hx => ?_⟩
    rcases hx with hx | hx
    · exact .inl (List.mem_cons_of_mem _ hx)
    · exact .inr hx
  · refine ⟨hnone, .inr List.mem_cons_self, fun x hx => ?_⟩
    rcases hx with hx | hx
    · exact .inl hx
    · exact .inr (List.mem_cons_of_mem _ hx)

/-- The visit of a plain parameter that is on the path. -/
theorem visitDependency_onPath {below : ServiceIdentity → Cache → Visit × Cache} {j : Nat}
    (h : service j ∈ Path.services p) :
    ∃ depth, visitDependency g fw p below (.require (numbered j)) c = (.cutAt depth, c) := by
  obtain ⟨depth, hdepth⟩ := Option.ne_none_iff_exists'.1
    (fun hnone => Path.position?_eq_none_iff.1 hnone h)
  refine ⟨depth, ?_⟩
  have heq : p.position? (Dependency.require (numbered j)).required = some depth := hdepth
  simp only [visitDependency, heq]
  rfl

/-- The visit of a plain parameter that is registered and not on the path. -/
theorem visitDependency_registered {below : ServiceIdentity → Cache → Visit × Cache} {j : Nat}
    (h : service j ∉ Path.services p) (ht : (g.resolveTarget? (service j)).isSome) :
    visitDependency g fw p below (.require (numbered j)) c = below (service j) c := by
  have heq : p.position? (Dependency.require (numbered j)).required = none :=
    Path.position?_eq_none_iff.2 h
  have ht : (g.resolveTarget? (Dependency.require (numbered j)).required).isSome := ht
  simp only [visitDependency, heq, if_pos ht]
  rfl

theorem chain_expand_zero : (expand g fw 0 p s c).1.chain = none := by
  have hx := expand_expands g fw 0 p s c
  generalize expand g fw 0 p s c = r at hx
  cases hx with
  | known _ | walkedBefore _ _ | unregistered _ _ _ | widened _ _ _ _ | leaf _ _
  | tooDeep _ _ => rfl

theorem visitAll_single {visit : Dependency → Cache → Visit × Cache} {d : Dependency}
    (h : (visit d c).1.chain = none) : (visitAll visit [d] c).1.chain = none := by
  simp [visitAll, h, Visit.andThen, Visit.resolved]

theorem visitAll_pair {visit : Dependency → Cache → Visit × Cache} {d₁ d₂ : Dependency}
    (h₁ : (visit d₁ c).1.chain = none) (h₂ : (visit d₂ (visit d₁ c).2).1.chain = none) :
    (visitAll visit [d₁, d₂] c).1.chain = none ∧
      (visitAll visit [d₁, d₂] c).2 = (visit d₂ (visit d₁ c).2).2 := by
  simp [visitAll, h₁, h₂, Visit.andThen, Visit.resolved]

end Walk

theorem params_last {m : Nat} (h3 : 3 ≤ m) : params m (m - 1) = [m] := by
  rw [params, if_neg (by omega), if_neg (by omega), if_neg (by omega)]
  congr
  omega

theorem params_middle {m i : Nat} (h1 : 1 ≤ i) (hi : i < m - 1) :
    ∃ back < i, params m i = [back, i + 1] := by
  by_cases h : i = 1
  · subst h
    exact ⟨0, Nat.zero_lt_one, rfl⟩
  · refine ⟨1, by omega, ?_⟩
    rw [params, if_neg (by omega), if_neg h, if_pos hi]

section Way

variable {m : Nat} (hm : m ≤ maxDepth) {fw : FrameworkServices} {p : Path} {c : Cache} {i : Nat}

include hm

theorem arrives_graph (hi : i ≤ m) (hc : c.resolved = [] ∧ c.finished = []) :
    Arrives (graph m) p (service i) c ⟨node i, []⟩ where
  not_resolved := hc.1 ▸ List.not_mem_nil
  not_finished := hc.2 ▸ rfl
  target := resolveTarget?_graph hm hi
  not_widened := rfl

omit hm in
theorem expandable?_graph (hi : i ≤ m) : expandable? (graph m) ⟨node i, []⟩ =
    some ((params m i).map (fun j => .require (numbered j))) :=
  expandable?_eq_some_iff.2 ⟨rfl, dependenciesOf?_graph hi⟩

omit hm in
theorem mem_services_iff {n j : Nat} (hp : Path.services p = (List.range n).map service) :
    service j ∈ Path.services p ↔ j < n := by
  rw [hp, List.mem_map_of_injective service_injective, List.mem_range]

omit hm in
theorem services_step (hp : Path.services p = (List.range i).map service) :
    Path.services (p ++ [(service i, node i)]) = (List.range (i + 1)).map service := by
  rw [Path.services_concat, hp, List.range_succ, List.map_append]
  rfl

theorem isSome_resolveTarget?_graph (hi : i ≤ m) :
    ((graph m).resolveTarget? (service i)).isSome := by
  rw [resolveTarget?_graph hm hi]
  rfl

/-- On the way every earlier service is on the path, so the walk only goes on, and the limit stops
it before it can see that `m + 1` is missing. By induction on the room, which is what is left of the
way. -/
theorem expand_way (h3 : 3 ≤ m) {room : Nat} (hroom : i + (room + 1) = m) (h1 : 1 ≤ i)
    (hp : Path.services p = (List.range i).map service)
    (hc : c.resolved = [] ∧ c.finished = []) :
    (expand (graph m) fw (room + 1) p (service i) c).1.chain = none ∧
      Knows (expand (graph m) fw (room + 1) p (service i) c).2 (service (m - 1)) := by
  have hi : i ≤ m := by omega
  have hstep := services_step hp
  induction room generalizing i p c with
  | zero =>
    -- the last service that there is room for; it asks for one more
    obtain rfl : i = m - 1 := by omega
    have hbelow : (visitBelow (graph m) fw 0 p (service (m - 1)) (node (m - 1))
        ((params m (m - 1)).map (fun j => .require (numbered j))) c).1.chain = none := by
      rw [params_last h3]
      refine visitAll_single ?_
      rw [visitDependency_registered _ (isSome_resolveTarget?_graph hm (Nat.le_refl m))]
      · exact chain_expand_zero
      · rw [mem_services_iff hstep]
        omega
    obtain ⟨hnone, hknows, -⟩ := knows_expand (arrives_graph hm hi hc) (expandable?_graph hi) hbelow
    exact ⟨hnone, hknows⟩
  | succ room ih =>
    obtain ⟨back, hback, hparams⟩ := params_middle (m := m) h1 (by omega)
    let visit := visitDependency (graph m) fw (p ++ [(service i, node i)])
      (expand (graph m) fw (room + 1) (p ++ [(service i, node i)]))
    let start := c.enter (service i)
    -- the first parameter is behind on the path, and the second goes on along the way
    have hnext := ih (c := start) (by omega) (by omega) hstep hc (by omega) (services_step hstep)
    obtain ⟨depth, hcut⟩ :
        ∃ depth, visit (.require (numbered back)) start = (.cutAt depth, start) :=
      visitDependency_onPath ((mem_services_iff hstep).2 (Nat.lt_succ_of_lt hback))
    have henter : visit (.require (numbered (i + 1))) start =
        expand (graph m) fw (room + 1) _ (service (i + 1)) start :=
      visitDependency_registered (mt (mem_services_iff hstep).1 (Nat.lt_irrefl _))
        (isSome_resolveTarget?_graph hm (by omega))
    have hpair := visitAll_pair (c := start) (congrArg (·.1.chain) hcut)
      (by rw [hcut, henter]; exact hnext.1)
    have hbelow : visitBelow (graph m) fw (room + 1) p (service i) (node i)
        ((params m i).map (fun j => .require (numbered j))) c =
          visitAll visit [.require (numbered back), .require (numbered (i + 1))] start := by
      rw [hparams]
      rfl
    obtain ⟨hnone, -, hkeep⟩ := knows_expand (arrives_graph hm hi hc) (expandable?_graph hi)
      (by rw [hbelow]; exact hpair.1)
    refine ⟨hnone, hkeep _ ?_⟩
    rw [hbelow, hpair.2, hcut, henter]
    exact hnext.2

/-- The walk of `0` comes back from the way with nothing found and then takes the service near its
end for walked. -/
theorem expand_root (h3 : 3 ≤ m) :
    (expand (graph m) fw m [] (service 0) (.start [])).1.chain = none := by
  obtain ⟨room, rfl⟩ : ∃ room, m = room + 2 := ⟨m - 2, by omega⟩
  let below := expand (graph (room + 2)) fw (room + 1) [(service 0, node 0)]
  let visit := visitDependency (graph (room + 2)) fw [(service 0, node 0)] below
  let start := (Cache.start []).enter (service 0)
  have hstep : Path.services [(service 0, node 0)] = (List.range 1).map service := rfl
  have henter : ∀ j, 1 ≤ j → j ≤ room + 2 → ∀ c,
      visit (.require (numbered j)) c = below (service j) c := by
    intro j h1 hj c
    exact visitDependency_registered (mt (mem_services_iff hstep).1 (Nat.not_lt_of_le h1))
      (isSome_resolveTarget?_graph hm hj)
  have hway : (below (service 1) start).1.chain = none ∧
      Knows (below (service 1) start).2 (service (room + 1)) :=
    expand_way hm h3 (Nat.add_comm 1 (room + 1)) (Nat.le_refl 1) hstep ⟨rfl, rfl⟩
  have hfirst : (visit (.require (numbered 1)) start).1.chain = none := by
    rw [henter 1 (Nat.le_refl 1) (by omega)]
    exact hway.1
  have hsecond : (visit (.require (numbered (room + 1)))
      (visit (.require (numbered 1)) start).2).1.chain = none := by
    rw [henter 1 (Nat.le_refl 1) (by omega), henter (room + 1) (by omega) (by omega)]
    exact chain_expand_of_knows _ hway.2
  have hbelow : (visitBelow (graph (room + 2)) fw (room + 1) [] (service 0) (node 0)
      ((params (room + 2) 0).map (fun j => .require (numbered j))) (.start [])).1.chain = none :=
    (visitAll_pair hfirst hsecond).1
  have hzero : 0 ≤ room + 2 := Nat.zero_le _
  exact (knows_expand (arrives_graph hm hzero ⟨rfl, rfl⟩) (expandable?_graph hzero) hbelow).1

end Way

/-! ## The root is missed -/

section Missed

variable {m : Nat} (hm : m ≤ maxDepth) (h3 : 3 ≤ m)

include hm

theorem requires_graph {i j : Nat} (hi : i ≤ m) (hj : j ∈ params m i) :
    Requires (graph m) (service i) (.require (numbered j)) :=
  ⟨node i, _, effective?_graph hm hi, rfl, dependenciesOf?_graph hi, List.mem_map_of_mem hj, rfl,
    rfl⟩

include h3

/-- The short way from `0` to the missing service. -/
theorem brokenChain_root {fw : FrameworkServices} (hfw : fw.contains (service (m + 1)) = false) :
    BrokenChain (graph m) fw [service 0, service (m - 1), service m, service (m + 1)] := by
  have hlast : m + 1 ∈ params m m := by
    rw [params, if_neg (by omega), if_neg (by omega), if_neg (by omega)]
    exact List.mem_singleton_self _
  have hbefore : m ∈ params m (m - 1) := by
    rw [params_last h3]
    exact List.mem_singleton_self _
  have hfirst : m - 1 ∈ params m 0 := List.mem_cons_of_mem _ List.mem_cons_self
  have hfree : ∀ r ∈ registrations m, r.service ≠ service (m + 1) := by
    intro r hr heq
    obtain ⟨i, hi, hs⟩ := mem_registrations_iff.1 ⟨r, hr, heq⟩
    exact absurd (service_injective hs) (by omega)
  have hneeds {i j : Nat} (hi : i ≤ m) (hj : j ∈ params m i) :
      Needs (graph m) (service i) (.require (numbered j)) :=
    (needs_iff_requires (graph_closed m)).2 (requires_graph hm hi hj)
  have hend : BrokenChain (graph m) fw [service m, service (m + 1)] :=
    .last (hneeds (Nat.le_refl m) hlast) ((missing_iff (graph_closed m)).2 ⟨hfree, hfw⟩)
  have hnear : BrokenChain (graph m) fw [service (m - 1), service m, service (m + 1)] :=
    .cons (hneeds (Nat.sub_le m 1) hbefore) rfl hend
  exact .cons (hneeds (Nat.zero_le m) hfirst) rfl hnear

theorem reachesMissing_root {fw : FrameworkServices} (hfw : fw.contains (service (m + 1)) = false) :
    ReachesMissing (registrations m) (shapes m) fw (service 0) :=
  (broken_iff_reachesMissing (graph_closed m)).1 (brokenChain_root hm h3 hfw).broken

omit h3 in
theorem nodes_graph_eq_cons :
    (graph m).nodes = node 0 :: (List.range m).map (fun i => node (i + 1)) := by
  rw [nodes_graph hm, List.range_succ_eq_map, List.map_cons, List.map_map]
  rfl

/-- The nodes that are reported come after the root. -/
theorem brokenFrom_graph {fw : FrameworkServices} {e : Node × List ServiceIdentity}
    (he : e ∈ brokenFrom (graph m) fw m [] (graph m).nodes) :
    ∃ i, 1 ≤ i ∧ i ≤ m ∧ e.1 = node i := by
  have hroot : isRoot (node 0) := rfl
  rw [nodes_graph_eq_cons hm, brokenFrom, if_pos hroot] at he
  simp only [show (node 0).service = service 0 from rfl, expand_root hm h3] at he
  have hmem := (brokenFrom_sublist _ _ _).subset (List.mem_map_of_mem (f := Prod.fst) he)
  obtain ⟨i, hi, heq⟩ := List.mem_map.1 hmem
  exact ⟨i + 1, Nat.le_add_left _ _, List.mem_range.1 hi, heq.symm⟩

omit hm h3 in
/-- Where the findings are exact, there is one at the place of each node that reaches a missing
service. -/
theorem exists_primary_eq {rs : List Registration} {shapes : List TypeShape}
    {fw : FrameworkServices} {ds : List Diagnostic} (h : ReportsExactly rs shapes fw ds) {n : Node}
    (hn : n ∈ (Graph.build rs shapes).nodes) (htype : n.registration.implementation.isType)
    (hreach : ReachesMissing rs shapes fw n.service) :
    ∃ d ∈ ds, d.primary = n.registration.location := by
  obtain ⟨roots, -, hiff, hreports⟩ := h
  have hroot : n ∈ roots := (hiff n hn).2 ⟨htype, hreach⟩
  clear hiff
  induction hreports with
  | nil => exact absurd hroot List.not_mem_nil
  | cons hd _ ih =>
    rcases List.mem_cons.1 hroot with rfl | hroot
    · obtain ⟨chain, -, rfl⟩ := hd
      exact ⟨_, List.mem_cons_self, rfl⟩
    · obtain ⟨d, hd, hprimary⟩ := ih hroot
      exact ⟨d, List.mem_cons_of_mem _ hd, hprimary⟩

/-- The root would be reported on the first line, and all that is reported is further down. -/
theorem not_reportsExactly_findings {fw : FrameworkServices} {limit : Nat}
    (hlimit : clampDepth limit = m) (hfw : fw.contains (service (m + 1)) = false) :
    ¬ ReportsExactly (registrations m) (shapes m) fw (findings (graph m) fw limit) := by
  intro h
  have hroot : node 0 ∈ (graph m).nodes := by
    rw [nodes_graph hm]
    exact List.mem_map_of_mem (List.mem_range.2 (Nat.succ_pos m))
  obtain ⟨d, hd, hprimary⟩ := exists_primary_eq h hroot rfl (reachesMissing_root hm h3 hfw)
  rw [findings, hlimit, findingsFrom_eq_map] at hd
  obtain ⟨e, he, rfl⟩ := List.mem_map.1 hd
  obtain ⟨i, h1, hi, hnode⟩ := brokenFrom_graph hm h3 he
  have hplace : (node i).registration.location = (node 0).registration.location := by
    rw [← hnode]
    exact hprimary
  have hline : (UInt32.ofNat (i + 1)).toNat = (UInt32.ofNat (0 + 1)).toNat :=
    congrArg (fun l : Location => l.line.toNat) hplace
  rw [UInt32.toNat_ofNat', UInt32.toNat_ofNat'] at hline
  rw [maxDepth] at hm
  omega

end Missed

end Detour

/-- A limit above the greatest one is taken for that, so it leaves no room for 1025 nodes though it
is not less than their number: a root is missed that asks for a service from which the missing one
is two steps away. -/
theorem findings_inexact_above_maxDepth :
    (∀ r ∈ Detour.registrations 1024, r.service.isOpen = false) ∧
      (Graph.build (Detour.registrations 1024) (Detour.shapes 1024)).nodes.length ≤ 1025 ∧
      ∃ ds, check (.build (Detour.registrations 1024) (Detour.shapes 1024)) .disabled 1025 false =
          .ok ds ∧
        ¬ ReportsExactly (Detour.registrations 1024) (Detour.shapes 1024) .disabled ds := by
  have hm : 1024 ≤ maxDepth := Nat.le_refl _
  have hlength : (Graph.build (Detour.registrations 1024) (Detour.shapes 1024)).nodes.length =
      1025 := by
    rw [← Detour.graph, Detour.nodes_graph hm, List.length_map, List.length_range]
  exact ⟨Detour.isOpen_registrations, Nat.le_of_eq hlength, _, rfl,
    Detour.not_reportsExactly_findings hm (by decide) rfl rfl⟩

end Resolvability

end Wiring
