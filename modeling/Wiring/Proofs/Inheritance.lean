import Wiring.Proofs.Captive
import Wiring.Proofs.Substitution

/-!
# What closed types inherit from a captive dependency of their definition

The check looks at the dependencies of a generic definition as they are declared, over its
parameters, and says that every closed instantiation inherits what it reports. A closed
instantiation asks for the dependency over its own arguments, and a registration of exactly that
service comes before the one of the definition. This module shows which node satisfies the closed
dependency, and so which instantiations inherit the report.

Results:
1. `Graph.provider?_closed`: a dependency that goes to a definition goes there over all arguments,
   unless it has a registration of its own.
2. `Captive.inherited_iff`: a closed instantiation inherits the report exactly if its dependency has
   no registration of its own that lives as long.
3. `Captive.specialised_not_inherited`: with such a registration it does not.
4. `Captive.registered_parameter_not_inherited`, `Captive.closed_implementation_not_inherited`: nor
   need it do so where the dependency does not go to a definition, or goes to another one.
-/

namespace Wiring

namespace Graph

/-! ## The node that satisfies a request -/

/-- The node that satisfies a request. -/
def provider? (g : Graph) (s : ServiceIdentity) : Option Node :=
  (g.resolveTarget? s).map Target.node

theorem provider?_eq (g : Graph) (s : ServiceIdentity) :
    g.provider? s = (g.effective? s).or (s.openDefinition.bind g.effective?) := by
  unfold provider? resolveTarget?
  cases g.effective? s with
  | some n => rfl
  | none =>
    rw [Option.map_map, Option.none_or]
    exact Option.map_id'

theorem provider?_eq_or {g : Graph} {s : ServiceIdentity} {m : Node} (h : g.provider? s = some m) :
    g.provider? s = (g.effective? s).or (some m) := by
  rw [provider?_eq] at h ⊢
  cases hs : g.effective? s with
  | some n => rfl
  | none =>
    rw [hs] at h
    exact h

/-- A request that the node of a definition satisfies is satisfied by it over all arguments, unless
another node is registered for them. -/
theorem provider?_closed {g : Graph} {d : Dependency} {m : Node}
    (hm : g.provider? d.required = some m) (hnone : g.effective? d.required = none)
    (params : List String) (args : List TypeRef) :
    g.provider? (d.substitute params args).required =
      (g.effective? (d.substitute params args).required).or (some m) := by
  rw [provider?_eq, hnone, Option.none_or] at hm
  obtain ⟨o, ho, hm⟩ := Option.bind_eq_some_iff.1 hm
  obtain ⟨definition, hdefinition, rfl⟩ := Option.map_eq_some_iff.1 ho
  have hclosed : (d.substitute params args).required.openDefinition =
      some (d.required.withTy definition) := by
    show ((d.required.ty.substitute params args).openDefinition).map _ = _
    rw [TypeRef.openDefinition_substitute hdefinition]
    rfl
  rw [provider?_eq, hclosed, Option.bind_some, hm]

/-! ## The dependencies of a node, one by one -/

/-- The dependency of a node at a place, closed over type arguments. -/
def dependencyAt? (g : Graph) (n : Node) (args : List TypeRef) (i : Nat) : Option Dependency :=
  (g.dependenciesOf? n args).bind (fun ds => ds[i]?)

/-- A dependency of a type is what its shape declares at this place, with the parameters replaced by
the arguments, or by those of the implementation if there are none. -/
theorem dependencyAt?_eq {g : Graph} {n : Node} {ty : TypeRef} {form : TypeForm}
    (h : n.registration.implementation = .type ty form) (args : List TypeRef) (i : Nat) :
    g.dependencyAt? n args i = (g.shapeFor? ty).bind (fun s =>
      s.1.dependencies[i]?.map
        (Dependency.substitute s.1.typeParams (if args.isEmpty then s.2 else args))) := by
  unfold dependencyAt? dependenciesOf?
  rw [h]
  dsimp only
  cases g.shapeFor? ty with
  | none => rfl
  | some s =>
    rw [Option.map_some, Option.bind_some, Option.bind_some,
      TypeShape.dependenciesClosedOver_eq_map, List.getElem?_map]

section DependencyAt

variable {g : Graph} {n : Node} {ty : TypeRef} {form : TypeForm} {i : Nat} {d : Dependency}
  (himplementation : n.registration.implementation = .type ty form)
  (hd : g.dependencyAt? n [] i = some d)

include himplementation hd

theorem exists_dependencyAt? (args : List TypeRef) : ∃ d', g.dependencyAt? n args i = some d' := by
  rw [dependencyAt?_eq himplementation] at hd
  obtain ⟨s, hs, hd⟩ := Option.bind_eq_some_iff.1 hd
  obtain ⟨e, he, -⟩ := Option.map_eq_some_iff.1 hd
  rw [dependencyAt?_eq himplementation, hs, Option.bind_some, he]
  exact ⟨_, rfl⟩

/-- Where the implementation is a generic definition, its dependencies are those that the shape
declares, and over arguments they are closed by substitution. -/
theorem dependencyAt?_of_isOpen (hty : ty.isOpen = true) :
    ∃ params, ∀ args, g.dependencyAt? n args i = some (d.substitute params args) := by
  rw [dependencyAt?_eq himplementation] at hd
  obtain ⟨⟨shape, own⟩, hshape, hd⟩ := Option.bind_eq_some_iff.1 hd
  obtain ⟨e, he, hdeclared⟩ := Option.map_eq_some_iff.1 hd
  obtain rfl : own = [] := by
    rcases shapeFor?_cases hshape with ⟨-, hnil⟩ | ⟨name, rfl, -, -⟩
    · exact hnil
    · exact absurd hty Bool.false_ne_true
  obtain rfl : e = d := (e.substitute_eq_self TypeRef.lookup_nil_right).symm.trans hdeclared
  refine ⟨shape.typeParams, fun args => ?_⟩
  have hargs : (if args.isEmpty then [] else args) = args := by
    cases args <;> rfl
  rw [dependencyAt?_eq himplementation, hshape, Option.bind_some, he, Option.map_some, hargs]

end DependencyAt

end Graph

namespace Captive

/-! ## Reports and what they say of closed types -/

/-- The node that satisfies a dependency, if the first node outlives it. -/
def captured? (g : Graph) (n : Node) (d : Dependency) : Option Node :=
  (g.provider? d.required).filter (fun m => n.lifetime.captures m.lifetime)

theorem captured?_eq_some_iff {g : Graph} {n : Node} {d : Dependency} {m : Node} :
    captured? g n d = some m ↔
      g.provider? d.required = some m ∧ n.lifetime.captures m.lifetime = true := by
  rw [captured?, Option.filter_eq_some_iff]

theorem report_mem_findings {g : Graph} (hg : g.Numbered) {n : Node} (hn : n ∈ g.nodes) {i : Nat}
    {d : Dependency} {m : Node} (hd : g.dependencyAt? n [] i = some d)
    (hm : captured? g n d = some m) : report ⟨n, m, d⟩ ∈ findings g := by
  obtain ⟨ds, hds, hi⟩ := Option.bind_eq_some_iff.1 hd
  obtain ⟨hprovider, hcaptures⟩ := captured?_eq_some_iff.1 hm
  obtain ⟨t, ht, rfl⟩ := Option.map_eq_some_iff.1 hprovider
  have hrank : n.lifetime.rank < t.node.lifetime.rank := of_decide_eq_true hcaptures
  rw [findings_eq hg, List.mem_flatMap]
  refine ⟨n, hn, List.mem_map.2 ⟨(d, t.node), ?_, rfl⟩⟩
  rw [Graph.rankIncreases, hds, Option.getD_some, List.mem_filterMap]
  refine ⟨d, List.mem_of_getElem? hi, ?_⟩
  rw [ht, Option.bind_some, if_pos hrank]

/-- A dependency that is satisfied by its own registration, or else by a node that is captured, is
captured exactly if its own registration is. -/
theorem isSome_captured?_iff {g : Graph} {n m : Node} {d : Dependency}
    (hprovider : g.provider? d.required = (g.effective? d.required).or (some m))
    (hm : n.lifetime.captures m.lifetime = true) :
    (captured? g n d).isSome = true ↔
      ∀ m', g.effective? d.required = some m' → n.lifetime.captures m'.lifetime = true := by
  rw [captured?, hprovider]
  cases g.effective? d.required with
  | none => simp [hm]
  | some m' => simp

/-- What a report about a generic definition says of its closed instantiations. A dependency that is
satisfied by a node that the definition outlives is reported. Over any arguments there is that
dependency as well, closed over them. Let it be the same request, or let the implementation be a
generic definition and the declared request have no registration of its own. Then the closed
instantiation inherits the report exactly if it outlives every registration that is made for the
closed request itself. -/
theorem inherited_iff (rs : List Registration) (shapes : List TypeShape) {n : Node}
    (hn : n ∈ (Graph.build rs shapes).nodes) (hopen : n.isOpen = true) {ty : TypeRef}
    {form : TypeForm} (himplementation : n.registration.implementation = .type ty form) {i : Nat}
    {d : Dependency} {m : Node} (hd : (Graph.build rs shapes).dependencyAt? n [] i = some d)
    (hm : captured? (Graph.build rs shapes) n d = some m) :
    let g := Graph.build rs shapes
    check g false = .ok (findings g) ∧ report ⟨n, m, d⟩ ∈ findings g ∧
    (report ⟨n, m, d⟩).rule = .openGenericCaptiveDependency ∧
    ∀ args : List TypeRef, ∃ d', g.dependencyAt? n args i = some d' ∧
      (d'.required = d.required ∨ ty.isOpen = true ∧ g.effective? d.required = none →
        ((captured? g n d').isSome = true ↔
          ∀ m', g.effective? d'.required = some m' → n.lifetime.captures m'.lifetime = true)) := by
  intro g
  obtain ⟨hprovider, hcaptures⟩ := captured?_eq_some_iff.1 hm
  refine ⟨rfl, report_mem_findings (Graph.build_numbered rs shapes) hn hd hm,
    (rule_report _).trans (if_pos hopen), fun args => ?_⟩
  obtain ⟨d', hd'⟩ := Graph.exists_dependencyAt? himplementation hd args
  refine ⟨d', hd', ?_⟩
  rintro (hsame | ⟨hty, hnone⟩)
  · refine isSome_captured?_iff ?_ hcaptures
    rw [hsame]
    exact Graph.provider?_eq_or hprovider
  · obtain ⟨params, hclosed⟩ := Graph.dependencyAt?_of_isOpen himplementation hd hty
    obtain rfl : d.substitute params args = d' := Option.some.inj ((hclosed args).symm.trans hd')
    exact isSome_captured?_iff (Graph.provider?_closed hprovider hnone params args) hcaptures

/-- A registration in the given line. -/
def registering (lifetime : Lifetime) (service implementation : TypeRef) (line : UInt32) :
    Registration :=
  ⟨.of service, .type implementation .genericArguments, lifetime, ⟨"Startup", line, 0⟩,
    line.toUInt64, false⟩

/-- A generic cache, which lives on, the serializers that it asks for, which do not, and one that is
made for users and lives on as well. -/
def cached : List Registration :=
  [registering .singleton (.generic "ICache" 1) (.generic "Cache" 1) 1,
    registering .transient (.generic "ISerializer" 1) (.generic "Serializer" 1) 2,
    registering .singleton (.closed "ISerializer" [.closed "User" []]) (.closed "Users" []) 3]

/-- The shape of the cache. -/
def cacheShape : TypeShape :=
  (TypeShape.ofDefinition "Cache" ["T"]).dependsOn (.require (.closed "ISerializer" [.param "T"]))

theorem build_cached : Graph.build cached [cacheShape] =
    ⟨cached.mapIdx (fun i r => ⟨i, r, [r]⟩), [cacheShape]⟩ := by
  have hnodup : (cached.map Registration.service).Nodup := by decide
  exact Graph.build_eq_of_inOrder hnodup (by decide) _

/-- The cache of orders gets a transient serializer, as the report about the generic cache says. -/
theorem inherited_by_orders :
    let g := Graph.build cached [cacheShape]
    let declared : Dependency := .require (.closed "ISerializer" [.param "T"])
    let closed : Dependency := .require (.closed "ISerializer" [.closed "Order" []])
    ∃ n ∈ g.nodes, n.isOpen = true ∧ g.dependencyAt? n [] 0 = some declared ∧
      g.dependencyAt? n [.closed "Order" []] 0 = some closed ∧
      ∃ m, captured? g n declared = some m ∧ report ⟨n, m, declared⟩ ∈ findings g ∧
        (captured? g n closed).isSome = true := by
  intro g declared closed
  obtain ⟨n, hn, hopen, himplementation, hd, hd', hnone, hnone', m, hm⟩ : ∃ n ∈ g.nodes,
      n.isOpen = true ∧
      n.registration.implementation = .type (.generic "Cache" 1) .genericArguments ∧
      g.dependencyAt? n [] 0 = some declared ∧
      g.dependencyAt? n [.closed "Order" []] 0 = some closed ∧
      g.effective? declared.required = none ∧ g.effective? closed.required = none ∧
      ∃ m, captured? g n declared = some m := by
    unfold g
    rw [build_cached]
    exact ⟨_, List.mem_cons_self, rfl, rfl, rfl, rfl, rfl, rfl, _, rfl⟩
  obtain ⟨-, hreport, -, hclosed⟩ :=
    inherited_iff cached [cacheShape] hn hopen himplementation hd hm
  obtain ⟨d, heq, hinherited⟩ := hclosed [.closed "Order" []]
  obtain rfl : closed = d := Option.some.inj (hd'.symm.trans heq)
  refine ⟨n, hn, hopen, hd, hd', m, hm, hreport, (hinherited (.inr ⟨rfl, hnone⟩)).2 ?_⟩
  intro m' hm'
  exact absurd (hnone'.symm.trans hm') (Option.some_ne_none m').symm

/-- The report about the generic cache does not hold of the cache of users, which gets a serializer
that lives as long. -/
theorem specialised_not_inherited :
    let g := Graph.build cached [cacheShape]
    ∃ n ∈ g.nodes, n.isOpen = true ∧ ∃ d m d', g.dependencyAt? n [] 0 = some d ∧
      captured? g n d = some m ∧ check g false = .ok [report ⟨n, m, d⟩] ∧
      (report ⟨n, m, d⟩).rule = .openGenericCaptiveDependency ∧
      g.dependencyAt? n [.closed "User" []] 0 = some d' ∧ captured? g n d' = none := by
  rw [build_cached]
  exact ⟨_, List.mem_cons_self, rfl, _, _, _, rfl, rfl, rfl, rfl, rfl, rfl⟩

/-- A dependency that is registered as it is declared, over the parameter, is satisfied by nothing
over an argument. -/
theorem registered_parameter_not_inherited :
    let rs := [registering .singleton (.generic "ICache" 1) (.generic "Cache" 1) 1,
      registering .transient (.closed "ISerializer" [.param "T"]) (.closed "Serializer" []) 2]
    let g := Graph.build rs [cacheShape]
    ∃ n ∈ g.nodes, n.isOpen = true ∧ ∃ d m d', g.dependencyAt? n [] 0 = some d ∧
      captured? g n d = some m ∧ g.dependencyAt? n [.closed "User" []] 0 = some d' ∧
      captured? g n d' = none := by
  intro rs g
  have hnodup : (rs.map Registration.service).Nodup := by decide
  unfold g
  rw [Graph.build_eq_of_inOrder hnodup (by decide)]
  exact ⟨_, List.mem_cons_self, rfl, _, _, _, rfl, rfl, rfl, rfl⟩

/-- Where a closed type implements a definition, its own arguments can lead to another definition
than those of the service. -/
theorem closed_implementation_not_inherited :
    let queue : TypeRef := .closed "Queue" [.closed "User" []]
    let rs := [registering .singleton (.generic "ICache" 1) (.closed "Cache" [queue]) 1,
      registering .transient (.generic "Queue" 1) (.generic "Queue" 1) 2]
    let g := Graph.build rs
      [(TypeShape.ofDefinition "Cache" ["T"]).dependsOn (.require (.param "T"))]
    ∃ n ∈ g.nodes, n.isOpen = true ∧ ∃ d m d', g.dependencyAt? n [] 0 = some d ∧
      captured? g n d = some m ∧ g.effective? d.required = none ∧
      g.dependencyAt? n [.closed "User" []] 0 = some d' ∧ captured? g n d' = none := by
  intro queue rs g
  have hnodup : (rs.map Registration.service).Nodup := by decide
  unfold g
  rw [Graph.build_eq_of_inOrder hnodup (by decide)]
  exact ⟨_, List.mem_cons_self, rfl, _, _, _, rfl, rfl, rfl, rfl, rfl⟩

end Captive

end Wiring
