import Mathlib.Data.Fintype.EquivFin
import Wiring.Check.Compatibility
import Wiring.Proofs.Graph
import Wiring.Proofs.Substitution

/-!
# Compatibility of generic and of closed types

The check has two ways to compare an implementation with a service. Two generic definitions are
compared once, with the service closed over the parameters of the implementation. Closed types are
compared with the shape of the definition closed over their arguments. This module shows that the
two ways agree if the shape names the parameters of its definition, and what becomes of a type that
is registered as itself.

Results:
1. `Compatibility.finding?_eq_none_iff`: what the check says of a node depends on the two types and
   on the shapes only.
2. `Compatibility.check_generic_iff_closed`: a definition passes for a definition exactly if its
   closed types pass for closed types.
3. `Compatibility.check_self`: a type fails for itself only through a shape that does not name the
   parameters of its definition.
4. `Compatibility.self_reported_without_parameters`, `Compatibility.self_reported_where_repeated`:
   and through such a shape it does.
-/

namespace Wiring

/-! ## What the check compares -/

/-- The same registration of another service type, with an implementation that is named by a type
object. -/
def Registration.pairing (r : Registration) (service implementation : TypeRef) : Registration :=
  { r with
    service := r.service.withTy service
    implementation := .type implementation .runtimeTypes }

theorem TypeShape.offers_iff {s : TypeShape} {service : TypeRef} :
    s.offers service = true ↔
      s.identity.closeOver s.typeParams = some service ∨ service ∈ s.capabilities := by
  simp [offers]

namespace Compatibility

section

variable {shape : TypeShape} {args : List TypeRef} {service implementation : TypeRef}

/-- The shape is closed over the arguments, also if there are none. -/
theorem offersClosed_iff :
    offersClosed shape args service = true ↔
      (shape.identity.closeOver shape.typeParams).map
          (TypeRef.substitute shape.typeParams args) = some service ∨
        ∃ cap ∈ shape.capabilities, cap.substitute shape.typeParams args = service := by
  cases args with
  | nil =>
    have hself : TypeRef.substitute shape.typeParams [] = id :=
      funext (TypeRef.substitute_eq_self TypeRef.lookup_nil_right)
    rw [offersClosed, hself, Option.map_id]
    simp [TypeShape.offers_iff]
  | cons a as => simp [offersClosed]

theorem mismatch?_generic_eq_none_iff {name name' : String} {k : UInt64}
    (hk : shape.typeParams.length = k.toNat) :
    mismatch? (.generic name k) (.generic name' k) shape args = none ↔
      shape.offers (.closed name (shape.typeParams.map .param)) = true := by
  simp [mismatch?, TypeRef.closeOver, hk]

theorem mismatch?_closed_eq_none_iff (hservice : service.isOpen = false)
    (himplementation : implementation.isOpen = false) :
    mismatch? service implementation shape args = none ↔
      offersClosed shape args service = true := by
  cases service with
  | generic name k => exact absurd hservice.symm Bool.false_ne_true
  | closed name as =>
    cases implementation with
    | generic name k => exact absurd himplementation.symm Bool.false_ne_true
    | closed name' as' => simp [mismatch?]
    | param p => simp [mismatch?]
  | param p =>
    cases implementation with
    | generic name k => exact absurd himplementation.symm Bool.false_ne_true
    | closed name' as' => simp [mismatch?]
    | param q => simp [mismatch?]

end

theorem finding?_eq_none_iff {g : Graph} {n : Node} {ty : TypeRef}
    (h : n.registration.implementation = .type ty .runtimeTypes) :
    finding? g n = none ↔ ∀ shape args, g.shapeFor? ty = some (shape, args) →
      mismatch? n.service.ty ty shape args = none := by
  unfold finding?
  rw [h]
  dsimp only
  cases hshape : g.shapeFor? ty with
  | none => simp
  | some found =>
    rw [Option.map_eq_none_iff]
    constructor
    · rintro hnone shape args ⟨⟩
      exact hnone
    · intro hall
      exact hall found.1 found.2 rfl

/-! ## Generic definitions and their closed types -/

theorem check_eq_ok_nil_iff {g : Graph} :
    check g false = .ok [] ↔ ∀ n ∈ g.nodes, finding? g n = none := by
  have hcheck : check g false = .ok (g.nodes.filterMap (finding? g)) := rfl
  rw [hcheck, Except.ok.injEq, List.filterMap_eq_nil_iff]

/-- Whether a registration passes alone depends on its two types and on the shape. -/
theorem check_pairing_iff {shapes : List TypeShape} {service implementation : TypeRef}
    {shape : TypeShape} {args : List TypeRef}
    (hshape : (Graph.mk [] shapes).shapeFor? implementation = some (shape, args))
    (r : Registration) :
    check (Graph.build [r.pairing service implementation] shapes) false = .ok [] ↔
      mismatch? service implementation shape args = none := by
  rw [Graph.build_singleton, check_eq_ok_nil_iff, List.forall_mem_singleton,
    finding?_eq_none_iff rfl]
  constructor
  · intro h
    exact h shape args hshape
  · intro h shape' args' hshape'
    obtain ⟨rfl, rfl⟩ := Prod.mk.inj (Option.some.inj (hshape.symm.trans hshape'))
    exact h

/-- Some name is neither that of the service nor at the head of an argument of the types. -/
theorem exists_fresh (service : String) (ts : List TypeRef) :
    ∃ fresh, service ≠ fresh ∧ ∀ t ∈ ts, ∀ a ∈ t.args, a.name ≠ fresh := by
  obtain ⟨fresh, h⟩ := Infinite.exists_notMem_finset
    (service :: (ts.flatMap TypeRef.args).map TypeRef.name).toFinset
  rw [List.mem_toFinset, List.mem_cons, not_or] at h
  refine ⟨fresh, Ne.symm h.1, fun t ht a ha hname => h.2 ?_⟩
  rw [← hname]
  exact List.mem_map_of_mem (List.mem_flatMap.2 ⟨t, ht, ha⟩)

section Generic

variable {shape : TypeShape} {name : String} {k : UInt64}
  (hidentity : shape.identity = .generic name k) (hlen : shape.typeParams.length = k.toNat)

include hidentity hlen

/-- A shape that offers a definition over its own parameters offers it over all arguments. -/
theorem offersClosed_of_offers (hnodup : shape.typeParams.Nodup) {service : String}
    {args : List TypeRef} (hargs : args.length = k.toNat)
    (h : shape.offers (.closed service (shape.typeParams.map .param)) = true) :
    offersClosed shape args (.closed service args) = true := by
  have hfit : TypeRef.Fit shape.typeParams args := .of_nodup (hlen.trans hargs.symm) hnodup
  rw [offersClosed_iff]
  rcases TypeShape.offers_iff.1 h with hown | hcap
  · rw [hidentity, TypeRef.closeOver, if_pos hlen.symm] at hown
    obtain ⟨rfl, -⟩ := TypeRef.closed.inj (Option.some.inj hown)
    rw [hidentity]
    exact .inl (TypeRef.map_substitute_closeOver_eq_some_iff.2 ⟨hlen.symm, hfit⟩)
  · refine .inr ⟨_, hcap, ?_⟩
    rw [TypeRef.substitute, TypeRef.substituteAll_params_eq_iff.2 hfit]

/-- A shape that offers a definition over wrapped parameters offers it over the parameters, if the
name of the wrapping is not used. -/
theorem offers_of_offersClosed_wrapped (hnodup : shape.typeParams.Nodup) {service fresh : String}
    (hservice : service ≠ fresh)
    (hfresh : ∀ cap ∈ shape.capabilities, ∀ a ∈ cap.args, a.name ≠ fresh)
    (h : offersClosed shape (TypeRef.wrapped fresh shape.typeParams)
      (.closed service (TypeRef.wrapped fresh shape.typeParams)) = true) :
    shape.offers (.closed service (shape.typeParams.map .param)) = true := by
  rw [TypeShape.offers_iff]
  rcases offersClosed_iff.1 h with hown | ⟨cap, hcap, heq⟩
  · have hfit : TypeRef.Fit shape.typeParams (TypeRef.wrapped fresh shape.typeParams) :=
      .of_nodup (List.length_map _).symm hnodup
    rw [hidentity, TypeRef.map_substitute_closeOver_eq_some_iff.2 ⟨hlen.symm, hfit⟩] at hown
    obtain ⟨rfl, -⟩ := TypeRef.closed.inj (Option.some.inj hown)
    rw [hidentity, TypeRef.closeOver, if_pos hlen.symm]
    exact .inl rfl
  · rw [← TypeRef.eq_closed_of_substitute_wrapped hservice (hfresh cap hcap) heq]
    exact .inr hcap

end Generic

/-- A closed type without a shape of its own is compared through the shape of its definition. -/
theorem check_closed_iff {shapes : List TypeShape} {shape : TypeShape} {implementation : String}
    {k : UInt64}
    (hshape : (Graph.mk [] shapes).declaredShape? (.generic implementation k) = some shape)
    (hk : 1 ≤ k.toNat) {args : List TypeRef} (hargs : args.length = k.toNat)
    (hown : ∀ s ∈ shapes, s.identity ≠ .closed implementation args) (service : String)
    (r : Registration) :
    check (Graph.build [r.pairing (.closed service args) (.closed implementation args)] shapes)
      false = .ok [] ↔ offersClosed shape args (.closed service args) = true := by
  have hnone : (Graph.mk [] shapes).declaredShape? (.closed implementation args) = none :=
    Graph.declaredShape?_eq_none_iff.2 hown
  rw [check_pairing_iff (Graph.shapeFor?_closed hshape hk hargs hnone)]
  exact mismatch?_closed_eq_none_iff rfl rfl

/-- Generic definitions are compared as their closed types are. Let the shape of a definition name
its parameters, one or more and all distinct. The definition passes as the implementation of another
definition of the same arity exactly if, for all arguments, the closed type passes as the
implementation of the closed service, unless a shape is declared for the closed type itself. -/
theorem check_generic_iff_closed {shapes : List TypeShape} {shape : TypeShape}
    {implementation : String} {k : UInt64}
    (hshape : shapes.find? (fun s => s.identity == .generic implementation k) = some shape)
    (hk : 1 ≤ k.toNat) (hlen : shape.typeParams.length = k.toNat)
    (hnodup : shape.typeParams.Nodup) (service : String) (r r' : Registration) :
    check (Graph.build [r.pairing (.generic service k) (.generic implementation k)] shapes)
        false = .ok [] ↔
      ∀ args : List TypeRef, args.length = k.toNat →
        (∀ s ∈ shapes, s.identity ≠ .closed implementation args) →
        check (Graph.build [r'.pairing (.closed service args) (.closed implementation args)] shapes)
          false = .ok [] := by
  have hdeclared : (Graph.mk [] shapes).declaredShape? (.generic implementation k) = some shape :=
    hshape
  have hidentity := Graph.identity_of_declaredShape? hdeclared
  rw [check_pairing_iff (Graph.shapeFor?_of_declaredShape? hdeclared),
    mismatch?_generic_eq_none_iff hlen]
  constructor
  · intro h args hargs hown
    rw [check_closed_iff hdeclared hk hargs hown]
    exact offersClosed_of_offers hidentity hlen hnodup hargs h
  · intro h
    -- arguments that wrap the parameters in a type of which no capability and no shape makes use
    obtain ⟨fresh, hservice, hfresh⟩ :=
      exists_fresh service (shape.capabilities ++ shapes.map TypeShape.identity)
    have hargs : (TypeRef.wrapped fresh shape.typeParams).length = k.toNat :=
      (List.length_map _).trans hlen
    have hown : ∀ s ∈ shapes,
        s.identity ≠ .closed implementation (TypeRef.wrapped fresh shape.typeParams) := by
      intro s hs heq
      obtain ⟨p, hp⟩ := List.exists_mem_of_length_pos (hlen ▸ hk)
      have hmem : TypeRef.closed fresh [.param p] ∈ s.identity.args := by
        rw [heq]
        exact List.mem_map_of_mem hp
      exact hfresh _ (List.mem_append_right _ (List.mem_map_of_mem hs)) _ hmem rfl
    have hoffers := (check_closed_iff hdeclared hk hargs hown service r').1 (h _ hargs hown)
    exact offers_of_offersClosed_wrapped hidentity hlen hnodup hservice
      (fun cap hcap => hfresh cap (List.mem_append_left _ hcap)) hoffers

/-- A type registered as itself, by a type object. -/
def byTypeObject (ty : TypeRef) : Registration :=
  ⟨.of ty, .type ty .runtimeTypes, .scoped, ⟨"Startup", 1, 0⟩, 1, false⟩

/-- A map whose parameters are named in another order passes, and so do its closed types, whatever
the arguments are. -/
theorem swapped_passes_closed :
    let swapped : TypeShape := (TypeShape.ofDefinition "Inverse" ["V", "K"]).implements
      (.closed "IMap" [.param "V", .param "K"])
    let r := byTypeObject (.generic "IMap" 2)
    check (Graph.build [r.pairing (.generic "IMap" 2) (.generic "Inverse" 2)] [swapped]) false =
        .ok [] ∧
      ∀ args : List TypeRef, args.length = 2 →
        check (Graph.build [r.pairing (.closed "IMap" args) (.closed "Inverse" args)] [swapped])
          false = .ok [] := by
  intro swapped r
  have hgeneric : check (Graph.build [r.pairing (.generic "IMap" 2) (.generic "Inverse" 2)]
      [swapped]) false = .ok [] := by
    rw [Graph.build_singleton]
    decide
  have hown : ∀ args, ∀ s ∈ [swapped], s.identity ≠ .closed "Inverse" args := by
    intro args s hs heq
    rw [List.mem_singleton.1 hs] at heq
    exact TypeRef.noConfusion heq
  refine ⟨hgeneric, fun args hargs => ?_⟩
  exact (check_generic_iff_closed rfl (by decide) rfl (by decide) "IMap" r r).1 hgeneric args hargs
    (hown args)

/-! ## Types registered as themselves -/

/-- The shape of a definition can be closed over the arguments: it names as many parameters as the
definition has, and they fit. -/
structure Closes (shape : TypeShape) (args : List TypeRef) : Prop where
  arity : (shape.identity.closeOver shape.typeParams).isSome
  fit : TypeRef.Fit shape.typeParams args

theorem map_substitute_closeOver_iff_closes {shape : TypeShape} {args : List TypeRef}
    {name : String} {k : UInt64} (hidentity : shape.identity = .generic name k) :
    (shape.identity.closeOver shape.typeParams).map (TypeRef.substitute shape.typeParams args) =
      some (.closed name args) ↔ Closes shape args := by
  have harity : (shape.identity.closeOver shape.typeParams).isSome ↔
      k.toNat = shape.typeParams.length := by
    rw [hidentity, TypeRef.closeOver]
    split <;> simp [*]
  rw [hidentity, TypeRef.map_substitute_closeOver_eq_some_iff, ← harity]
  exact ⟨fun h => ⟨h.1, h.2⟩, fun h => ⟨h.arity, h.fit⟩⟩

/-- A type with a shape of its own passes for itself. -/
theorem mismatch?_self_of_identity {ty : TypeRef} {shape : TypeShape} (h : shape.identity = ty) :
    mismatch? ty ty shape [] = none := by
  cases ty with
  | generic name k =>
    by_cases hk : shape.typeParams.length = k.toNat
    · rw [mismatch?_generic_eq_none_iff hk, TypeShape.offers_iff, h, TypeRef.closeOver,
        if_pos hk.symm]
      exact .inl rfl
    · simp [mismatch?, TypeRef.closeOver, Ne.symm hk]
  | closed name args =>
    rw [mismatch?_closed_eq_none_iff rfl rfl]
    exact TypeShape.offers_iff.2 (.inl (by rw [h]; rfl))
  | param p =>
    rw [mismatch?_closed_eq_none_iff rfl rfl]
    exact TypeShape.offers_iff.2 (.inl (by rw [h]; rfl))

/-- A type passes for itself unless its shape is that of its definition and neither the definition
nor a capability can be closed to the type. -/
theorem mismatch?_self_eq_none_iff {g : Graph} {ty : TypeRef} {shape : TypeShape}
    {args : List TypeRef} (h : g.shapeFor? ty = some (shape, args)) :
    mismatch? ty ty shape args = none ↔
      (args ≠ [] → Closes shape args ∨
        ∃ cap ∈ shape.capabilities, cap.substitute shape.typeParams args = ty) := by
  rcases Graph.shapeFor?_cases h with ⟨hidentity, rfl⟩ | ⟨name, rfl, hne, hidentity⟩
  · exact iff_of_true (mismatch?_self_of_identity hidentity) (fun hne => absurd rfl hne)
  · rw [mismatch?_closed_eq_none_iff rfl rfl, offersClosed_iff,
      map_substitute_closeOver_iff_closes hidentity]
    exact ⟨fun hcloses _ => hcloses, fun hcloses => hcloses hne⟩

/-- A type passes for itself, whether it is closed, generic or a parameter and whatever the shapes
are, with one exception: a closed type without a shape of its own is reported if the shape of its
definition cannot be closed over its arguments, and no capability becomes the type. -/
theorem check_self (rs : List Registration) (shapes : List TypeShape) :
    let g := Graph.build rs shapes
    check g false = .ok (g.nodes.filterMap (finding? g)) ∧
      ∀ n ∈ g.nodes, n.registration.implementation = .type n.service.ty .runtimeTypes →
        (finding? g n = none ↔
          ∀ shape args, g.shapeFor? n.service.ty = some (shape, args) → args ≠ [] →
            Closes shape args ∨
              ∃ cap ∈ shape.capabilities, cap.substitute shape.typeParams args = n.service.ty) := by
  intro g
  refine ⟨rfl, fun n _ hself => ?_⟩
  rw [finding?_eq_none_iff hself]
  exact forall₃_congr (fun shape args hshape => mismatch?_self_eq_none_iff hshape)

/-- A closed type passes through the shape of its definition, although this has one name for both
parameters, since the arguments are equal. -/
theorem self_passes_where_repeated :
    let type : TypeRef := .closed "Pair" [.closed "User" [], .closed "User" []]
    let r := byTypeObject type
    let g := Graph.build [r] [TypeShape.ofDefinition "Pair" ["T", "T"]]
    (⟨0, r, [r]⟩ : Node) ∈ g.nodes ∧ finding? g ⟨0, r, [r]⟩ = none := by
  intro type r g
  have hn : (⟨0, r, [r]⟩ : Node) ∈ g.nodes := by
    unfold g
    rw [Graph.build_singleton]
    exact List.mem_singleton_self _
  refine ⟨hn, ((check_self _ _).2 _ hn rfl).2 (fun shape args hshape _ => ?_)⟩
  obtain ⟨rfl, rfl⟩ := Prod.mk.inj (Option.some.inj hshape)
  exact .inl ⟨rfl, by decide⟩

/-- The shape names no parameters. -/
theorem self_reported_without_parameters :
    let type : TypeRef := .closed "Box" [.closed "User" []]
    let r := byTypeObject type
    ∃ d, check (Graph.build [r] [TypeShape.ofType (.generic "Box" 1)]) false = .ok [d] ∧
      d.rule = .implementationTypeMismatch := by
  intro type r
  rw [Graph.build_singleton]
  exact ⟨_, rfl, rfl⟩

/-- The shape has one name for two parameters, and the arguments differ. -/
theorem self_reported_where_repeated :
    let type : TypeRef := .closed "Pair" [.closed "User" [], .closed "Order" []]
    let r := byTypeObject type
    ∃ d, check (Graph.build [r] [TypeShape.ofDefinition "Pair" ["T", "T"]]) false = .ok [d] ∧
      d.rule = .implementationTypeMismatch := by
  intro type r
  rw [Graph.build_singleton]
  exact ⟨_, rfl, rfl⟩

end Compatibility

end Wiring
