import Wiring.Proofs.Substitution

/-!
# Parameters that are closed

A type may be closed in steps: its parameters are replaced by arguments that mention parameters
again, and these are replaced in turn. Where every parameter of the type has an argument, the order
of the steps does not matter, and nothing is left to replace once the arguments are free of
parameters. A parameter has an argument if the first place where it is listed is one of the places
of the arguments; later places of the same name, and places beyond the arguments, count for nothing.

Results:
1. `TypeRef.substitute_substitute`: two steps are one step with the arguments closed before.
2. `TypeRef.substitute_self`: parameters that stand for themselves change nothing.
3. `TypeRef.params_substitute`: arguments without parameters leave no parameter.
4. `closing_in_steps`: these laws together, and what they say of the dependencies of a shape.
-/

namespace Wiring

namespace TypeRef

/-! ## Occurrences -/

mutual
/-- The type parameters that occur in a type, from the left. -/
def params : TypeRef → List String
  | .closed _ as => paramsAll as
  | .generic _ _ => []
  | .param x => [x]

/-- The type parameters that occur in the types of a list. -/
def paramsAll : List TypeRef → List String
  | [] => []
  | a :: as => params a ++ paramsAll as
end

theorem mem_paramsAll {x : String} {ts : List TypeRef} :
    x ∈ paramsAll ts ↔ ∃ t ∈ ts, x ∈ t.params := by
  induction ts with
  | nil => simp [paramsAll]
  | cons t ts ih => simp [paramsAll, ih]

/-! ## Parameters with an argument -/

variable {ps qs : List String} {as bs : List TypeRef} {t : TypeRef}

/-- The argument for a parameter stands at the first place of its name. -/
theorem lookup_eq (ps : List String) (as : List TypeRef) (x : String) :
    lookup ps as x = (ps.idxOf? x).bind (fun i => as[i]?) := by
  induction ps generalizing as with
  | nil => exact lookup_nil_left x
  | cons q qs ih =>
    cases as with
    | nil =>
      rw [lookup_nil_right]
      cases (q :: qs).idxOf? x with
      | none => rfl
      | some i => rfl
    | cons a as =>
      rw [lookup, List.idxOf?_cons, ih]
      by_cases hq : q = x
      · simp [hq]
      · rw [if_neg hq, if_neg (by simpa using hq), Option.bind_map]
        rfl

theorem lookup_map (f : TypeRef → TypeRef) (x : String) :
    lookup ps (as.map f) x = (lookup ps as x).map f := by
  rw [lookup_eq, lookup_eq, Option.map_bind]
  refine congrArg _ (funext fun i => ?_)
  exact List.getElem?_map

/-- Every parameter of the type has an argument: it is listed, first at one of their places. -/
def Placed (ps : List String) (as : List TypeRef) (t : TypeRef) : Prop :=
  ∀ x ∈ t.params, ∃ i, ps.idxOf? x = some i ∧ i < as.length

theorem Placed.of_mem {n : String} {ts : List TypeRef} (h : Placed ps as (.closed n ts))
    (ht : t ∈ ts) : Placed ps as t := by
  intro x hx
  refine h x ?_
  rw [params, mem_paramsAll]
  exact ⟨t, ht, hx⟩

/-- One argument for each listed parameter is enough. -/
theorem placed_of_length_eq (hlen : as.length = ps.length) (h : ∀ x ∈ t.params, x ∈ ps) :
    Placed ps as t := by
  intro x hx
  obtain ⟨i, hi⟩ := Option.isSome_iff_exists.1 (List.isSome_idxOf?.2 (h x hx))
  obtain ⟨hlt, -⟩ := List.idxOf?_eq_some_iff.1 hi
  exact ⟨i, hi, hlen ▸ hlt⟩

theorem Placed.exists_lookup {x : String} (h : Placed ps as (.param x)) :
    ∃ a ∈ as, lookup ps as x = some a := by
  obtain ⟨i, hi, hlt⟩ := h x (by rw [params]; exact List.mem_singleton_self x)
  refine ⟨as[i], List.getElem_mem hlt, ?_⟩
  rw [lookup_eq, hi, Option.bind_some, List.getElem?_eq_getElem hlt]

/-! ## The laws of substitution -/

theorem substitute_closed (n : String) (ts : List TypeRef) :
    substitute ps as (.closed n ts) = .closed n (ts.map (substitute ps as)) := by
  rw [substitute, substituteAll_eq_map]

theorem substitute_substitute (h : Placed ps as t) :
    (t.substitute ps as).substitute qs bs = t.substitute ps (as.map (substitute qs bs)) := by
  induction t using induct with
  | closed n ts ih =>
    rw [substitute_closed, substitute_closed, substitute_closed, List.map_map]
    exact congrArg (closed n) (List.map_congr_left fun t ht => ih t ht (h.of_mem ht))
  | generic n k => simp only [substitute]
  | param x =>
    obtain ⟨a, -, ha⟩ := h.exists_lookup
    rw [substitute, substitute, lookup_map, ha]
    rfl

theorem substitute_self (ps : List String) (t : TypeRef) :
    t.substitute ps (ps.map .param) = t := by
  induction t using induct with
  | closed n ts ih =>
    rw [substitute_closed]
    exact congrArg (closed n) ((List.map_congr_left ih).trans (List.map_id ts))
  | generic n k => rw [substitute]
  | param x =>
    rw [substitute, lookup_eq]
    cases hi : ps.idxOf? x with
    | none => rfl
    | some i =>
      -- the place at which `x` is found holds `x` again
      obtain ⟨hlt, hx, -⟩ := List.idxOf?_eq_some_iff.1 hi
      simp [hlt, hx]

theorem params_substitute (h : Placed ps as t) (has : ∀ a ∈ as, a.params = []) :
    (t.substitute ps as).params = [] := by
  induction t using induct with
  | closed n ts ih =>
    rw [substitute_closed, params, List.eq_nil_iff_forall_not_mem]
    intro x hx
    obtain ⟨u, hu, hx⟩ := mem_paramsAll.1 hx
    obtain ⟨t, ht, rfl⟩ := List.mem_map.1 hu
    rw [ih t ht (h.of_mem ht)] at hx
    exact absurd hx List.not_mem_nil
  | generic n k => rw [substitute, params]
  | param x =>
    obtain ⟨a, hmem, ha⟩ := h.exists_lookup
    rw [substitute, ha]
    exact has a hmem

end TypeRef

/-! ## Dependencies of a closed shape -/

/-- The dependencies speak of no type parameters but those of the shape. -/
def TypeShape.MentionsOwn (s : TypeShape) : Prop :=
  ∀ d ∈ s.dependencies, ∀ x ∈ d.required.ty.params, x ∈ s.typeParams

instance (s : TypeShape) : Decidable s.MentionsOwn :=
  inferInstanceAs (Decidable (∀ d ∈ s.dependencies, ∀ x ∈ d.required.ty.params, x ∈ s.typeParams))

theorem TypeShape.params_dependenciesClosedOver {s : TypeShape} (hown : s.MentionsOwn)
    {args : List TypeRef} (hlen : args.length = s.typeParams.length)
    (hargs : ∀ a ∈ args, a.params = []) {d : Dependency} (hd : d ∈ s.dependenciesClosedOver args) :
    d.required.ty.params = [] := by
  rw [dependenciesClosedOver_eq_map] at hd
  obtain ⟨d, hmem, rfl⟩ := List.mem_map.1 hd
  exact TypeRef.params_substitute (TypeRef.placed_of_length_eq hlen (hown d hmem)) hargs

/-- Closing a type in two steps is closing it in one, if every parameter of the type has an argument
in the first step; parameters put for themselves change nothing; and arguments without parameters
leave none. So a shape that mentions only its own parameters, closed over one argument without
parameters for each, has no dependency with a parameter in it. -/
theorem closing_in_steps :
    (∀ (t : TypeRef) (p q : List String) (a b : List TypeRef), TypeRef.Placed p a t →
      (t.substitute p a).substitute q b = t.substitute p (a.map (TypeRef.substitute q b))) ∧
    (∀ (p : List String) (t : TypeRef), t.substitute p (p.map .param) = t) ∧
    (∀ (t : TypeRef) (p : List String) (a : List TypeRef), TypeRef.Placed p a t →
      (∀ u ∈ a, u.params = []) → (t.substitute p a).params = []) ∧
    ∀ (s : TypeShape) (args : List TypeRef), s.MentionsOwn →
      args.length = s.typeParams.length → (∀ u ∈ args, u.params = []) →
      ∀ d ∈ s.dependenciesClosedOver args, d.required.ty.params = [] := by
  refine ⟨?_, TypeRef.substitute_self, ?_, ?_⟩
  · intro t p q a b h
    exact TypeRef.substitute_substitute h
  · intro t p a h ha
    exact TypeRef.params_substitute h ha
  · intro s args hown hlen hargs d hd
    exact TypeShape.params_dependenciesClosedOver hown hlen hargs hd

/-- The first step puts arguments that mention `T` again, and the second replaces only these. -/
theorem pairs_closed_in_steps :
    let leaf : TypeRef := .closed "Leaf" []
    let list (t : TypeRef) : TypeRef := .closed "List" [t]
    let pairs : TypeRef := list (.closed "Pair" [.param "T", list (.param "U")])
    let first : List TypeRef := [list (.param "T"), .param "T"]
    let shape := (TypeShape.ofDefinition "Node" ["T"]).dependsOn (.require (list (.param "T")))
    TypeRef.Placed ["T", "U"] first pairs ∧
    (pairs.substitute ["T", "U"] first).substitute ["T"] [leaf] =
      pairs.substitute ["T", "U"] [list leaf, leaf] ∧
    (pairs.substitute ["T", "U"] [list leaf, leaf]).params = [] ∧
    shape.MentionsOwn ∧ .require (list leaf) ∈ shape.dependenciesClosedOver [leaf] ∧
    (list leaf).params = [] := by
  intro leaf list pairs first shape
  have hplaced : ∀ as : List TypeRef, as.length = 2 → TypeRef.Placed ["T", "U"] as pairs :=
    fun as has => TypeRef.placed_of_length_eq has (by decide)
  have hown : shape.MentionsOwn := by decide
  have hmem : .require (list leaf) ∈ shape.dependenciesClosedOver [leaf] := by decide
  obtain ⟨hsteps, -, hnone, hshape⟩ := closing_in_steps
  exact ⟨hplaced first rfl, hsteps pairs _ _ first [leaf] (hplaced first rfl),
    hnone pairs _ [list leaf, leaf] (hplaced _ rfl) (by decide), hown, hmem,
    hshape shape [leaf] hown rfl (by decide) _ hmem⟩

/-- A parameter that has no argument in the first step is taken by the second. -/
example :
    let t : TypeRef := .closed "Pair" [.param "T", .param "U"]
    let leaf : TypeRef := .closed "Leaf" []
    (t.substitute ["T", "U"] [.param "U"]).substitute ["U"] [leaf] = .closed "Pair" [leaf, leaf] ∧
      t.substitute ["T", "U"] ([.param "U"].map (TypeRef.substitute ["U"] [leaf])) =
        .closed "Pair" [leaf, .param "U"] := by
  decide

end Wiring
