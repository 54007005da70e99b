import Mathlib.Data.List.Basic
import Wiring.Shape

/-!
# Closing types over arguments

The shape of a generic definition speaks of the parameters of the definition, and for a closed type
an argument is put in the place of each. This module has the laws of that substitution: what it
gives for the definition itself, what it leaves alone, and when it can be undone.

Results:
1. `TypeRef.substituteAll_params_eq_iff`: the parameters become the arguments exactly if they fit.
2. `TypeRef.openDefinition_substitute`: a closed type goes on to instantiate its definition.
3. `TypeRef.eq_closed_of_substitute_wrapped`: arguments of a name that occurs nowhere else can be
   taken out again.
-/

namespace Wiring

namespace TypeRef

variable {params : List String} {args : List TypeRef}

/-! ## Parameters that fit the arguments -/

/-- The parameters name the places of the arguments: there are as many of them, and places of the
same name have the same argument. -/
def Fit (params : List String) (args : List TypeRef) : Prop :=
  params.length = args.length ∧ ∀ i j : Nat, params[i]? = params[j]? → args[i]? = args[j]?

/-- Distinct names fit every list of arguments of their number. -/
theorem Fit.of_nodup (hlen : params.length = args.length) (h : params.Nodup) : Fit params args := by
  refine ⟨hlen, fun i j hij => ?_⟩
  rcases Nat.lt_or_ge i params.length with hi | hi
  · rw [(List.getElem?_inj hi h).1 hij]
  · rw [List.getElem?_eq_none hi] at hij
    have hj : params.length ≤ j := List.getElem?_eq_none_iff.1 hij.symm
    rw [List.getElem?_eq_none (hlen ▸ hi), List.getElem?_eq_none (hlen ▸ hj)]

/-- A listed parameter has an argument, at some place where it is listed. -/
theorem exists_lookup {p : String} (hlen : params.length = args.length) (hp : p ∈ params) :
    ∃ (j : Nat) (a : TypeRef), params[j]? = some p ∧ args[j]? = some a ∧
      lookup params args p = some a := by
  induction params generalizing args with
  | nil => exact absurd hp List.not_mem_nil
  | cons q qs ih =>
    cases args with
    | nil => exact absurd hlen (Nat.succ_ne_zero _)
    | cons a as =>
      rw [lookup]
      by_cases hq : q = p
      · exact ⟨0, a, congrArg some hq, rfl, if_pos hq⟩
      · have hqs : p ∈ qs := (List.mem_cons.1 hp).resolve_left (Ne.symm hq)
        obtain ⟨j, b, hj, hb, hlookup⟩ := ih (Nat.succ.inj hlen) hqs
        exact ⟨j + 1, b, hj, hb, (if_neg hq).trans hlookup⟩

theorem getElem?_substituteAll_params (i : Nat) :
    (substituteAll params args (params.map .param))[i]? =
      params[i]?.map (fun p => (lookup params args p).getD (.param p)) := by
  rw [substituteAll_eq_map, List.map_map, List.getElem?_map]
  rfl

theorem length_substituteAll (ts : List TypeRef) :
    (substituteAll params args ts).length = ts.length := by
  rw [substituteAll_eq_map, List.length_map]

theorem substituteAll_params_eq_iff :
    substituteAll params args (params.map .param) = args ↔ Fit params args := by
  constructor
  · intro h
    have hlen : params.length = args.length := by
      rw [← h, length_substituteAll, List.length_map]
    refine ⟨hlen, fun i j hij => ?_⟩
    rw [← h, getElem?_substituteAll_params, getElem?_substituteAll_params, hij]
  · rintro ⟨hlen, hfit⟩
    refine List.ext_getElem? (fun i => ?_)
    rw [getElem?_substituteAll_params]
    cases hp : params[i]? with
    | none =>
      have hi : params.length ≤ i := List.getElem?_eq_none_iff.1 hp
      rw [List.getElem?_eq_none (hlen ▸ hi)]
      rfl
    | some p =>
      -- the argument that is looked up may stand at another place of the same name
      obtain ⟨j, a, hj, ha, hlookup⟩ := exists_lookup hlen (List.mem_of_getElem? hp)
      rw [hfit i j (hp.trans hj.symm), ha, Option.map_some, hlookup, Option.getD_some]

instance (params : List String) (args : List TypeRef) : Decidable (Fit params args) :=
  decidable_of_iff _ substituteAll_params_eq_iff

/-- A definition, closed over the names of its parameters, becomes the type that is closed over the
arguments. -/
theorem map_substitute_closeOver_eq_some_iff {name : String} {k : UInt64} :
    ((generic name k).closeOver params).map (substitute params args) = some (closed name args) ↔
      k.toNat = params.length ∧ Fit params args := by
  rw [closeOver, ← substituteAll_params_eq_iff]
  by_cases hk : k.toNat = params.length
  · simp [hk, substitute]
  · simp [hk]

/-! ## What substitution leaves alone -/

mutual
theorem substitute_eq_self (h : ∀ p, lookup params args p = none) :
    ∀ t : TypeRef, substitute params args t = t
  | .closed n as => by rw [substitute, substituteAll_eq_self h as]
  | .generic n k => by rw [substitute]
  | .param p => by rw [substitute, h p, Option.getD_none]

theorem substituteAll_eq_self (h : ∀ p, lookup params args p = none) :
    ∀ ts : List TypeRef, substituteAll params args ts = ts
  | [] => by rw [substituteAll]
  | t :: ts => by rw [substituteAll, substitute_eq_self h t, substituteAll_eq_self h ts]
end

theorem lookup_nil_left (p : String) : lookup [] args p = none := by
  cases args with
  | nil => rfl
  | cons a as => rfl

theorem lookup_nil_right (p : String) : lookup params [] p = none := by
  cases params with
  | nil => exact lookup_nil_left p
  | cons q qs => rfl

theorem openDefinition_substitute {t o : TypeRef} (h : t.openDefinition = some o) :
    (t.substitute params args).openDefinition = some o := by
  cases t with
  | closed n as =>
    cases as with
    | nil => exact absurd h (Option.some_ne_none o).symm
    | cons a as =>
      obtain rfl := Option.some.inj h
      rw [substitute, substituteAll, openDefinition, List.length_cons, List.length_cons,
        length_substituteAll]
  | generic n k => exact absurd h (Option.some_ne_none o).symm
  | param p => exact absurd h (Option.some_ne_none o).symm

/-! ## Substitution that can be undone -/

/-- One argument for each parameter: the parameter itself, wrapped in a type of the given name. -/
def wrapped (name : String) (params : List String) : List TypeRef :=
  params.map (fun p => .closed name [.param p])

theorem lookup_wrapped (name p : String) :
    lookup params (wrapped name params) p =
      if p ∈ params then some (.closed name [.param p]) else none := by
  induction params with
  | nil => exact lookup_nil_left p
  | cons q qs ih =>
    have hcons : lookup (q :: qs) (wrapped name (q :: qs)) p =
        if q = p then some (.closed name [.param q]) else lookup qs (wrapped name qs) p := rfl
    rw [hcons, ih]
    by_cases hq : q = p
    · simp [hq]
    · simp [hq, Ne.symm hq]

theorem substitute_wrapped_param (name p : String) :
    substitute params (wrapped name params) (.param p) =
      if p ∈ params then .closed name [.param p] else .param p := by
  rw [substitute, lookup_wrapped]
  split <;> rfl

/-- A type without the name at its head is wrapped only if it is the parameter. -/
theorem eq_param_of_substitute_wrapped {name p : String} {t : TypeRef} (hname : t.name ≠ name)
    (h : substitute params (wrapped name params) t = .closed name [.param p]) : t = .param p := by
  cases t with
  | closed n as =>
    rw [substitute] at h
    exact absurd (TypeRef.closed.inj h).1 hname
  | generic n k =>
    rw [substitute] at h
    exact TypeRef.noConfusion h
  | param q =>
    rw [substitute_wrapped_param] at h
    split at h
    · obtain ⟨-, hargs⟩ := TypeRef.closed.inj h
      exact (List.cons.inj hargs).1
    · exact TypeRef.noConfusion h

theorem eq_params_of_substituteAll_wrapped {name : String} {ts : List TypeRef}
    (hname : ∀ t ∈ ts, t.name ≠ name) {ps : List String}
    (h : substituteAll params (wrapped name params) ts = wrapped name ps) :
    ts = ps.map .param := by
  induction ts generalizing ps with
  | nil =>
    cases ps with
    | nil => rfl
    | cons p ps => exact absurd h.symm (List.cons_ne_nil _ _)
  | cons t ts ih =>
    cases ps with
    | nil => exact absurd h (List.cons_ne_nil _ _)
    | cons p ps =>
      rw [substituteAll] at h
      obtain ⟨hhead, htail⟩ := List.cons.inj h
      rw [eq_param_of_substitute_wrapped (hname t List.mem_cons_self) hhead,
        ih (fun u hu => hname u (List.mem_cons_of_mem t hu)) htail, List.map_cons]

/-- A type that becomes `S` closed over the wrapped parameters was `S` closed over the parameters,
if it does not use the name of the wrapping. -/
theorem eq_closed_of_substitute_wrapped {name service : String} {t : TypeRef}
    (hservice : service ≠ name) (hname : ∀ a ∈ t.args, a.name ≠ name)
    (h : substitute params (wrapped name params) t = .closed service (wrapped name params)) :
    t = .closed service (params.map .param) := by
  cases t with
  | closed n as =>
    rw [substitute] at h
    obtain ⟨rfl, hargs⟩ := TypeRef.closed.inj h
    exact congrArg (closed n) (eq_params_of_substituteAll_wrapped hname hargs)
  | generic n k =>
    rw [substitute] at h
    exact TypeRef.noConfusion h
  | param p =>
    rw [substitute_wrapped_param] at h
    split at h
    · exact absurd (TypeRef.closed.inj h).1 hservice.symm
    · exact TypeRef.noConfusion h

end TypeRef

theorem Dependency.substitute_eq_self {params : List String} {args : List TypeRef}
    (h : ∀ p, TypeRef.lookup params args p = none) (d : Dependency) :
    d.substitute params args = d := by
  unfold Dependency.substitute
  rw [TypeRef.substitute_eq_self h]
  rfl

/-- The dependencies of a shape are closed by substitution, also where there is nothing to
replace. -/
theorem TypeShape.dependenciesClosedOver_eq_map (s : TypeShape) (args : List TypeRef) :
    s.dependenciesClosedOver args =
      s.dependencies.map (Dependency.substitute s.typeParams args) := by
  unfold dependenciesClosedOver
  split
  · next hnil =>
    have hlookup : ∀ p, TypeRef.lookup s.typeParams args p = none := by
      intro p
      rcases (Bool.or_eq_true _ _).mp hnil with hargs | hparams
      · rw [List.isEmpty_iff.1 hargs, TypeRef.lookup_nil_right]
      · rw [List.isEmpty_iff.1 hparams, TypeRef.lookup_nil_left]
    exact (List.map_id'' (Dependency.substitute_eq_self hlookup) _).symm
  · rfl

end Wiring
