import Wiring.Check.Resolvability

/-!
# Steps of the walk

What one call of the walk can do, said once: `Expands` for a service, `Visits` for a dependency.
Each has one constructor for each way in which the call can end, with all that was tested on that
way. The lemmas `expand_of_*` and `expand_eq_of_arrives` go back from the tests to the answer.
-/

namespace Wiring

namespace Resolvability

namespace Path

/-- The services on a path. -/
def services (p : Path) : List ServiceIdentity :=
  p.map Prod.fst

@[simp] theorem services_concat (p : Path) (s : ServiceIdentity) (n : Node) :
    services (p ++ [(s, n)]) = services p ++ [s] := by
  rw [services, List.map_append]
  rfl

@[simp] theorem length_services (p : Path) : (services p).length = p.length :=
  List.length_map _

theorem position?_eq_none_iff {p : Path} {s : ServiceIdentity} :
    p.position? s = none ↔ s ∉ services p := by
  rw [position?, List.findIdx?_eq_none_iff, services, List.mem_map]
  constructor
  · rintro h ⟨e, he, rfl⟩
    simpa using h e he
  · intro h e he
    exact beq_false_of_ne (fun heq => h ⟨e, he, heq⟩)

theorem getElem?_of_position? {p : Path} {s : ServiceIdentity} {i : Nat}
    (h : p.position? s = some i) : (services p)[i]? = some s := by
  obtain ⟨hi, hs, -⟩ := List.findIdx?_eq_some_iff_getElem.1 h
  rw [services, List.getElem?_map, List.getElem?_eq_getElem hi]
  exact congrArg some (eq_of_beq hs)

end Path

namespace Cache

/-- The services that were walked from the current root. -/
def walked (c : Cache) : List ServiceIdentity :=
  c.finished.map Prod.fst

theorem lookup_eq_none_iff {c : Cache} {s : ServiceIdentity} :
    c.finished.lookup s = none ↔ s ∉ c.walked := by
  rw [List.lookup_eq_none_iff, walked, List.mem_map]
  constructor
  · rintro h ⟨e, he, rfl⟩
    simpa using h e he
  · intro h e he
    exact bne_iff_ne.2 (fun heq => h ⟨e, he, heq.symm⟩)

theorem mem_walked_iff {c : Cache} {s : ServiceIdentity} :
    s ∈ c.walked ↔ c.finished.lookup s ≠ none := by
  rw [ne_eq, lookup_eq_none_iff, Decidable.not_not]

end Cache

theorem visitAll_cons_of_isSome {visit : Dependency → Cache → Visit × Cache} {d : Dependency}
    (ds : List Dependency) {c c' : Cache} {v : Visit} (hd : visit d c = (v, c'))
    (hsome : v.chain.isSome) : visitAll visit (d :: ds) c = (v, c') := by
  rw [visitAll, hd]
  simp only [hsome, if_true]

theorem visitAll_cons_of_none {visit : Dependency → Cache → Visit × Cache} {d : Dependency}
    (ds : List Dependency) {c c' : Cache} {v : Visit} (hd : visit d c = (v, c'))
    (hnone : v.chain = none) :
    visitAll visit (d :: ds) c =
      (v.andThen (visitAll visit ds c').1, (visitAll visit ds c').2) := by
  rw [visitAll, hd]
  simp only [hnone, Option.isSome_none, Bool.false_eq_true, if_false]

/-- Visits in order find something missing only if one of them does. -/
theorem exists_of_chain_visitAll {visit : Dependency → Cache → Visit × Cache}
    {ds : List Dependency} {c : Cache} {chain : List ServiceIdentity}
    (h : (visitAll visit ds c).1.chain = some chain) :
    ∃ d ∈ ds, ∃ c', (visit d c').1.chain = some chain := by
  induction ds generalizing c with
  | nil => exact nomatch h
  | cons d ds ih =>
    rw [visitAll] at h
    simp only at h
    split at h
    · exact ⟨d, List.mem_cons_self, c, h⟩
    · obtain ⟨d', hd', c', hc'⟩ := ih h
      exact ⟨d', List.mem_cons_of_mem _ hd', c', hc'⟩

/-- What every visit keeps, visits in order keep. -/
theorem visitAll_keeps {visit : Dependency → Cache → Visit × Cache} {I : Cache → Prop}
    {R : Visit → Prop} (hres : R .resolved) (hthen : ∀ v w, R v → R w → R (v.andThen w))
    {ds : List Dependency} (h : ∀ d ∈ ds, ∀ c, I c → R (visit d c).1 ∧ I (visit d c).2)
    {c : Cache} (hc : I c) : R (visitAll visit ds c).1 ∧ I (visitAll visit ds c).2 := by
  induction ds generalizing c with
  | nil => exact ⟨hres, hc⟩
  | cons d ds ih =>
    obtain ⟨hv, hc⟩ := h d List.mem_cons_self c hc
    rw [visitAll]
    simp only
    split
    · exact ⟨hv, hc⟩
    · obtain ⟨hw, hc⟩ := ih (fun d' hd' => h d' (List.mem_cons_of_mem d hd')) hc
      exact ⟨hthen _ _ hv hw, hc⟩

/-- Whether the walk has to look at the dependency. -/
def isMandatory (d : Dependency) : Bool :=
  !d.required.ty.isParam && !d.isOptional

/-- The ways in which the visit of a dependency ends. -/
inductive Visits (g : Graph) (fw : FrameworkServices) (p : Path)
    (expand : ServiceIdentity → Cache → Visit × Cache) (d : Dependency) (c : Cache) :
    Visit × Cache → Prop
  | skipped : isMandatory d = false → Visits g fw p expand d c (.resolved, c)
  | collected : isMandatory d → d.isEnumerable →
      0 < g.registrationCount d.required ∨ fw.contains d.required →
      Visits g fw p expand d c (.resolved, c)
  | noneToCollect : isMandatory d → d.isEnumerable →
      g.registrationCount d.required = 0 → fw.contains d.required = false →
      Visits g fw p expand d c (.missing d.required, c)
  | onPath {depth : Nat} : isMandatory d → d.isEnumerable = false →
      p.position? d.required = some depth → Visits g fw p expand d c (.cutAt depth, c)
  | registered : isMandatory d → d.isEnumerable = false → p.position? d.required = none →
      (g.resolveTarget? d.required).isSome →
      Visits g fw p expand d c (expand d.required c)
  | provided : isMandatory d → d.isEnumerable = false → p.position? d.required = none →
      g.resolveTarget? d.required = none → fw.contains d.required →
      Visits g fw p expand d c (.resolved, c)
  | missing : isMandatory d → d.isEnumerable = false → p.position? d.required = none →
      g.resolveTarget? d.required = none → fw.contains d.required = false →
      Visits g fw p expand d c (.missing d.required, c)

theorem visitDependency_visits (g : Graph) (fw : FrameworkServices) (p : Path)
    (expand : ServiceIdentity → Cache → Visit × Cache) (d : Dependency) (c : Cache) :
    Visits g fw p expand d c (visitDependency g fw p expand d c) := by
  simp only [visitDependency]
  split
  · next h =>
    refine .skipped ?_
    rw [isMandatory, ← Bool.not_or, h]
    rfl
  · next h =>
    have hm : isMandatory d := by
      rw [isMandatory, ← Bool.not_or, Bool.not_eq_true']
      exact (Bool.not_eq_true _).mp h
    split
    · next he =>
      split
      · next hs => exact .collected hm he (by simpa using hs)
      · next hs =>
        simp only [Bool.or_eq_true, decide_eq_true_eq, not_or, Nat.not_lt, Nat.le_zero,
          Bool.not_eq_true] at hs
        exact .noneToCollect hm he hs.1 hs.2
    · next he =>
      have he : d.isEnumerable = false := (Bool.not_eq_true _).mp he
      split
      · next hp => exact .onPath hm he hp
      · next hp =>
        split
        · next ht => exact .registered hm he hp ht
        · next ht =>
          have ht : g.resolveTarget? d.required = none := by simpa using ht
          split
          · next hf => exact .provided hm he hp ht hf
          · next hf => exact .missing hm he hp ht ((Bool.not_eq_true _).mp hf)

/-- The visit of a dependency walks below a service, or it makes no use of what is remembered. Which
of the two depends on the path alone. -/
theorem visitDependency_below_or_flat (g : Graph) (fw : FrameworkServices) (p : Path)
    (d : Dependency) :
    (isMandatory d ∧ d.isEnumerable = false ∧ d.required ∉ Path.services p ∧
      (g.resolveTarget? d.required).isSome ∧
      ∀ expand c, visitDependency g fw p expand d c = expand d.required c) ∨
    ∃ v : Visit, v.truncated = false ∧
      ∀ expand c, visitDependency g fw p expand d c = (v, c) := by
  unfold visitDependency
  by_cases hskip : (d.required.ty.isParam || d.isOptional) = true
  · exact .inr ⟨.resolved, rfl, fun _ _ => if_pos hskip⟩
  · simp only [hskip]
    cases henum : d.isEnumerable with
    | true =>
      right
      by_cases hany : (0 < g.registrationCount d.required || fw.contains d.required) = true
      · exact ⟨.resolved, rfl, fun _ _ => by simp [hany]⟩
      · exact ⟨.missing d.required, rfl, fun _ _ => by simp [hany]⟩
    | false =>
      cases hpos : p.position? d.required with
      | some depth => exact .inr ⟨.cutAt depth, rfl, fun _ _ => rfl⟩
      | none =>
        by_cases hreg : (g.resolveTarget? d.required).isSome = true
        · have hm : isMandatory d := by
            rw [isMandatory, ← Bool.not_or, Bool.not_eq_true']
            exact (Bool.not_eq_true _).mp hskip
          exact .inl ⟨hm, rfl, Path.position?_eq_none_iff.1 hpos, hreg, fun _ _ => if_pos hreg⟩
        · right
          by_cases hfw : fw.contains d.required = true
          · exact ⟨.resolved, rfl, fun _ _ => by simp [hreg, hfw]⟩
          · exact ⟨.missing d.required, rfl, fun _ _ => by simp [hreg, hfw]⟩

/-- The visits below a service at the end of the path `p`, when there is room for it. -/
def visitBelow (g : Graph) (fw : FrameworkServices) (room : Nat) (p : Path) (s : ServiceIdentity)
    (n : Node) (ds : List Dependency) (c : Cache) : Visit × Cache :=
  visitAll (visitDependency g fw (p ++ [(s, n)]) (expand g fw room (p ++ [(s, n)]))) ds (c.enter s)

/-- What the walks below a service keep, the visits below it keep. -/
theorem visitBelow_keeps {g : Graph} {fw : FrameworkServices} {room : Nat} {p : Path}
    {s : ServiceIdentity} {n : Node} {ds : List Dependency} {I : Cache → Prop} {R : Visit → Prop}
    (hflat : ∀ v : Visit, v.truncated = false → R v)
    (hthen : ∀ v w, R v → R w → R (v.andThen w))
    (hbelow : ∀ d ∈ ds, isMandatory d → d.isEnumerable = false →
      d.required ∉ Path.services (p ++ [(s, n)]) → (g.resolveTarget? d.required).isSome →
      ∀ c, I c → R (expand g fw room (p ++ [(s, n)]) d.required c).1 ∧
        I (expand g fw room (p ++ [(s, n)]) d.required c).2)
    {c : Cache} (hc : I (c.enter s)) :
    R (visitBelow g fw room p s n ds c).1 ∧ I (visitBelow g fw room p s n ds c).2 := by
  refine visitAll_keeps (hflat .resolved rfl) hthen ?_ hc
  intro d hd c hc
  rcases visitDependency_below_or_flat g fw (p ++ [(s, n)]) d with
    ⟨hm, henum, hx, hreg, heq⟩ | ⟨v, hv, heq⟩
  · rw [heq]
    exact hbelow d hd hm henum hx hreg c hc
  · rw [heq]
    exact ⟨hflat v hv, hc⟩

/-- The walk has not been at `s` before, and the request for it ends at `t`. -/
structure Arrives (g : Graph) (p : Path) (s : ServiceIdentity) (c : Cache) (t : Target) :
    Prop where
  not_resolved : s ∉ c.resolved
  not_finished : c.finished.lookup s = none
  target : g.resolveTarget? s = some t
  not_widened : widened? p t.node t.closingArgs = none

/-- The ways in which the visit of a service ends. -/
inductive Expands (g : Graph) (fw : FrameworkServices) (p : Path) (s : ServiceIdentity)
    (c : Cache) : Nat → Visit × Cache → Prop
  | known {room : Nat} : s ∈ c.resolved → Expands g fw p s c room (.resolved, c)
  | walkedBefore {room : Nat} {truncated : Bool} : s ∉ c.resolved →
      c.finished.lookup s = some truncated →
      Expands g fw p s c room (⟨none, some 0, truncated⟩, c)
  | unregistered {room : Nat} : s ∉ c.resolved → c.finished.lookup s = none →
      g.resolveTarget? s = none → Expands g fw p s c room (.resolved, c)
  | widened {room depth : Nat} {t : Target} : s ∉ c.resolved → c.finished.lookup s = none →
      g.resolveTarget? s = some t → widened? p t.node t.closingArgs = some depth →
      Expands g fw p s c room (.cutAt depth, c)
  | leaf {room : Nat} {t : Target} : Arrives g p s c t → expandable? g t = none →
      Expands g fw p s c room (.resolved, c.resolve s)
  | tooDeep {t : Target} {ds : List Dependency} : Arrives g p s c t →
      expandable? g t = some ds → Expands g fw p s c 0 (⟨none, some 0, true⟩, c)
  | broken {room : Nat} {t : Target} {ds : List Dependency} {v : Visit} {c' : Cache} :
      Arrives g p s c t → expandable? g t = some ds →
      visitBelow g fw room p s t.node ds c = (v, c') → v.chain.isSome →
      Expands g fw p s c (room + 1) (v.below s, c')
  | settled {room : Nat} {t : Target} {ds : List Dependency} {v : Visit} {c' : Cache} :
      Arrives g p s c t → expandable? g t = some ds →
      visitBelow g fw room p s t.node ds c = (v, c') → v.chain = none →
      v.cutsFrom p.length → v.truncated = false →
      Expands g fw p s c (room + 1) (.resolved, c'.resolve s)
  | pending {room : Nat} {t : Target} {ds : List Dependency} {v : Visit} {c' : Cache} :
      Arrives g p s c t → expandable? g t = some ds →
      visitBelow g fw room p s t.node ds c = (v, c') → v.chain = none →
      (v.cutsFrom p.length = false ∨ v.truncated) →
      Expands g fw p s c (room + 1) (v, c'.finish s v.truncated)

section Expand

variable {g : Graph} {fw : FrameworkServices} {room : Nat} {p : Path} {s : ServiceIdentity}
  {c : Cache}

theorem expand_of_mem_resolved (h : s ∈ c.resolved) : expand g fw room p s c = (.resolved, c) := by
  rw [expand.eq_def, if_pos (List.contains_iff_mem.2 h)]

theorem expand_of_lookup_eq_some {truncated : Bool} (hr : s ∉ c.resolved)
    (hf : c.finished.lookup s = some truncated) :
    expand g fw room p s c = (⟨none, some 0, truncated⟩, c) := by
  rw [expand.eq_def, if_neg (mt List.contains_iff_mem.1 hr)]
  simp only [hf]

/-- A service that was walked from the same root is not entered again. -/
theorem expand_of_walked (room : Nat) (hr : s ∉ c.resolved) (hf : s ∈ c.walked) :
    ∃ truncated, expand g fw room p s c = (⟨none, some 0, truncated⟩, c) := by
  obtain ⟨truncated, hlookup⟩ := Option.ne_none_iff_exists'.1 (Cache.mem_walked_iff.1 hf)
  exact ⟨truncated, expand_of_lookup_eq_some hr hlookup⟩

theorem expand_of_unregistered (hr : s ∉ c.resolved) (hf : c.finished.lookup s = none)
    (ht : g.resolveTarget? s = none) : expand g fw room p s c = (.resolved, c) := by
  rw [expand.eq_def, if_neg (mt List.contains_iff_mem.1 hr)]
  simp only [hf, ht]

theorem expand_of_widened {depth : Nat} {t : Target} (hr : s ∉ c.resolved)
    (hf : c.finished.lookup s = none) (ht : g.resolveTarget? s = some t)
    (hw : widened? p t.node t.closingArgs = some depth) :
    expand g fw room p s c = (.cutAt depth, c) := by
  rw [expand.eq_def, if_neg (mt List.contains_iff_mem.1 hr)]
  simp only [hf, ht, hw]

variable {t : Target} (harr : Arrives g p s c t)

include harr

theorem expand_of_leaf (he : expandable? g t = none) :
    expand g fw room p s c = (.resolved, c.resolve s) := by
  rw [expand.eq_def, if_neg (mt List.contains_iff_mem.1 harr.not_resolved)]
  simp only [harr.not_finished, harr.target, harr.not_widened, he]

variable {ds : List Dependency} (he : expandable? g t = some ds)

include he

theorem expand_zero_of_arrives : expand g fw 0 p s c = (⟨none, some 0, true⟩, c) := by
  rw [expand.eq_def, if_neg (mt List.contains_iff_mem.1 harr.not_resolved)]
  simp only [harr.not_finished, harr.target, harr.not_widened, he]

/-- What becomes of the visits below a service that the walk enters. -/
theorem expand_eq_of_arrives :
    expand g fw (room + 1) p s c =
      let r := visitBelow g fw room p s t.node ds c
      if r.1.chain.isSome then (r.1.below s, r.2)
      else if r.1.cutsFrom p.length && !r.1.truncated then (.resolved, r.2.resolve s)
      else (r.1, r.2.finish s r.1.truncated) := by
  rw [expand.eq_def, if_neg (mt List.contains_iff_mem.1 harr.not_resolved)]
  simp only [harr.not_finished, harr.target, harr.not_widened, he]
  rfl

/-- A service that the walk enters is reported iff something is missing below it. -/
theorem chain_expand_of_arrives :
    (expand g fw (room + 1) p s c).1.chain =
      (visitBelow g fw room p s t.node ds c).1.chain.map (s :: ·) := by
  rw [expand_eq_of_arrives harr he]
  cases hchain : (visitBelow g fw room p s t.node ds c).1.chain with
  | some tail => simp [Visit.below, hchain]
  | none =>
    simp only [hchain, Option.isSome_none, Bool.false_eq_true, if_false, Option.map_none]
    split
    · rfl
    · exact hchain

/-- A service that the walk enters and that is not resolved for good is walked, unless something is
missing below it. -/
theorem walked_expand_of_arrives (hres : s ∉ (expand g fw (room + 1) p s c).2.resolved) :
    (expand g fw (room + 1) p s c).2.walked =
      if (visitBelow g fw room p s t.node ds c).1.chain.isSome then
        (visitBelow g fw room p s t.node ds c).2.walked
      else s :: (visitBelow g fw room p s t.node ds c).2.walked := by
  rw [expand_eq_of_arrives harr he] at hres ⊢
  simp only at hres ⊢
  split
  · rfl
  · next hnone =>
    rw [if_neg hnone] at hres
    split
    · next hcuts =>
      rw [if_pos hcuts] at hres
      exact absurd List.mem_cons_self hres
    · rfl

end Expand

theorem expand_expands (g : Graph) (fw : FrameworkServices) (room : Nat) (p : Path)
    (s : ServiceIdentity) (c : Cache) :
    Expands g fw p s c room (expand g fw room p s c) := by
  rw [expand.eq_def]
  split
  · next h => exact .known (List.contains_iff_mem.1 h)
  · next h =>
    have hr : s ∉ c.resolved := fun hm => h (List.contains_iff_mem.2 hm)
    split
    · next truncated hf => exact .walkedBefore hr hf
    · next hf =>
      split
      · next ht => exact .unregistered hr hf ht
      · next t ht =>
        split
        · next depth hw => exact .widened hr hf ht hw
        · next hw =>
          have harr : Arrives g p s c t := ⟨hr, hf, ht, hw⟩
          split
          · next he => exact .leaf harr he
          · next ds he =>
            cases room with
            | zero => exact .tooDeep harr he
            | succ room =>
              -- the visits below decide between the last three ways
              generalize hv : visitBelow g fw room p s t.node ds c = vc
              obtain ⟨v, c'⟩ := vc
              simp only [visitBelow] at hv
              simp only [hv]
              split
              · next hc => exact .broken harr he hv hc
              · next hc =>
                have hc : v.chain = none := by simpa using hc
                split
                · next hlow =>
                  rw [Bool.and_eq_true, Bool.not_eq_true'] at hlow
                  exact .settled harr he hv hc hlow.1 hlow.2
                · next hlow =>
                  refine .pending harr he hv hc ?_
                  simpa [Bool.and_eq_true, Decidable.or_iff_not_imp_left] using hlow

end Resolvability

end Wiring
