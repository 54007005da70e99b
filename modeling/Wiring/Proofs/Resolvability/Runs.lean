import Wiring.Proofs.Resolvability.Roots

/-!
# The walk as a run

A run of the walk changes a state: a service is put on the path before its dependencies are visited
and taken off afterwards, also where something is found missing, and the limit is compared with the
length of the path. No number bounds the run beforehand; that it ends is shown here, from the limit
and from the path being given back by every visit.

Results:
1. `Runs.path_eq`: a run leaves the path as it found it.
2. `Runs.outcome_eq`: every run ends as the walk does.
3. `exists_runs`: there is always a run.
4. `Runs.passes`: each state of a run comes from the one before by one change, and so remembers what
   that did.
-/

namespace Wiring

namespace Resolvability

/-! ## Runs -/

/-- What the walk changes: the path, and what it remembers. -/
structure State where
  path : Path
  cache : Cache

namespace State

/-- Nothing is on the path, and only services resolved from every path are known. -/
def start (resolved : List ServiceIdentity) : State :=
  ⟨[], .start resolved⟩

/-- The service is put on the path. -/
def enter (w : State) (s : ServiceIdentity) (n : Node) : State :=
  ⟨w.path ++ [(s, n)], w.cache.enter s⟩

/-- The last service is taken off the path. -/
def leave (w : State) : State :=
  ⟨w.path.dropLast, w.cache⟩

/-- The service is resolved from every path. -/
def resolve (w : State) (s : ServiceIdentity) : State :=
  ⟨w.path, w.cache.resolve s⟩

/-- The service was walked. -/
def finish (w : State) (s : ServiceIdentity) (truncated : Bool) : State :=
  ⟨w.path, w.cache.finish s truncated⟩

theorem services_enter (w : State) (s : ServiceIdentity) (n : Node) :
    Path.services (w.enter s n).path = Path.services w.path ++ [s] :=
  Path.services_concat w.path s n

theorem services_leave_sublist (w : State) :
    (Path.services w.leave.path).Sublist (Path.services w.path) :=
  (List.dropLast_sublist w.path).map Prod.fst

end State

/-- What there is to visit. -/
inductive Job where
  | service (s : ServiceIdentity)
  | dependency (d : Dependency)
  | dependencies (ds : List Dependency)

/-- `Runs g fw limit job w moments v w'`: the visit of `job` from the state `w` passes through the
states `moments`, one for each change, and ends with `v` in the state `w'`. -/
inductive Runs (g : Graph) (fw : FrameworkServices) (limit : Nat) :
    Job → State → List State → Visit → State → Prop
  -- services that are not entered
  | known {s : ServiceIdentity} {w : State} : s ∈ w.cache.resolved →
      Runs g fw limit (.service s) w [] .resolved w
  | walkedBefore {s : ServiceIdentity} {w : State} {truncated : Bool} : s ∉ w.cache.resolved →
      w.cache.finished.lookup s = some truncated →
      Runs g fw limit (.service s) w [] ⟨none, some 0, truncated⟩ w
  | unregistered {s : ServiceIdentity} {w : State} : s ∉ w.cache.resolved →
      w.cache.finished.lookup s = none → g.resolveTarget? s = none →
      Runs g fw limit (.service s) w [] .resolved w
  | widened {s : ServiceIdentity} {w : State} {t : Target} {depth : Nat} : s ∉ w.cache.resolved →
      w.cache.finished.lookup s = none → g.resolveTarget? s = some t →
      widened? w.path t.node t.closingArgs = some depth →
      Runs g fw limit (.service s) w [] (.cutAt depth) w
  | leaf {s : ServiceIdentity} {w : State} {t : Target} : Arrives g w.path s w.cache t →
      expandable? g t = none →
      Runs g fw limit (.service s) w [w.resolve s] .resolved (w.resolve s)
  | tooDeep {s : ServiceIdentity} {w : State} {t : Target} {ds : List Dependency} :
      Arrives g w.path s w.cache t → expandable? g t = some ds → limit ≤ w.path.length →
      Runs g fw limit (.service s) w [] ⟨none, some 0, true⟩ w
  -- services that are entered
  | broken {s : ServiceIdentity} {w w' : State} {t : Target} {ds : List Dependency}
      {moments : List State} {v : Visit} : Arrives g w.path s w.cache t →
      expandable? g t = some ds → w.path.length < limit →
      Runs g fw limit (.dependencies ds) (w.enter s t.node) moments v w' → v.chain.isSome →
      Runs g fw limit (.service s) w (w.enter s t.node :: (moments ++ [w'.leave])) (v.below s)
        w'.leave
  | settled {s : ServiceIdentity} {w w' : State} {t : Target} {ds : List Dependency}
      {moments : List State} {v : Visit} : Arrives g w.path s w.cache t →
      expandable? g t = some ds → w.path.length < limit →
      Runs g fw limit (.dependencies ds) (w.enter s t.node) moments v w' → v.chain = none →
      v.cutsFrom w.path.length → v.truncated = false →
      Runs g fw limit (.service s) w
        (w.enter s t.node :: (moments ++ [w'.leave, w'.leave.resolve s])) .resolved
        (w'.leave.resolve s)
  | pending {s : ServiceIdentity} {w w' : State} {t : Target} {ds : List Dependency}
      {moments : List State} {v : Visit} : Arrives g w.path s w.cache t →
      expandable? g t = some ds → w.path.length < limit →
      Runs g fw limit (.dependencies ds) (w.enter s t.node) moments v w' → v.chain = none →
      (v.cutsFrom w.path.length = false ∨ v.truncated) →
      Runs g fw limit (.service s) w
        (w.enter s t.node :: (moments ++ [w'.leave, w'.leave.finish s v.truncated])) v
        (w'.leave.finish s v.truncated)
  -- a dependency is answered at once, or its service is visited
  | answered {d : Dependency} {w : State} {v : Visit} :
      (∀ expand c, visitDependency g fw w.path expand d c = (v, c)) →
      Runs g fw limit (.dependency d) w [] v w
  | asked {d : Dependency} {w w' : State} {moments : List State} {v : Visit} :
      d.required ∉ Path.services w.path →
      (∀ expand c, visitDependency g fw w.path expand d c = expand d.required c) →
      Runs g fw limit (.service d.required) w moments v w' →
      Runs g fw limit (.dependency d) w moments v w'
  -- dependencies are visited up to the first that is missing
  | done {w : State} : Runs g fw limit (.dependencies []) w [] .resolved w
  | stopped {d : Dependency} {ds : List Dependency} {w w' : State} {moments : List State}
      {v : Visit} : Runs g fw limit (.dependency d) w moments v w' → v.chain.isSome →
      Runs g fw limit (.dependencies (d :: ds)) w moments v w'
  | next {d : Dependency} {ds : List Dependency} {w w₁ w₂ : State} {moments₁ moments₂ : List State}
      {v₁ v₂ : Visit} : Runs g fw limit (.dependency d) w moments₁ v₁ w₁ → v₁.chain = none →
      Runs g fw limit (.dependencies ds) w₁ moments₂ v₂ w₂ →
      Runs g fw limit (.dependencies (d :: ds)) w (moments₁ ++ moments₂) (v₁.andThen v₂) w₂

section Runs

variable {g : Graph} {fw : FrameworkServices} {limit : Nat} {job : Job} {w w' : State}
  {moments : List State} {v : Visit}

theorem State.path_leave {s : ServiceIdentity} {n : Node} (hpath : w'.path = (w.enter s n).path) :
    w'.leave.path = w.path := by
  show w'.path.dropLast = w.path
  rw [hpath]
  exact List.dropLast_concat

/-- A run leaves the path as it found it. -/
theorem Runs.path_eq (h : Runs g fw limit job w moments v w') : w'.path = w.path := by
  induction h with
  | known _ | walkedBefore _ _ | unregistered _ _ _ | widened _ _ _ _ | leaf _ _ | tooDeep _ _ _
  | answered _ | done => rfl
  | broken _ _ _ _ _ ih | settled _ _ _ _ _ _ _ ih | pending _ _ _ _ _ _ ih =>
    exact State.path_leave ih
  | asked _ _ _ ih | stopped _ _ ih => exact ih
  | next _ _ _ ih₁ ih₂ => exact ih₂.trans ih₁

/-! ## Runs and the walk -/

/-- What the walk answers for a job on a path with the given room. -/
def Job.outcome (g : Graph) (fw : FrameworkServices) (room : Nat) (p : Path) (c : Cache) :
    Job → Visit × Cache
  | .service s => expand g fw room p s c
  | .dependency d => visitDependency g fw p (expand g fw room p) d c
  | .dependencies ds => visitAll (visitDependency g fw p (expand g fw room p)) ds c

/-- Below a service that is entered, there is room for one less. -/
theorem exists_visitBelow_eq {room : Nat} {s : ServiceIdentity} {n : Node} {ds : List Dependency}
    (hroom : w.path.length + room = limit) (hlt : w.path.length < limit)
    (ih : ∀ {room : Nat}, (w.enter s n).path.length + room = limit →
      (Job.dependencies ds).outcome g fw room (w.enter s n).path (w.enter s n).cache =
        (v, w'.cache)) :
    ∃ m, room = m + 1 ∧ visitBelow g fw m w.path s n ds w.cache = (v, w'.cache) := by
  cases room with
  | zero => exact absurd hroom (Nat.ne_of_lt hlt)
  | succ m =>
    refine ⟨m, rfl, ih ?_⟩
    show (w.path ++ [(s, n)]).length + m = limit
    rw [List.length_append, List.length_singleton, Nat.add_assoc, Nat.add_comm 1 m]
    exact hroom

/-- Every run ends as the walk does. -/
theorem Runs.outcome_eq (h : Runs g fw limit job w moments v w') {room : Nat}
    (hroom : w.path.length + room = limit) :
    job.outcome g fw room w.path w.cache = (v, w'.cache) := by
  induction h generalizing room with
  | known h => exact expand_of_mem_resolved h
  | walkedBefore hr hf => exact expand_of_lookup_eq_some hr hf
  | unregistered hr hf ht => exact expand_of_unregistered hr hf ht
  | widened hr hf ht hw => exact expand_of_widened hr hf ht hw
  | leaf harr he => exact expand_of_leaf harr he
  | tooDeep harr he hlimit =>
    obtain rfl : room = 0 := by omega
    exact expand_zero_of_arrives harr he
  | broken harr he hlt _ hsome ih =>
    obtain ⟨m, rfl, hbelow⟩ := exists_visitBelow_eq hroom hlt ih
    refine (expand_eq_of_arrives harr he).trans ?_
    simp only [hbelow, hsome, if_true]
    rfl
  | settled harr he hlt _ hnone hcuts htrunc ih =>
    obtain ⟨m, rfl, hbelow⟩ := exists_visitBelow_eq hroom hlt ih
    refine (expand_eq_of_arrives harr he).trans ?_
    simp only [hbelow, hnone, hcuts, htrunc, Option.isSome_none, Bool.false_eq_true, if_false,
      Bool.not_false, Bool.and_self, if_true]
    rfl
  | @pending _ w _ _ _ _ v harr he hlt _ hnone hopen ih =>
    obtain ⟨m, rfl, hbelow⟩ := exists_visitBelow_eq hroom hlt ih
    have hkept : (v.cutsFrom w.path.length && !v.truncated) = false := by
      rcases hopen with hcuts | htrunc
      · rw [hcuts, Bool.false_and]
      · rw [htrunc, Bool.not_true, Bool.and_false]
    refine (expand_eq_of_arrives harr he).trans ?_
    simp only [hbelow, hnone, hkept, Option.isSome_none, Bool.false_eq_true, if_false]
    rfl
  | answered h => exact h _ _
  | asked _ h _ ih => exact (h _ _).trans (ih hroom)
  | done => rfl
  | @stopped d ds w w' _ v _ hsome ih =>
    have hd : visitDependency g fw w.path (expand g fw room w.path) d w.cache = (v, w'.cache) :=
      ih hroom
    exact visitAll_cons_of_isSome ds hd hsome
  | @next d ds w w₁ w₂ _ _ v₁ v₂ hrun hnone _ ih₁ ih₂ =>
    have hd : visitDependency g fw w.path (expand g fw room w.path) d w.cache = (v₁, w₁.cache) :=
      ih₁ hroom
    -- the others are visited from the same path
    have hds : (Job.dependencies ds).outcome g fw room w.path w₁.cache = (v₂, w₂.cache) :=
      hrun.path_eq ▸ ih₂ (hrun.path_eq ▸ hroom)
    refine (visitAll_cons_of_none ds hd hnone).trans ?_
    show (v₁.andThen ((Job.dependencies ds).outcome g fw room w.path w₁.cache).1,
      ((Job.dependencies ds).outcome g fw room w.path w₁.cache).2) = _
    rw [hds]

/-! ## There is always a run -/

/-- Dependencies can be visited from every state with the path if services can. -/
theorem exists_runs_dependencies {p : Path}
    (hservice : ∀ (s : ServiceIdentity) (w : State), w.path = p →
      ∃ moments v w', Runs g fw limit (.service s) w moments v w')
    (ds : List Dependency) (hw : w.path = p) :
    ∃ moments v w', Runs g fw limit (.dependencies ds) w moments v w' := by
  induction ds generalizing w with
  | nil => exact ⟨_, _, _, .done⟩
  | cons d ds ih =>
    obtain ⟨moments, v, w', hd⟩ :
        ∃ moments v w', Runs g fw limit (.dependency d) w moments v w' := by
      rcases visitDependency_below_or_flat g fw w.path d with ⟨-, -, hx, -, heq⟩ | ⟨v, -, heq⟩
      · obtain ⟨moments, v, w', hrun⟩ := hservice d.required w hw
        exact ⟨moments, v, w', .asked hx heq hrun⟩
      · exact ⟨_, v, w, .answered heq⟩
    cases hchain : v.chain with
    | some chain => exact ⟨_, _, _, .stopped hd (by rw [hchain]; rfl)⟩
    | none =>
      -- the first visit gives the path back, so that the others start from it again
      obtain ⟨moments', v', w'', hds⟩ := ih (hd.path_eq.trans hw)
      exact ⟨_, _, _, .next hd hchain hds⟩

/-- A service that the walk arrives at and has dependencies to visit can be entered. -/
theorem exists_runs_of_arrives {s : ServiceIdentity} {t : Target} {ds : List Dependency}
    (harr : Arrives g w.path s w.cache t) (he : expandable? g t = some ds)
    (hbelow : w.path.length < limit →
      ∃ moments v w', Runs g fw limit (.dependencies ds) (w.enter s t.node) moments v w') :
    ∃ moments v w', Runs g fw limit (.service s) w moments v w' := by
  by_cases hlt : w.path.length < limit
  · obtain ⟨moments, v, w', hrun⟩ := hbelow hlt
    cases hchain : v.chain with
    | some chain => exact ⟨_, _, _, .broken harr he hlt hrun (by rw [hchain]; rfl)⟩
    | none =>
      cases htrunc : v.truncated with
      | true => exact ⟨_, _, _, .pending harr he hlt hrun hchain (.inr htrunc)⟩
      | false =>
        cases hcuts : v.cutsFrom w.path.length with
        | true => exact ⟨_, _, _, .settled harr he hlt hrun hchain hcuts htrunc⟩
        | false => exact ⟨_, _, _, .pending harr he hlt hrun hchain (.inl hcuts)⟩
  · exact ⟨_, _, _, .tooDeep harr he (Nat.le_of_not_lt hlt)⟩

/-- By induction on the room that the path leaves below the limit. -/
theorem exists_runs (s : ServiceIdentity) (w : State) :
    ∃ moments v w', Runs g fw limit (.service s) w moments v w' := by
  induction hroom : limit - w.path.length using Nat.strongRecOn generalizing s w with
  | ind room ih =>
    by_cases hr : s ∈ w.cache.resolved
    · exact ⟨_, _, _, .known hr⟩
    cases hf : w.cache.finished.lookup s with
    | some truncated => exact ⟨_, _, _, .walkedBefore hr hf⟩
    | none =>
      cases ht : g.resolveTarget? s with
      | none => exact ⟨_, _, _, .unregistered hr hf ht⟩
      | some t =>
        cases hw : widened? w.path t.node t.closingArgs with
        | some depth => exact ⟨_, _, _, .widened hr hf ht hw⟩
        | none =>
          have harr : Arrives g w.path s w.cache t := ⟨hr, hf, ht, hw⟩
          cases he : expandable? g t with
          | none => exact ⟨_, _, _, .leaf harr he⟩
          | some ds =>
            refine exists_runs_of_arrives harr he (fun hlt => ?_)
            refine exists_runs_dependencies (p := w.path ++ [(s, t.node)]) ?_ ds rfl
            intro x w₁ hpath
            refine ih (limit - w₁.path.length) ?_ x w₁ rfl
            rw [hpath, List.length_append, List.length_singleton]
            omega

/-! ## One change after the other -/

/-- One change of the state. -/
inductive State.Changes (w : State) : State → Prop
  | enter (s : ServiceIdentity) (n : Node) : State.Changes w (w.enter s n)
  | leave : State.Changes w w.leave
  | resolve (s : ServiceIdentity) : State.Changes w (w.resolve s)
  | finish (s : ServiceIdentity) (truncated : Bool) : State.Changes w (w.finish s truncated)

/-- Nothing that was resolved, walked or entered before is forgotten. -/
structure State.Grows (w w' : State) : Prop where
  resolved : w.cache.resolved.IsSuffix w'.cache.resolved
  finished : w.cache.finished.IsSuffix w'.cache.finished
  entered : w.cache.entered.IsSuffix w'.cache.entered

theorem State.Grows.trans {w'' : State} (h : w.Grows w') (h' : w'.Grows w'') : w.Grows w'' :=
  ⟨h.resolved.trans h'.resolved, h.finished.trans h'.finished, h.entered.trans h'.entered⟩

theorem State.Changes.grows (h : w.Changes w') : w.Grows w' := by
  cases h with
  | enter s n => exact ⟨List.suffix_rfl, List.suffix_rfl, List.suffix_cons s _⟩
  | leave => exact ⟨List.suffix_rfl, List.suffix_rfl, List.suffix_rfl⟩
  | resolve s => exact ⟨List.suffix_cons s _, List.suffix_rfl, List.suffix_rfl⟩
  | finish s truncated => exact ⟨List.suffix_rfl, List.suffix_cons _ _, List.suffix_rfl⟩

/-- From the one state to the other through the states between, by one change at a time. -/
inductive Passes : State → List State → State → Prop
  | refl (w : State) : Passes w [] w
  | step {w w₁ w₂ : State} {moments : List State} : w.Changes w₁ → Passes w₁ moments w₂ →
      Passes w (w₁ :: moments) w₂

theorem Passes.append {w₁ w₂ : State} {moments₁ moments₂ : List State}
    (h₁ : Passes w moments₁ w₁) (h₂ : Passes w₁ moments₂ w₂) :
    Passes w (moments₁ ++ moments₂) w₂ := by
  induction h₁ with
  | refl _ => exact h₂
  | step hc _ ih => exact .step hc (ih h₂)

/-- A service is put on the path and taken off again, with the visits below it between. -/
theorem Passes.around {s : ServiceIdentity} {n : Node} {ending : List State} {w₁ : State}
    (h : Passes (w.enter s n) moments w₁) (hend : Passes w₁.leave ending w') :
    Passes w (w.enter s n :: (moments ++ w₁.leave :: ending)) w' :=
  .step (.enter s n) (h.append (.step .leave hend))

theorem Runs.passes (h : Runs g fw limit job w moments v w') : Passes w moments w' := by
  induction h with
  | known _ | walkedBefore _ _ | unregistered _ _ _ | widened _ _ _ _ | tooDeep _ _ _
  | answered _ | done => exact .refl _
  | leaf _ _ => exact .step (.resolve _) (.refl _)
  | broken _ _ _ _ _ ih => exact ih.around (.refl _)
  | settled _ _ _ _ _ _ _ ih => exact ih.around (.step (.resolve _) (.refl _))
  | pending _ _ _ _ _ _ ih => exact ih.around (.step (.finish _ _) (.refl _))
  | asked _ _ _ ih | stopped _ _ ih => exact ih
  | next _ _ _ ih₁ ih₂ => exact ih₁.append ih₂

end Runs

end Resolvability

end Wiring
