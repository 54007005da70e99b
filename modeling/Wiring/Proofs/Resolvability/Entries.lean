import Wiring.Proofs.Resolvability.Runs

/-!
# Each service is entered once

That a service is not entered twice rests on an account of those that have been entered. Each of
them is still on the path, or resolved, or was walked; a service on the path is cut, and the others
are answered from what is remembered. Only when something is missing does the account break, and
then nothing is entered any more.

Results:
1. `Runs.orderly`: at every moment of a run the services on the path are distinct and keep to the
   limit, and none was entered twice.
2. `Passes.pairwise`: a service that is off the path again stays off it.
3. `entered_once`: what these and the laws of runs say of the walk of one root.
4. `root_entered_at_limit_zero`: a limit of zero counts as one.
-/

namespace Wiring

namespace Resolvability

section Runs

variable {g : Graph} {fw : FrameworkServices} {limit : Nat} {job : Job} {w w' : State}
  {moments : List State} {v : Visit}

/-! ## No service is entered twice -/

/-- What holds at every moment. The services on the path are distinct, no more than the limit, and
on the record of those entered, which names none twice. -/
structure State.Proper (limit : Nat) (w : State) : Prop where
  nodup_path : (Path.services w.path).Nodup
  length_le : w.path.length ≤ limit
  on_record : Path.services w.path ⊆ w.cache.entered
  nodup_entered : w.cache.entered.Nodup

/-- Every service that was entered is resolved, was walked or is still on the path. -/
def State.Accounted (w : State) : Prop :=
  ∀ x ∈ w.cache.entered, x ∈ w.cache.resolved ∨ x ∈ w.cache.walked ∨ x ∈ Path.services w.path

section Proper

variable {s : ServiceIdentity} {n : Node} {t : Target}

theorem State.Proper.start (resolved : List ServiceIdentity) :
    (State.start resolved).Proper limit where
  nodup_path := List.nodup_nil
  length_le := Nat.zero_le _
  on_record := List.nil_subset _
  nodup_entered := List.nodup_nil

theorem State.Proper.enter (hw : w.Proper limit) (hacc : w.Accounted)
    (harr : Arrives g w.path s w.cache t) (hs : s ∉ Path.services w.path)
    (hlt : w.path.length < limit) : (w.enter s t.node).Proper limit where
  nodup_path := by
    rw [w.services_enter, List.nodup_append]
    refine ⟨hw.nodup_path, List.nodup_singleton s, ?_⟩
    rintro x hx y hy rfl
    exact hs (List.mem_singleton.1 hy ▸ hx)
  length_le := by
    show (w.path ++ [(s, t.node)]).length ≤ limit
    rw [List.length_append, List.length_singleton]
    exact hlt
  on_record := by
    rw [w.services_enter]
    intro x hx
    rcases List.mem_append.1 hx with hx | hx
    · exact List.mem_cons_of_mem s (hw.on_record hx)
    · rw [List.mem_singleton.1 hx]
      exact List.mem_cons_self
  nodup_entered := by
    refine List.nodup_cons.2 ⟨fun hentered => ?_, hw.nodup_entered⟩
    rcases hacc s hentered with hres | hwalked | hpath
    · exact harr.not_resolved hres
    · exact Cache.lookup_eq_none_iff.1 harr.not_finished hwalked
    · exact hs hpath

theorem State.Accounted.enter (hacc : w.Accounted) : (w.enter s n).Accounted := by
  intro x hx
  rw [w.services_enter, List.mem_append, List.mem_singleton]
  rcases List.mem_cons.1 hx with rfl | hx
  · exact .inr (.inr (.inr rfl))
  · exact (hacc x hx).imp_right (fun h => h.imp_right .inl)

theorem State.Proper.leave (hw : w.Proper limit) : w.leave.Proper limit where
  nodup_path := hw.nodup_path.sublist w.services_leave_sublist
  length_le := Nat.le_trans (List.dropLast_sublist w.path).length_le hw.length_le
  on_record _ hx := hw.on_record (w.services_leave_sublist.subset hx)
  nodup_entered := hw.nodup_entered

theorem State.Proper.resolve (hw : w.Proper limit) : (w.resolve s).Proper limit :=
  ⟨hw.nodup_path, hw.length_le, hw.on_record, hw.nodup_entered⟩

theorem State.Proper.finish (hw : w.Proper limit) (truncated : Bool) :
    (w.finish s truncated).Proper limit :=
  ⟨hw.nodup_path, hw.length_le, hw.on_record, hw.nodup_entered⟩

/-- When a service is taken off the path, it is the only one that is not accounted for. -/
theorem State.Accounted.leave (hacc : w'.Accounted) (hpath : w'.path = (w.enter s n).path)
    {x : ServiceIdentity} (hx : x ∈ w'.cache.entered) :
    x = s ∨ x ∈ w'.cache.resolved ∨ x ∈ w'.cache.walked ∨ x ∈ Path.services w.path := by
  have h := hacc x hx
  rw [hpath, w.services_enter, List.mem_append, List.mem_singleton] at h
  rcases h with hres | hwalked | hon | hs
  · exact .inr (.inl hres)
  · exact .inr (.inr (.inl hwalked))
  · exact .inr (.inr (.inr hon))
  · exact .inl hs

theorem State.Accounted.leave_resolve (hacc : w'.Accounted)
    (hpath : w'.path = (w.enter s n).path) : (w'.leave.resolve s).Accounted := by
  intro x hx
  show x ∈ s :: w'.cache.resolved ∨ x ∈ w'.cache.walked ∨ x ∈ Path.services w'.leave.path
  rw [State.path_leave hpath]
  rcases hacc.leave hpath hx with rfl | hres | hrest
  · exact .inl List.mem_cons_self
  · exact .inl (List.mem_cons_of_mem s hres)
  · exact .inr hrest

theorem State.Accounted.leave_finish (hacc : w'.Accounted)
    (hpath : w'.path = (w.enter s n).path) (truncated : Bool) :
    (w'.leave.finish s truncated).Accounted := by
  intro x hx
  show x ∈ w'.cache.resolved ∨ x ∈ s :: w'.cache.walked ∨ x ∈ Path.services w'.leave.path
  rw [State.path_leave hpath]
  rcases hacc.leave hpath hx with rfl | hres | hwalked | hon
  · exact .inr (.inl List.mem_cons_self)
  · exact .inl hres
  · exact .inr (.inl (List.mem_cons_of_mem s hwalked))
  · exact .inr (.inr hon)

end Proper

/-- A service to be visited is not on the path. -/
def Job.OffPath (p : Path) : Job → Prop
  | .service s => s ∉ Path.services p
  | .dependency _ => True
  | .dependencies _ => True

/-- What holds of a run from a state that is proper and accounted for. -/
structure Orderly (limit : Nat) (moments : List State) (v : Visit) (w' : State) : Prop where
  moments : ∀ m ∈ moments, m.Proper limit
  proper : w'.Proper limit
  accounted : v.chain = none → w'.Accounted

theorem Orderly.unchanged (hw : w.Proper limit) (hacc : v.chain = none → w.Accounted) :
    Orderly limit [] v w :=
  ⟨fun _ hm => absurd hm List.not_mem_nil, hw, hacc⟩

theorem Orderly.changed (hw : w.Proper limit) (hacc : v.chain = none → w.Accounted) :
    Orderly limit [w] v w :=
  ⟨List.forall_mem_singleton.2 hw, hw, hacc⟩

/-- The states while a service is on the path, and those after it. -/
theorem Orderly.around {s : ServiceIdentity} {n : Node} {w₁ : State} {ending : List State}
    {v' : Visit} (henter : (w.enter s n).Proper limit) (h : Orderly limit moments v w₁)
    (hend : Orderly limit ending v' w') :
    Orderly limit (w.enter s n :: (moments ++ w₁.leave :: ending)) v' w' where
  moments m hm := by
    rcases List.mem_cons.1 hm with rfl | hm
    · exact henter
    rcases List.mem_append.1 hm with hm | hm
    · exact h.moments m hm
    rcases List.mem_cons.1 hm with rfl | hm
    · exact h.proper.leave
    · exact hend.moments m hm
  proper := hend.proper
  accounted := hend.accounted

theorem Runs.orderly (h : Runs g fw limit job w moments v w') (hjob : job.OffPath w.path)
    (hw : w.Proper limit) (hacc : w.Accounted) : Orderly limit moments v w' := by
  induction h with
  | known _ | walkedBefore _ _ | unregistered _ _ _ | widened _ _ _ _ | tooDeep _ _ _
  | answered _ | done =>
    exact .unchanged hw (fun _ => hacc)
  | @leaf s _ _ _ _ =>
    refine .changed hw.resolve (fun _ x hx => ?_)
    exact (hacc x hx).imp_left (List.mem_cons_of_mem s)
  | broken harr _ hlt hrun hsome ih =>
    have henter := hw.enter hacc harr hjob hlt
    have hbelow := ih trivial henter hacc.enter
    refine hbelow.around henter (.unchanged hbelow.proper.leave (fun hnone => ?_))
    exact absurd (Option.map_eq_none_iff.1 hnone) (Option.isSome_iff_ne_none.1 hsome)
  | settled harr _ hlt hrun hnone _ _ ih =>
    have henter := hw.enter hacc harr hjob hlt
    have hbelow := ih trivial henter hacc.enter
    refine hbelow.around henter (.changed hbelow.proper.leave.resolve (fun _ => ?_))
    exact (hbelow.accounted hnone).leave_resolve hrun.path_eq
  | @pending _ _ _ _ _ _ v harr _ hlt hrun hnone _ ih =>
    have henter := hw.enter hacc harr hjob hlt
    have hbelow := ih trivial henter hacc.enter
    refine hbelow.around henter (.changed (hbelow.proper.leave.finish v.truncated) (fun _ => ?_))
    exact (hbelow.accounted hnone).leave_finish hrun.path_eq v.truncated
  | asked hx _ _ ih => exact ih hx hw hacc
  | stopped _ _ ih => exact ih trivial hw hacc
  | next _ hnone _ ih₁ ih₂ =>
    have h₁ := ih₁ trivial hw hacc
    have h₂ := ih₂ trivial h₁.proper (h₁.accounted hnone)
    refine ⟨fun m hm => ?_, h₂.proper, h₂.accounted⟩
    rcases List.mem_append.1 hm with hm | hm
    · exact h₁.moments m hm
    · exact h₂.moments m hm

/-! ## Moments of a run -/

/-- The one moment comes before the other: nothing is forgotten, and a service that was entered and
is off the path again stays off it. -/
structure State.Precedes (w w' : State) : Prop extends State.Grows w w' where
  off : ∀ s ∈ w.cache.entered, s ∉ Path.services w.path → s ∉ Path.services w'.path

theorem State.Precedes.trans {w'' : State} (h : w.Precedes w') (h' : w'.Precedes w'') :
    w.Precedes w'' where
  toGrows := h.toGrows.trans h'.toGrows
  off s hs hoff := h'.off s (h.entered.subset hs) (h.off s hs hoff)

/-- A service is entered only if it is not on record, since it would be there twice. -/
theorem State.Changes.precedes (h : w.Changes w') (hw' : w'.Proper limit) : w.Precedes w' where
  toGrows := h.grows
  off x hx hoff := by
    cases h with
    | enter s n =>
      rw [w.services_enter]
      intro hon
      rcases List.mem_append.1 hon with hon | hon
      · exact hoff hon
      · exact (List.nodup_cons.1 hw'.nodup_entered).1 (List.mem_singleton.1 hon ▸ hx)
    | leave => exact fun hon => hoff (w.services_leave_sublist.subset hon)
    | resolve s => exact hoff
    | finish s truncated => exact hoff

theorem Passes.pairwise (h : Passes w moments w') (hproper : ∀ m ∈ moments, m.Proper limit) :
    (w :: moments).Pairwise State.Precedes := by
  induction h with
  | refl w => exact List.pairwise_singleton _ w
  | step hc _ ih =>
    obtain ⟨hfirst, hrest⟩ := List.forall_mem_cons.1 hproper
    have hpairs := ih hrest
    have hstep := hc.precedes hfirst
    refine List.pairwise_cons.2 ⟨fun m hm => ?_, hpairs⟩
    rcases List.mem_cons.1 hm with rfl | hm
    · exact hstep
    · exact hstep.trans ((List.pairwise_cons.1 hpairs).1 m hm)

end Runs

/-! ## The walk of one root -/

/-- The walk of a root enters each service at most once, in every graph, with every list of services
of the host and every limit. It always ends, as `expand` says. While it goes on, what is remembered
only grows; the services on the path are distinct, and at most as many as the limit within its
bounds; and a service that is taken off the path is never put on it again, so that the record of
those entered names none twice. The visit of a service gives the path back as it was. -/
theorem entered_once (g : Graph) (fw : FrameworkServices) (depth : Nat)
    (resolved : List ServiceIdentity) (root : ServiceIdentity) :
    let limit := clampDepth depth
    let start := State.start resolved
    (∃ moments v w, Runs g fw limit (.service root) start moments v w) ∧
    (∀ moments v w, Runs g fw limit (.service root) start moments v w →
      expand g fw limit [] root (.start resolved) = (v, w.cache) ∧
      (start :: moments).Pairwise State.Grows ∧
      (∀ m ∈ start :: moments, (Path.services m.path).Nodup ∧ m.path.length ≤ limit) ∧
      (∀ m₁ m₂ m₃, [m₁, m₂, m₃].Sublist (start :: moments) → ∀ s ∈ Path.services m₁.path,
        s ∉ Path.services m₂.path → s ∉ Path.services m₃.path) ∧
      w.cache.entered.Nodup) ∧
    ∀ s w moments v w', Runs g fw limit (.service s) w moments v w' → w'.path = w.path := by
  intro limit start
  refine ⟨exists_runs root start, fun moments v w h => ?_, fun s w moments v w' h => h.path_eq⟩
  have hstart : start.Proper limit := .start resolved
  have hacc : start.Accounted := fun x hx => absurd hx List.not_mem_nil
  have horderly := h.orderly List.not_mem_nil hstart hacc
  have hproper : ∀ m ∈ start :: moments, m.Proper limit :=
    List.forall_mem_cons.2 ⟨hstart, horderly.moments⟩
  have hpairs := h.passes.pairwise horderly.moments
  refine ⟨h.outcome_eq (Nat.zero_add limit), hpairs.imp State.Precedes.toGrows, fun m hm => ?_, ?_,
    horderly.proper.nodup_entered⟩
  · exact ⟨(hproper m hm).nodup_path, (hproper m hm).length_le⟩
  · intro m₁ m₂ m₃ hsub s hs hoff
    obtain ⟨hfirst, hlater⟩ := List.pairwise_cons.1 (hpairs.sublist hsub)
    have hentered : s ∈ m₁.cache.entered :=
      (hproper m₁ (hsub.subset List.mem_cons_self)).on_record hs
    have h₁₂ : m₁.Precedes m₂ := hfirst m₂ List.mem_cons_self
    have h₂₃ : m₂.Precedes m₃ := (List.pairwise_cons.1 hlater).1 m₃ List.mem_cons_self
    exact h₂₃.off s (h₁₂.entered.subset hentered) hoff

/-- Zero as the limit counts as one: the root is on the path all the same, and what is missing below
it is reported. -/
theorem root_entered_at_limit_zero :
    let type (name : String) : TypeRef := .closed name []
    let g := Graph.build [asItself (type "A") 1] [constructedFrom (type "A") [type "B"]]
    (∃ moments v w, Runs g .disabled (clampDepth 0) (.service (.of (type "A"))) (.start [])
      moments v w ∧ ∃ m ∈ moments, 0 < m.path.length) ∧
    (findings g .disabled 0).length = 1 := by
  intro type g
  let r := asItself (type "A") 1
  let n : Node := ⟨0, r, [r]⟩
  have htarget : g.resolveTarget? (.of (type "A")) = some ⟨n, []⟩ := by decide +kernel
  have hmissing : g.resolveTarget? (.of (type "B")) = none := by decide +kernel
  have hposition : Path.position? [(.of (type "A"), n)] (.of (type "B")) = none := by decide
  have hdeps : expandable? g ⟨n, []⟩ = some [.require (type "B")] := by decide +kernel
  have hbelow : Runs g .disabled (clampDepth 0) (.dependency (.require (type "B")))
      ((State.start []).enter (.of (type "A")) n) [] (.missing (.of (type "B")))
      ((State.start []).enter (.of (type "A")) n) := by
    refine .answered (fun expand c => ?_)
    show visitDependency g .disabled [(.of (type "A"), n)] expand (.require (type "B")) c = _
    simp only [visitDependency, Dependency.require, hposition, hmissing]
    rfl
  have hrun : Runs g .disabled (clampDepth 0) (.service (.of (type "A"))) (.start []) _ _ _ :=
    .broken ⟨List.not_mem_nil, rfl, htarget, rfl⟩ hdeps (by decide) (.stopped hbelow rfl) rfl
  exact ⟨⟨_, _, _, hrun, _, List.mem_cons_self, Nat.one_pos⟩, by decide +kernel⟩

end Resolvability

end Wiring
