import Wiring.Proofs.Resolvability.Widening

/-!
# What the caches may hide

A walk that finds nothing missing has not looked below every service that it met: it was cut at the
services on the path and at those walked before. Nothing is lost if each service that still waits
for an answer is either on the path or was walked from the same root, and the least depth of a cut
tells how far up the answer has to come from. When no cut lies above a service, the services walked
below it wait only for each other, and then none of them leads to a missing service.

This holds of services from which no arguments grow, and of visits that the limit does not stop. So
what is resolved for good is safe in every graph and under every limit, those services apart from
which arguments grow.
-/

namespace Wiring

namespace Resolvability

/-- A chain of needs leads from the service to a missing one. -/
def Broken (g : Graph) (fw : FrameworkServices) (s : ServiceIdentity) : Prop :=
  ∃ chain, BrokenChain g fw (s :: chain)

namespace Cache

/-- No service that counts as resolved from every path is broken, unless arguments grow from it. -/
def Safe (c : Cache) (g : Graph) (fw : FrameworkServices) : Prop :=
  ∀ s ∈ c.resolved, NeverWidens g s → ¬ Broken g fw s

theorem safe_start_nil {g : Graph} {fw : FrameworkServices} : (Cache.start []).Safe g fw := by
  intro s hs
  exact absurd hs List.not_mem_nil

theorem Safe.resolve {c : Cache} {g : Graph} {fw : FrameworkServices} {s : ServiceIdentity}
    (hc : c.Safe g fw) (hs : NeverWidens g s → ¬ Broken g fw s) : (c.resolve s).Safe g fw := by
  intro x hx
  rcases List.mem_cons.1 hx with rfl | hx
  · exact hs
  · exact hc x hx

end Cache

/-! ## What a visit leaves open -/

/-- Nothing was found missing, and the limit did not stop the visit. -/
def Visit.Clears (v : Visit) : Prop :=
  v.chain = none ∧ v.truncated = false

/-- The visit was cut at a service on the path, or further up. -/
def CutsAt (p : Path) (v : Visit) (s : ServiceIdentity) : Prop :=
  ∃ low depth, v.low = some low ∧ low ≤ depth ∧ (Path.services p)[depth]? = some s

/-- The visit `v` on the path `p`, during which the services walked grow from `before` to `after`,
leaves open whether a service leads to a missing one. -/
inductive Pending (g : Graph) (p : Path) (before : List ServiceIdentity) (v : Visit)
    (after : List ServiceIdentity) (s : ServiceIdentity) : Prop
  /-- It was walked during the visit. -/
  | walked : s ∈ after → s ∉ before → Pending g p before v after s
  /-- It was walked before, and the visit was cut there. -/
  | walkedBefore : v.low = some 0 → s ∈ before → Pending g p before v after s
  /-- It is on the path, and the visit was cut there. -/
  | onPath : CutsAt p v s → Pending g p before v after s
  /-- The visit was cut because arguments grow from a service on the path. -/
  | widened {x : ServiceIdentity} : CutsAt p v x → ¬ NeverWidens g x → Pending g p before v after s

/-- The dependency is not missing itself, and if it leads to a missing service then that is left
open. -/
structure Answers (g : Graph) (fw : FrameworkServices) (p : Path) (before : List ServiceIdentity)
    (v : Visit) (after : List ServiceIdentity) (d : Dependency) : Prop where
  not_missing : ¬ Missing g fw d.required
  pending : d.isEnumerable = false → Broken g fw d.required → Pending g p before v after d.required

/-- All that the visit walked has been answered for, but for what is left open. -/
structure Covers (g : Graph) (fw : FrameworkServices) (p : Path) (before : List ServiceIdentity)
    (v : Visit) (after : List ServiceIdentity) : Prop where
  subset : before ⊆ after
  answers : ∀ s ∈ after, s ∉ before → Broken g fw s →
    ∀ d, Needs g s d → Answers g fw p before v after d

/-- No arguments grow from the services that the dependencies lead to. -/
def NeverWidenBelow (g : Graph) (ds : List Dependency) : Prop :=
  ∀ d ∈ ds, isMandatory d → d.isEnumerable = false → NeverWidens g d.required

/-- A visit of dependencies keeps broken services out of those resolved for good, and has an answer
for each dependency if it clears them. -/
structure Sees (g : Graph) (fw : FrameworkServices) (p : Path) (before : List ServiceIdentity)
    (ds : List Dependency) (r : Visit × Cache) : Prop where
  safe : r.2.Safe g fw
  covers : NeverWidenBelow g ds → r.1.Clears → Covers g fw p before r.1 r.2.walked
  answers : NeverWidenBelow g ds → r.1.Clears →
    ∀ d ∈ ds, isMandatory d → Answers g fw p before r.1 r.2.walked d

/-- The same for the visit of a service. -/
structure Settles (g : Graph) (fw : FrameworkServices) (p : Path) (before : List ServiceIdentity)
    (s : ServiceIdentity) (r : Visit × Cache) : Prop where
  safe : r.2.Safe g fw
  covers : NeverWidens g s → r.1.Clears → Covers g fw p before r.1 r.2.walked
  pending : NeverWidens g s → r.1.Clears → Broken g fw s → Pending g p before r.1 r.2.walked s

section Visits

variable {g : Graph} {fw : FrameworkServices} {p : Path} {v w : Visit} {s : ServiceIdentity}
variable {before between after : List ServiceIdentity} {d : Dependency}

theorem Covers.refl (v : Visit) : Covers g fw p before v before :=
  ⟨fun _ hs => hs, fun _ hs hns => absurd hs hns⟩

/-! ### Visits in a row -/

theorem Visit.low_andThen_left {low : Nat} (w : Visit) (h : v.low = some low) :
    ∃ low' ≤ low, (v.andThen w).low = some low' := by
  rw [Visit.andThen, h]
  cases w.low with
  | none => exact ⟨low, Nat.le_refl _, rfl⟩
  | some l => exact ⟨min low l, Nat.min_le_left _ _, rfl⟩

theorem Visit.low_andThen_right {low : Nat} (v : Visit) (h : w.low = some low) :
    ∃ low' ≤ low, (v.andThen w).low = some low' := by
  rw [Visit.andThen, h]
  cases v.low with
  | none => exact ⟨low, Nat.le_refl _, rfl⟩
  | some l => exact ⟨min l low, Nat.min_le_right _ _, rfl⟩

theorem Visit.Clears.of_andThen (hv : v.chain = none) (h : (v.andThen w).Clears) :
    v.Clears ∧ w.Clears := by
  obtain ⟨hchain, htrunc⟩ := h
  rw [Visit.andThen, Bool.or_eq_false_iff] at htrunc
  exact ⟨⟨hv, htrunc.1⟩, hchain, htrunc.2⟩

theorem CutsAt.andThen_left (w : Visit) (h : CutsAt p v s) : CutsAt p (v.andThen w) s := by
  obtain ⟨low, depth, hlow, hle, hs⟩ := h
  obtain ⟨low', hle', hlow'⟩ := Visit.low_andThen_left w hlow
  exact ⟨low', depth, hlow', Nat.le_trans hle' hle, hs⟩

theorem CutsAt.andThen_right (v : Visit) (h : CutsAt p w s) : CutsAt p (v.andThen w) s := by
  obtain ⟨low, depth, hlow, hle, hs⟩ := h
  obtain ⟨low', hle', hlow'⟩ := Visit.low_andThen_right v hlow
  exact ⟨low', depth, hlow', Nat.le_trans hle' hle, hs⟩

theorem Pending.andThen_left (w : Visit) (h : Pending g p before v between s)
    (hsub : between ⊆ after) : Pending g p before (v.andThen w) after s := by
  cases h with
  | walked hs hns => exact .walked (hsub hs) hns
  | walkedBefore hlow hs =>
    obtain ⟨low, hle, hlow⟩ := Visit.low_andThen_left w hlow
    obtain rfl := Nat.le_zero.1 hle
    exact .walkedBefore hlow hs
  | onPath hcut => exact .onPath (hcut.andThen_left w)
  | widened hcut hx => exact .widened (hcut.andThen_left w) hx

theorem Pending.andThen_right (v : Visit) (h : Pending g p between w after s)
    (hsub₁ : before ⊆ between) (hsub₂ : between ⊆ after) :
    Pending g p before (v.andThen w) after s := by
  cases h with
  | walked hs hns => exact .walked hs (fun hs => hns (hsub₁ hs))
  | walkedBefore hlow hs =>
    -- walked before the second visit: before the first one already, or during it
    by_cases hb : s ∈ before
    · obtain ⟨low, hle, hlow⟩ := Visit.low_andThen_right v hlow
      obtain rfl := Nat.le_zero.1 hle
      exact .walkedBefore hlow hb
    · exact .walked (hsub₂ hs) hb
  | onPath hcut => exact .onPath (hcut.andThen_right v)
  | widened hcut hx => exact .widened (hcut.andThen_right v) hx

theorem Answers.andThen_left (w : Visit) (h : Answers g fw p before v between d)
    (hsub : between ⊆ after) : Answers g fw p before (v.andThen w) after d :=
  ⟨h.not_missing, fun he hb => (h.pending he hb).andThen_left w hsub⟩

theorem Answers.andThen_right (v : Visit) (h : Answers g fw p between w after d)
    (hsub₁ : before ⊆ between) (hsub₂ : between ⊆ after) :
    Answers g fw p before (v.andThen w) after d :=
  ⟨h.not_missing, fun he hb => (h.pending he hb).andThen_right v hsub₁ hsub₂⟩

theorem Covers.andThen (h₁ : Covers g fw p before v between) (h₂ : Covers g fw p between w after) :
    Covers g fw p before (v.andThen w) after where
  subset _ hs := h₂.subset (h₁.subset hs)
  answers s hs hns hb d hd := by
    by_cases hs₁ : s ∈ between
    · exact (h₁.answers s hs₁ hns hb d hd).andThen_left w h₂.subset
    · exact (h₂.answers s hs hs₁ hb d hd).andThen_right v h₁.subset h₂.subset

theorem NeverWidenBelow.of_cons {ds : List Dependency} (h : NeverWidenBelow g (d :: ds)) :
    NeverWidenBelow g [d] ∧ NeverWidenBelow g ds := by
  constructor
  · intro d' hd'
    rw [List.mem_singleton.1 hd']
    exact h d List.mem_cons_self
  · intro d' hd'
    exact h d' (List.mem_cons_of_mem d hd')

theorem sees_visitAll {visit : Dependency → Cache → Visit × Cache} {ds : List Dependency}
    (hvisit : ∀ d ∈ ds, ∀ c, c.Safe g fw → Sees g fw p c.walked [d] (visit d c))
    {c : Cache} (hc : c.Safe g fw) :
    Sees g fw p c.walked ds (visitAll visit ds c) := by
  induction ds generalizing c with
  | nil => exact ⟨hc, fun _ _ => .refl _, fun _ _ d hd => absurd hd List.not_mem_nil⟩
  | cons d ds ih =>
    have hd := hvisit d List.mem_cons_self c hc
    rw [visitAll]
    simp only
    split
    · next hsome =>
      have hnot : ¬ (visit d c).1.Clears := fun h => Option.isSome_iff_ne_none.1 hsome h.1
      exact ⟨hd.safe, fun _ h => absurd h hnot, fun _ h => absurd h hnot⟩
    · next hnone =>
      have hnone : (visit d c).1.chain = none := by simpa using hnone
      have hds := ih (fun d' hd' => hvisit d' (List.mem_cons_of_mem d hd')) hd.safe
      refine ⟨hds.safe, fun hw h => ?_, fun hw h d' hd' hm => ?_⟩
      · obtain ⟨h₁, h₂⟩ := Visit.Clears.of_andThen hnone h
        exact (hd.covers hw.of_cons.1 h₁).andThen (hds.covers hw.of_cons.2 h₂)
      · obtain ⟨h₁, h₂⟩ := Visit.Clears.of_andThen hnone h
        have hsub := (hds.covers hw.of_cons.2 h₂).subset
        rcases List.mem_cons.1 hd' with rfl | hd'
        · exact (hd.answers hw.of_cons.1 h₁ d' List.mem_cons_self hm).andThen_left _ hsub
        · exact (hds.answers hw.of_cons.2 h₂ d' hd' hm).andThen_right _
            (hd.covers hw.of_cons.1 h₁).subset hsub

end Visits

/-! ## Services that wait only for each other -/

section Walk

variable {g : Graph} {fw : FrameworkServices}

theorem BrokenChain.broken {s : ServiceIdentity} {chain : List ServiceIdentity}
    (h : BrokenChain g fw (s :: chain)) : Broken g fw s :=
  ⟨chain, h⟩

theorem Broken.exists_needs {s : ServiceIdentity} (h : Broken g fw s) : ∃ d, Needs g s d := by
  obtain ⟨chain, h⟩ := h
  cases h with
  | last hd _ => exact ⟨_, hd⟩
  | cons hd _ _ => exact ⟨_, hd⟩

/-- What a walk finds missing is missing. -/
theorem broken_of_isSome_chain (hg : g.WellFormed) {room : Nat} {p : Path} {s : ServiceIdentity}
    {c : Cache} (hs : s ∉ Path.services p) (h : (expand g fw room p s c).1.chain.isSome) :
    Broken g fw s := by
  obtain ⟨chain, hchain⟩ := Option.isSome_iff_exists.1 h
  obtain ⟨tail, -, hb⟩ := (chainFrom_of_expand hg hs hchain).broken_head
  exact hb.broken

/-- What leads to a broken service is broken. -/
theorem Broken.of_leads {s x : ServiceIdentity} (hl : Leads g s x) (hx : Broken g fw x) :
    Broken g fw s := by
  obtain ⟨d, hd, he, rfl⟩ := hl
  obtain ⟨chain, hchain⟩ := hx
  exact (hchain.cons hd he).broken

/-- No service of a set leads to a missing one if none needs a missing one and each needs only
services of the set, as far as these lead to a missing one. -/
theorem not_broken_of_closed {T : ServiceIdentity → Prop}
    (hT : ∀ s, T s → Broken g fw s → ∀ d, Needs g s d → ¬ Missing g fw d.required ∧
      (d.isEnumerable = false → Broken g fw d.required → T d.required))
    {s : ServiceIdentity} (hs : T s) : ¬ Broken g fw s := by
  rintro ⟨chain, h⟩
  generalize hl : s :: chain = l at h
  induction h generalizing s chain with
  | last hd hm =>
    obtain ⟨rfl, -⟩ := List.cons.inj hl
    exact (hT s hs (BrokenChain.last hd hm).broken _ hd).1 hm
  | cons hd he hb ih =>
    obtain ⟨rfl, -⟩ := List.cons.inj hl
    exact ih ((hT s hs (hb.cons hd he).broken _ hd).2 he hb.broken) _ rfl

/-! ## One step of the walk -/

variable {p : Path} {c : Cache} {v : Visit} {before after : List ServiceIdentity}

theorem Sees.of_answers {d : Dependency} (hc : c.Safe g fw)
    (h : isMandatory d → Answers g fw p c.walked v c.walked d) : Sees g fw p c.walked [d] (v, c) :=
  ⟨hc, fun _ _ => .refl v, fun _ _ d' hd' hm => by
    obtain rfl := List.mem_singleton.1 hd'
    exact h hm⟩

theorem Sees.of_missing {d : Dependency} (hc : c.Safe g fw) :
    Sees g fw p c.walked [d] (.missing d.required, c) := by
  have hnot : ¬ (Visit.missing d.required).Clears := fun h => Option.some_ne_none _ h.1
  exact ⟨hc, fun _ h => absurd h hnot, fun _ h => absurd h hnot⟩

theorem sees_visitDependency {below : ServiceIdentity → Cache → Visit × Cache} {d : Dependency}
    (hp : ∀ x ∈ Path.services p, (g.resolveTarget? x).isSome)
    (hbelow : isMandatory d → d.isEnumerable = false → d.required ∉ Path.services p →
      (g.resolveTarget? d.required).isSome →
        ∀ c, c.Safe g fw → Settles g fw p c.walked d.required (below d.required c))
    (c : Cache) (hc : c.Safe g fw) :
    Sees g fw p c.walked [d] (visitDependency g fw p below d c) := by
  have hx := visitDependency_visits g fw p below d c
  generalize visitDependency g fw p below d c = r at hx
  cases hx with
  | skipped hm => exact .of_answers hc (fun hm' => absurd hm' (Bool.not_eq_true _ ▸ hm))
  | collected _ he hr =>
    refine .of_answers hc (fun _ => ⟨fun h => ?_, fun he' => absurd he (Bool.not_eq_true _ ▸ he')⟩)
    rcases hr with hr | hf
    · exact Nat.ne_of_gt hr h.registrationCount
    · exact Bool.false_ne_true (h.contains.symm.trans hf)
  | noneToCollect _ _ _ _ => exact .of_missing hc
  | onPath _ _ hpos =>
    have hget := Path.getElem?_of_position? hpos
    refine .of_answers hc (fun _ =>
      ⟨fun h => ?_, fun _ _ => .onPath ⟨_, _, rfl, Nat.le_refl _, hget⟩⟩)
    have hreg := hp _ (List.mem_of_getElem? hget)
    rw [h.resolveTarget?] at hreg
    exact nomatch hreg
  | registered hm he hpos ht =>
    have hs := hbelow hm he (Path.position?_eq_none_iff.1 hpos) ht c hc
    have hmem : d ∈ [d] := List.mem_singleton_self d
    refine ⟨hs.safe, fun hw => hs.covers (hw d hmem hm he), fun hw h d' hd' _ => ?_⟩
    obtain rfl := List.mem_singleton.1 hd'
    refine ⟨fun hmiss => ?_, fun _ => hs.pending (hw d' hmem hm he) h⟩
    rw [hmiss.resolveTarget?] at ht
    exact nomatch ht
  | provided _ _ _ ht hf =>
    refine .of_answers hc (fun _ => ⟨fun h => ?_, fun _ hb => ?_⟩)
    · exact Bool.false_ne_true (h.contains.symm.trans hf)
    · obtain ⟨_, t, _, ht', _⟩ := hb.exists_needs
      exact nomatch ht.symm.trans ht'
  | missing _ _ _ _ _ => exact .of_missing hc

theorem getElem?_services_concat {s x : ServiceIdentity} {n : Node} {i : Nat}
    (h : (Path.services (p ++ [(s, n)]))[i]? = some x) :
    (Path.services p)[i]? = some x ∨ x = s := by
  rw [Path.services_concat, List.getElem?_append] at h
  split at h
  · exact .inl h
  · exact .inr (List.mem_singleton.1 (List.mem_of_getElem? h))

theorem CutsAt.of_concat {s x : ServiceIdentity} {n : Node} (h : CutsAt (p ++ [(s, n)]) v x) :
    CutsAt p v x ∨ x = s := by
  obtain ⟨low, depth, hlow, hle, hx⟩ := h
  rcases getElem?_services_concat hx with hx | rfl
  · exact .inl ⟨low, depth, hlow, hle, hx⟩
  · exact .inr rfl

theorem le_of_cutsFrom {depth low : Nat} (hcuts : v.cutsFrom depth) (hlow : v.low = some low) :
    depth ≤ low := by
  rw [Visit.cutsFrom, hlow] at hcuts
  exact of_decide_eq_true hcuts

/-- If no cut lies above `s`, a cut on the path to `s` is at `s`. -/
theorem CutsAt.eq_of_cutsFrom {s x : ServiceIdentity} {n : Node}
    (h : CutsAt (p ++ [(s, n)]) v x) (hcuts : v.cutsFrom p.length) : x = s := by
  rcases h.of_concat with ⟨low, depth, hlow, hle, hx⟩ | rfl
  · have hlen := (List.getElem?_eq_some_iff.1 hx).1
    rw [Path.length_services] at hlen
    exact absurd (Nat.le_trans (le_of_cutsFrom hcuts hlow) hle) (Nat.not_le_of_lt hlen)
  · rfl

/-- Once `s` is walked itself, a cut at `s` is no longer a cut on the path. -/
theorem Pending.finish {s x : ServiceIdentity} {n : Node}
    (h : Pending g (p ++ [(s, n)]) before v after x) (hw : NeverWidens g s) (hs : s ∉ before) :
    Pending g p before v (s :: after) x := by
  cases h with
  | walked hx hnx => exact .walked (List.mem_cons_of_mem _ hx) hnx
  | walkedBefore hlow hx => exact .walkedBefore hlow hx
  | onPath hcut =>
    rcases hcut.of_concat with hcut | rfl
    · exact .onPath hcut
    · exact .walked List.mem_cons_self hs
  | widened hcut hgrows =>
    rcases hcut.of_concat with hcut | rfl
    · exact .widened hcut hgrows
    · exact absurd hw hgrows

/-- If no cut lies above `s`, what is left open was walked below `s`, or is `s`. -/
theorem Pending.walked_or_eq {s x : ServiceIdentity} {n : Node}
    (h : Pending g (p ++ [(s, n)]) before v after x) (hw : NeverWidens g s)
    (hcuts : v.cutsFrom p.length) (hroot : p = [] → before = []) :
    (x ∈ after ∧ x ∉ before) ∨ x = s := by
  cases h with
  | walked hx hnx => exact .inl ⟨hx, hnx⟩
  | walkedBefore hzero hx =>
    -- only the walk of a root has nothing above it, and it starts with nothing walked
    have hnil : p = [] := List.length_eq_zero_iff.1 (Nat.le_zero.1 (le_of_cutsFrom hcuts hzero))
    rw [hroot hnil] at hx
    exact absurd hx List.not_mem_nil
  | onPath hcut => exact .inr (hcut.eq_of_cutsFrom hcuts)
  | widened hcut hgrows =>
    obtain rfl := hcut.eq_of_cutsFrom hcuts
    exact absurd hw hgrows

/-- The dependencies of a service that is walked are those that it needs. -/
theorem mem_of_needs {s : ServiceIdentity} {t : Target} {ds : List Dependency} {d : Dependency}
    (ht : g.resolveTarget? s = some t) (he : expandable? g t = some ds) (hd : Needs g s d) :
    d ∈ ds ∧ isMandatory d := by
  obtain ⟨t', ds', ht', he', hmem, hm⟩ := needs_iff.1 hd
  obtain rfl := Option.some.inj (ht.symm.trans ht')
  obtain rfl := Option.some.inj (he.symm.trans he')
  exact ⟨hmem, hm⟩

theorem leads_of_expandable? {s : ServiceIdentity} {t : Target} {ds : List Dependency}
    {d : Dependency} (ht : g.resolveTarget? s = some t) (he : expandable? g t = some ds)
    (hd : d ∈ ds) (hm : isMandatory d) (henum : d.isEnumerable = false) : Leads g s d.required :=
  ⟨d, needs_of_expandable? ht he hd hm, henum, rfl⟩

theorem NeverWidens.below {s : ServiceIdentity} {t : Target} {ds : List Dependency}
    (hw : NeverWidens g s) (ht : g.resolveTarget? s = some t) (he : expandable? g t = some ds) :
    NeverWidenBelow g ds := by
  intro d hd hm henum
  exact hw.of_reaches (.single (leads_of_expandable? ht he hd hm henum))

section Below

variable {s : ServiceIdentity} {n : Node} (hw : NeverWidens g s)
  (hcovers : Covers g fw (p ++ [(s, n)]) before v after)
  (hneeds : ∀ d, Needs g s d → Answers g fw (p ++ [(s, n)]) before v after d)

include hw hcovers hneeds

/-- A service that is left pending hands on what its dependencies left open. -/
theorem Covers.finish (hs : s ∉ before) : Covers g fw p before v (s :: after) where
  subset _ hx := List.mem_cons_of_mem _ (hcovers.subset hx)
  answers x hx hnx hb d hd := by
    have hanswer : Answers g fw (p ++ [(s, n)]) before v after d := by
      rcases List.mem_cons.1 hx with rfl | hx
      · exact hneeds d hd
      · exact hcovers.answers x hx hnx hb d hd
    exact ⟨hanswer.not_missing, fun he hb => (hanswer.pending he hb).finish hw hs⟩

/-- If no cut lies above `s`, then neither `s` nor what was walked below it is broken: they wait
only for each other. -/
theorem not_broken_of_cutsFrom (hcuts : v.cutsFrom p.length) (hroot : p = [] → before = [])
    {x : ServiceIdentity} (hx : (x ∈ after ∧ x ∉ before) ∨ x = s) : ¬ Broken g fw x := by
  refine not_broken_of_closed (T := fun x => (x ∈ after ∧ x ∉ before) ∨ x = s) ?_ hx
  intro x hx hb d hd
  have hanswer : Answers g fw (p ++ [(s, n)]) before v after d := by
    rcases hx with hx | rfl
    · exact hcovers.answers x hx.1 hx.2 hb d hd
    · exact hneeds d hd
  exact ⟨hanswer.not_missing, fun he hb => (hanswer.pending he hb).walked_or_eq hw hcuts hroot⟩

end Below

/-! ## The whole walk -/

theorem not_broken_of_leaf {s : ServiceIdentity} {t : Target} (ht : g.resolveTarget? s = some t)
    (he : expandable? g t = none) : ¬ Broken g fw s := by
  intro hb
  obtain ⟨d, hd⟩ := hb.exists_needs
  obtain ⟨t', ds, ht', he', -⟩ := needs_iff.1 hd
  obtain rfl := Option.some.inj (ht.symm.trans ht')
  exact nomatch he.symm.trans he'

theorem sees_visitBelow {room : Nat} {s : ServiceIdentity} {t : Target} {ds : List Dependency}
    (hp : Path.Above g p s) (ht : g.resolveTarget? s = some t) (he : expandable? g t = some ds)
    (hc : c.Safe g fw)
    (ih : ∀ {p : Path} {s : ServiceIdentity} {c : Cache}, Path.Above g p s →
      (p = [] → c.walked = []) → (g.resolveTarget? s).isSome → c.Safe g fw →
      Settles g fw p c.walked s (expand g fw room p s c)) :
    Sees g fw (p ++ [(s, t.node)]) c.walked ds (visitBelow g fw room p s t.node ds c) := by
  have hne : p ++ [(s, t.node)] ≠ [] :=
    List.append_ne_nil_of_right_ne_nil p (List.cons_ne_nil _ _)
  have hreg : ∀ x ∈ Path.services (p ++ [(s, t.node)]), (g.resolveTarget? x).isSome := by
    intro x hx
    rw [Path.services_concat, List.mem_append, List.mem_singleton] at hx
    rcases hx with hx | rfl
    · exact hp.registered hx
    · rw [ht]
      rfl
  refine sees_visitAll (c := c.enter s) (fun d hd => sees_visitDependency hreg ?_) hc
  intro hm henum hx htarget c hc
  exact ih (hp.concat ht (leads_of_expandable? ht he hd hm henum) hx) (fun hnil => absurd hnil hne)
    htarget hc

theorem Sees.answers_needs {s : ServiceIdentity} {t : Target} {ds : List Dependency}
    {r : Visit × Cache} (h : Sees g fw p before ds r) (hw : NeverWidens g s) (hclear : r.1.Clears)
    (ht : g.resolveTarget? s = some t) (he : expandable? g t = some ds) (d : Dependency)
    (hd : Needs g s d) : Answers g fw p before r.1 r.2.walked d := by
  obtain ⟨hmem, hm⟩ := mem_of_needs ht he hd
  exact h.answers (hw.below ht he) hclear d hmem hm

/-- By induction on the room that is left. -/
theorem settles_expand {room : Nat} {s : ServiceIdentity} (hp : Path.Above g p s)
    (hroot : p = [] → c.walked = []) (hreg : (g.resolveTarget? s).isSome) (hc : c.Safe g fw) :
    Settles g fw p c.walked s (expand g fw room p s c) := by
  induction room using Nat.strongRecOn generalizing p s c with
  | ind room ih =>
    have hx := expand_expands g fw room p s c
    generalize expand g fw room p s c = r at hx
    cases hx with
    | known hmem => exact ⟨hc, fun _ _ => .refl _, fun hw _ hb => absurd hb (hc s hmem hw)⟩
    | walkedBefore _ hlookup =>
      refine ⟨hc, fun _ _ => .refl _, fun _ _ _ => .walkedBefore rfl ?_⟩
      rw [Cache.mem_walked_iff, hlookup]
      exact Option.some_ne_none _
    | unregistered _ _ ht =>
      rw [ht] at hreg
      exact nomatch hreg
    | widened _ _ ht hwide =>
      obtain ⟨x, hx, hgrows⟩ := hp.exists_of_widened? ht hwide
      exact ⟨hc, fun _ _ => .refl _,
        fun _ _ _ => .widened ⟨_, _, rfl, Nat.le_refl _, hx⟩ hgrows⟩
    | leaf harr he =>
      have hb : ¬ Broken g fw s := not_broken_of_leaf harr.target he
      exact ⟨hc.resolve (fun _ => hb), fun _ _ => .refl _, fun _ _ hs => absurd hs hb⟩
    | tooDeep _ _ =>
      have hnot : ¬ (⟨none, some 0, true⟩ : Visit).Clears := fun h => Bool.noConfusion h.2
      exact ⟨hc, fun _ h => absurd h hnot, fun _ h => absurd h hnot⟩
    | @broken room t ds v c' harr he hv hsome =>
      have hsees := sees_visitBelow hp harr.target he hc (ih room (Nat.lt_succ_self room))
      rw [hv] at hsees
      have hnot : ¬ (v.below s).Clears := by
        intro h
        have hnone : v.chain = none := Option.map_eq_none_iff.1 h.1
        exact Option.isSome_iff_ne_none.1 hsome hnone
      exact ⟨hsees.safe, fun _ h => absurd h hnot, fun _ h => absurd h hnot⟩
    | @settled room t ds v c' harr he hv hnone hcuts htrunc =>
      have hsees := sees_visitBelow hp harr.target he hc (ih room (Nat.lt_succ_self room))
      rw [hv] at hsees
      have hclear : v.Clears := ⟨hnone, htrunc⟩
      -- nothing above `s` is waited for, so `s` and all that was walked below it are safe
      have hsafe (hw : NeverWidens g s) {x} := not_broken_of_cutsFrom (x := x) hw
        (hsees.covers (hw.below harr.target he) hclear)
        (hsees.answers_needs hw hclear harr.target he) hcuts hroot
      refine ⟨hsees.safe.resolve (fun hw => hsafe hw (.inr rfl)), fun hw _ => ?_, fun hw _ hb => ?_⟩
      · exact ⟨(hsees.covers (hw.below harr.target he) hclear).subset,
          fun x hx hnx hb => absurd hb (hsafe hw (.inl ⟨hx, hnx⟩))⟩
      · exact absurd hb (hsafe hw (.inr rfl))
    | @pending room t ds v c' harr he hv hnone _ =>
      have hsees := sees_visitBelow hp harr.target he hc (ih room (Nat.lt_succ_self room))
      rw [hv] at hsees
      -- `s` joins what was walked, so a cut at `s` is answered for by `s` itself
      have hns : s ∉ c.walked := Cache.lookup_eq_none_iff.1 harr.not_finished
      refine ⟨hsees.safe, fun hw hclear => ?_, fun _ _ _ => .walked List.mem_cons_self hns⟩
      exact (hsees.covers (hw.below harr.target he) hclear).finish hw
        (hsees.answers_needs hw hclear harr.target he) hns

end Walk

/-! ## Where the limit stops the walk -/

/-- A chain of needs leads from the service through as many different ones as the limit allows, and
then to one more that is registered. -/
def GoesBeyond (g : Graph) (limit : Nat) (s : ServiceIdentity) : Prop :=
  ∃ (p : Path) (x : ServiceIdentity), Path.Above g p x ∧ p.length = limit ∧
    (Path.services p ++ [x]).head? = some s ∧ (g.resolveTarget? x).isSome

/-- The limit stopped none of the walks. -/
def Cache.Untruncated (c : Cache) : Prop :=
  ∀ e ∈ c.finished, e.2 = false

section Room

variable {g : Graph} {fw : FrameworkServices} {p : Path} {c : Cache}

/-- Where no definition is generic, no chain is as long as the list of nodes. -/
theorem not_goesBeyond_of_closed (hg : g.Closed) {limit : Nat} (hlimit : g.nodes.length ≤ limit)
    (s : ServiceIdentity) : ¬ GoesBeyond g limit s := by
  rintro ⟨p, x, hp, rfl, -, hreg⟩
  exact absurd (hp.length_lt hg hreg) (Nat.not_lt_of_le hlimit)

theorem truncated_of_lookup {s : ServiceIdentity} {truncated : Bool} (hc : c.Untruncated)
    (h : c.finished.lookup s = some truncated) : truncated = false := by
  obtain ⟨l₁, l₂, heq, -⟩ := List.lookup_eq_some_iff.1 h
  refine hc (s, truncated) ?_
  rw [heq]
  exact List.mem_append_right _ List.mem_cons_self

theorem head?_services_concat {s x root : ServiceIdentity} (n : Node)
    (h : (Path.services p ++ [s]).head? = some root) :
    (Path.services (p ++ [(s, n)]) ++ [x]).head? = some root := by
  rw [Path.services_concat, List.head?_append, h]
  rfl

theorem untruncated_visitBelow {room : Nat} {s : ServiceIdentity} {t : Target}
    {ds : List Dependency} (hp : Path.Above g p s) (ht : g.resolveTarget? s = some t)
    (he : expandable? g t = some ds) (hc : c.Untruncated)
    (ih : ∀ {x : ServiceIdentity} {c : Cache}, Path.Above g (p ++ [(s, t.node)]) x →
      (g.resolveTarget? x).isSome → c.Untruncated →
      (expand g fw room (p ++ [(s, t.node)]) x c).1.truncated = false ∧
        (expand g fw room (p ++ [(s, t.node)]) x c).2.Untruncated) :
    (visitBelow g fw room p s t.node ds c).1.truncated = false ∧
      (visitBelow g fw room p s t.node ds c).2.Untruncated := by
  refine visitBelow_keeps (R := fun v => v.truncated = false) (fun _ h => h) ?_ ?_ hc
  · intro v w hv hw
    rw [Visit.andThen, hv, hw]
    rfl
  · intro d hd hm henum hx hreg c hc
    exact ih (hp.concat ht (leads_of_expandable? ht he hd hm henum) hx) hreg hc

/-- The limit stops a walk only where a chain from the root goes beyond it. By induction on the room:
when it has run out, the path is such a chain. -/
theorem untruncated_expand {limit : Nat} {root : ServiceIdentity}
    (hshort : ¬ GoesBeyond g limit root) {room : Nat} {s : ServiceIdentity}
    (hroom : p.length + room = limit) (hhead : (Path.services p ++ [s]).head? = some root)
    (hp : Path.Above g p s) (hreg : (g.resolveTarget? s).isSome) (hc : c.Untruncated) :
    (expand g fw room p s c).1.truncated = false ∧ (expand g fw room p s c).2.Untruncated := by
  induction room generalizing p s c with
  | zero => exact absurd ⟨p, s, hp, hroom, hhead, hreg⟩ hshort
  | succ room ih =>
    have hbelow {t : Target} {ds : List Dependency} (ht : g.resolveTarget? s = some t)
        (he : expandable? g t = some ds) :
        (visitBelow g fw room p s t.node ds c).1.truncated = false ∧
          (visitBelow g fw room p s t.node ds c).2.Untruncated := by
      have hlength : (p ++ [(s, t.node)]).length + room = limit := by
        rw [List.length_append, List.length_singleton]
        omega
      exact untruncated_visitBelow hp ht he hc (ih hlength (head?_services_concat t.node hhead))
    have hx := expand_expands g fw (room + 1) p s c
    generalize expand g fw (room + 1) p s c = r at hx
    cases hx with
    | known _ | unregistered _ _ _ | widened _ _ _ _ | leaf _ _ => exact ⟨rfl, hc⟩
    | walkedBefore _ hlookup => exact ⟨truncated_of_lookup hc hlookup, hc⟩
    | broken harr he hv _ =>
      have h := hbelow harr.target he
      rw [hv] at h
      exact h
    | settled harr he hv _ _ _ =>
      have h := hbelow harr.target he
      rw [hv] at h
      exact ⟨rfl, h.2⟩
    | pending harr he hv _ _ =>
      have h := hbelow harr.target he
      rw [hv] at h
      refine ⟨h.1, fun e hmem => ?_⟩
      rcases List.mem_cons.1 hmem with rfl | hmem
      · exact h.1
      · exact h.2 e hmem

theorem untruncated_expand_of_closed (hg : g.Closed) {room : Nat} {s : ServiceIdentity}
    (hroom : g.nodes.length ≤ p.length + room) (hp : Path.Above g p s)
    (hreg : (g.resolveTarget? s).isSome) (hc : c.Untruncated) :
    (expand g fw room p s c).1.truncated = false ∧ (expand g fw room p s c).2.Untruncated := by
  have hne : Path.services p ++ [s] ≠ [] :=
    List.append_ne_nil_of_right_ne_nil _ (List.cons_ne_nil _ _)
  exact untruncated_expand (not_goesBeyond_of_closed hg hroom _) rfl (List.head?_eq_some_head hne)
    hp hreg hc

end Room

end Resolvability

end Wiring
