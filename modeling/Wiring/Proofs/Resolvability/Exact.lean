import Wiring.Proofs.Resolvability.Caches

/-!
# Exactness of the findings

Where no registered service is a generic definition and the limit leaves room for all nodes, the
roots that are reported are those from which a missing service can be reached. Cycles do not matter,
nor the order of the roots, although what is resolved for one root is taken over by the next.
-/

namespace Wiring

namespace Resolvability

/-! ## Reaching a missing service -/

/-- The service is registered, its effective registration is of a type whose constructor is known,
and `d` is one of the parameters. It is neither optional nor a bare type parameter. -/
def Requires (g : Graph) (s : ServiceIdentity) (d : Dependency) : Prop :=
  ∃ n ds, g.effective? s = some n ∧ n.registration.implementation.isType ∧
    g.dependenciesOf? n [] = some ds ∧ d ∈ ds ∧ d.isOptional = false ∧ d.required.ty.isParam = false

/-- A dependency that is neither registered nor provided by the host can be reached from the
service. Only this last one may be an enumeration. -/
inductive ReachesMissing (rs : List Registration) (shapes : List TypeShape)
    (fw : FrameworkServices) : ServiceIdentity → Prop
  | here {s : ServiceIdentity} {d : Dependency} : Requires (.build rs shapes) s d →
      (∀ r ∈ rs, r.service ≠ d.required) → fw.contains d.required = false →
      ReachesMissing rs shapes fw s
  | next {s : ServiceIdentity} {d : Dependency} : Requires (.build rs shapes) s d →
      d.isEnumerable = false → ReachesMissing rs shapes fw d.required →
      ReachesMissing rs shapes fw s

section Closed

variable {rs : List Registration} {shapes : List TypeShape} {fw : FrameworkServices}

theorem needs_iff_requires {g : Graph} (hg : g.Closed) {s : ServiceIdentity} {d : Dependency} :
    Needs g s d ↔ Requires g s d := by
  constructor
  · rintro ⟨t, ds, ht, htype, hds, hd⟩
    rw [hg.resolveTarget?_eq] at ht
    obtain ⟨n, hn, rfl⟩ := Option.map_eq_some_iff.1 ht
    exact ⟨n, ds, hn, htype, hds, hd⟩
  · rintro ⟨n, ds, hn, htype, hds, hd⟩
    refine ⟨⟨n, []⟩, ds, ?_, htype, hds, hd⟩
    rw [hg.resolveTarget?_eq, hn]
    rfl

theorem missing_iff (hg : (Graph.build rs shapes).Closed) {s : ServiceIdentity} :
    Missing (.build rs shapes) fw s ↔ (∀ r ∈ rs, r.service ≠ s) ∧ fw.contains s = false := by
  have hwf := Graph.build_wellFormed rs shapes
  have hreg : (Graph.build rs shapes).resolveTarget? s = none ↔ ∀ r ∈ rs, r.service ≠ s := by
    rw [hg.resolveTarget?_eq, Option.map_eq_none_iff, ← Option.not_isSome_iff_eq_none,
      Graph.isSome_effective?_build]
    simp only [not_exists, not_and, ne_eq]
  constructor
  · intro h
    exact ⟨hreg.1 h.resolveTarget?, h.contains⟩
  · rintro ⟨hr, hf⟩
    exact missing_of_resolveTarget? hwf (hreg.2 hr) hf

theorem broken_iff_reachesMissing (hg : (Graph.build rs shapes).Closed) {s : ServiceIdentity} :
    Broken (.build rs shapes) fw s ↔ ReachesMissing rs shapes fw s := by
  constructor
  · rintro ⟨chain, h⟩
    generalize hl : s :: chain = l at h
    induction h generalizing s chain with
    | last hd hm =>
      obtain ⟨rfl, -⟩ := List.cons.inj hl
      obtain ⟨hr, hf⟩ := (missing_iff hg).1 hm
      exact .here ((needs_iff_requires hg).1 hd) hr hf
    | cons hd he _ ih =>
      obtain ⟨rfl, -⟩ := List.cons.inj hl
      exact .next ((needs_iff_requires hg).1 hd) he (ih _ rfl)
  · intro h
    induction h with
    | here hd hr hf =>
      exact (BrokenChain.last ((needs_iff_requires hg).2 hd) ((missing_iff hg).2 ⟨hr, hf⟩)).broken
    | next hd he _ ih =>
      obtain ⟨chain, hchain⟩ := ih
      exact (hchain.cons ((needs_iff_requires hg).2 hd) he).broken

end Closed

/-! ## The walk of a root -/

section Roots

variable {g : Graph} {fw : FrameworkServices} {limit : Nat}

/-- Nothing lies above a root, so what its walk leaves open was walked. -/
theorem Pending.mem_of_root {v : Visit} {after : List ServiceIdentity} {s : ServiceIdentity}
    (h : Pending g [] [] v after s) : s ∈ after := by
  have hnot : ∀ x, ¬ CutsAt [] v x := by
    rintro x ⟨_, _, _, _, hx⟩
    cases hx
  cases h with
  | walked hs _ => exact hs
  | walkedBefore _ hs => exact absurd hs List.not_mem_nil
  | onPath hcut => exact absurd hcut (hnot _)
  | widened hcut _ => exact absurd hcut (hnot _)

theorem not_broken_of_root {s : ServiceIdentity} {r : Visit × Cache}
    (h : Settles g fw [] [] s r) (hw : NeverWidens g s) (hclear : r.1.Clears) :
    ¬ Broken g fw s := by
  intro hb
  -- all that the walk left open it walked itself, so these services wait only for each other
  refine not_broken_of_closed (T := (· ∈ r.2.walked)) ?_ (h.pending hw hclear hb).mem_of_root hb
  intro x hx hb d hd
  have hanswer := (h.covers hw hclear).answers x hx List.not_mem_nil hb d hd
  exact ⟨hanswer.not_missing, fun he hb => (hanswer.pending he hb).mem_of_root⟩

theorem settles_root {s : ServiceIdentity} (hreg : (g.resolveTarget? s).isSome)
    {resolved : List ServiceIdentity} (hres : (Cache.start resolved).Safe g fw) :
    Settles g fw [] [] s (expand g fw limit [] s (.start resolved)) :=
  settles_expand (c := .start resolved) (.nil g s) (fun _ => rfl) hreg hres

theorem untruncated_root {s : ServiceIdentity} (hshort : ¬ GoesBeyond g limit s)
    (hreg : (g.resolveTarget? s).isSome) {resolved : List ServiceIdentity} :
    (expand g fw limit [] s (.start resolved)).1.truncated = false :=
  (untruncated_expand hshort (Nat.zero_add limit) rfl (.nil g s) hreg
    (fun _ he => absurd he List.not_mem_nil)).1

variable (hg : g.WellFormed)

include hg

theorem isSome_resolveTarget?_service {n : Node} (hn : n ∈ g.nodes) :
    (g.resolveTarget? n.service).isSome := by
  rw [Graph.resolveTarget?, hg.effective?_service hn]
  rfl

variable (hclosed : g.Closed) (hlimit : g.nodes.length ≤ limit)

include hclosed hlimit

/-- The walk of a root returns a chain iff one leads from it to a missing service. -/
theorem isSome_chain_iff_broken {n : Node} (hn : n ∈ g.nodes) {resolved : List ServiceIdentity}
    (hres : (Cache.start resolved).Safe g fw) :
    (expand g fw limit [] n.service (.start resolved)).1.chain.isSome ↔
      Broken g fw n.service := by
  have hreg := isSome_resolveTarget?_service hg hn
  constructor
  · exact broken_of_isSome_chain hg List.not_mem_nil
  · intro hb
    by_contra h
    rw [Option.not_isSome_iff_eq_none] at h
    have htrunc : (expand g fw limit [] n.service (.start resolved)).1.truncated = false :=
      untruncated_root (not_goesBeyond_of_closed hclosed hlimit _) hreg
    exact not_broken_of_root (settles_root hreg hres) (neverWidens_of_closed hclosed _)
      ⟨h, htrunc⟩ hb

/-- By induction on the nodes: what is resolved for good never includes a broken service. -/
theorem mem_brokenFrom_iff {ns : List Node} (hns : ns ⊆ g.nodes) {resolved : List ServiceIdentity}
    (hres : (Cache.start resolved).Safe g fw) {n : Node} :
    n ∈ (brokenFrom g fw limit resolved ns).map Prod.fst ↔
      n ∈ ns ∧ isRoot n ∧ Broken g fw n.service := by
  induction ns generalizing resolved with
  | nil => simp [brokenFrom]
  | cons m ns ih =>
    obtain ⟨hm, hns⟩ := List.cons_subset.1 hns
    have hsome := isSome_chain_iff_broken hg hclosed hlimit hm hres
    have hsafe : (expand g fw limit [] m.service (.start resolved)).2.Safe g fw :=
      (settles_root (isSome_resolveTarget?_service hg hm) hres).safe
    have hrest := ih hns hsafe
    rw [brokenFrom]
    by_cases hroot : isRoot m
    · rw [if_pos hroot]
      cases hchain : (expand g fw limit [] m.service (.start resolved)).1.chain with
      | none =>
        have hb : ¬ Broken g fw m.service := by
          rw [← hsome, hchain]
          exact Bool.false_ne_true
        simp only [hchain, hrest, List.mem_cons]
        constructor
        · rintro ⟨hn, h⟩
          exact ⟨.inr hn, h⟩
        · rintro ⟨rfl | hn, h⟩
          · exact absurd h.2 hb
          · exact ⟨hn, h⟩
      | some chain =>
        have hb : Broken g fw m.service := by
          rw [← hsome, hchain]
          rfl
        simp only [hchain, List.map_cons, List.mem_cons, hrest]
        constructor
        · rintro (rfl | ⟨hn, h⟩)
          · exact ⟨.inl rfl, hroot, hb⟩
          · exact ⟨.inr hn, h⟩
        · rintro ⟨rfl | hn, h⟩
          · exact .inl rfl
          · exact .inr ⟨hn, h⟩
    · rw [if_neg hroot, ih hns hres, List.mem_cons]
      constructor
      · rintro ⟨hn, h⟩
        exact ⟨.inr hn, h⟩
      · rintro ⟨rfl | hn, h⟩
        · exact absurd h.1 hroot
        · exact ⟨hn, h⟩

end Roots

/-! ## Which nodes are reported -/

/-- The findings are those for exactly the nodes that are built from a type and from which a missing
service can be reached, one for each and in the order of the nodes. -/
def ReportsExactly (rs : List Registration) (shapes : List TypeShape) (fw : FrameworkServices)
    (ds : List Diagnostic) : Prop :=
  ∃ roots, roots.Sublist (Graph.build rs shapes).nodes ∧
    (∀ n ∈ (Graph.build rs shapes).nodes, n ∈ roots ↔
      n.registration.implementation.isType ∧ ReachesMissing rs shapes fw n.service) ∧
    List.Forall₂ (fun root d => ∃ chain, BrokenChain (.build rs shapes) fw (root.service :: chain) ∧
      d = report (.build rs shapes) root (root.service :: chain)) roots ds

/-- The check is exact if no registered service is a generic definition and the limit, brought into
its bounds, is not less than the number of nodes. -/
theorem findings_exact (rs : List Registration) (shapes : List TypeShape) (fw : FrameworkServices)
    (limit : Nat) (hopen : ∀ r ∈ rs, r.service.isOpen = false)
    (hlimit : (Graph.build rs shapes).nodes.length ≤ clampDepth limit) :
    ∃ ds, check (.build rs shapes) fw limit false = .ok ds ∧ ReportsExactly rs shapes fw ds := by
  have hg := Graph.build_wellFormed rs shapes
  have hclosed := Graph.build_closed rs shapes hopen
  refine ⟨_, rfl, (brokenFrom (.build rs shapes) fw (clampDepth limit) [] _).map Prod.fst,
    brokenFrom_sublist _ _ _, fun n hn => ?_, ?_⟩
  · rw [mem_brokenFrom_iff hg hclosed hlimit (List.Subset.refl _) Cache.safe_start_nil,
      broken_iff_reachesMissing hclosed]
    exact ⟨fun h => h.2, fun h => ⟨hn, h⟩⟩
  · rw [findings, findingsFrom_eq_map, List.forall₂_map_left_iff, List.forall₂_map_right_iff,
      List.forall₂_same]
    intro e he
    obtain ⟨tail, heq, hb⟩ := (chainFrom_of_mem_brokenFrom hg he).broken_head
    exact ⟨tail, hb, by rw [heq]⟩

/-- A cycle of two services, with a missing service behind a third that the cycle leads to; a fourth
one stands apart. -/
theorem findings_exact_on_cycle :
    let type (name : String) : TypeRef := .closed name []
    let rs := [asItself (type "A") 1, asItself (type "B") 2, asItself (type "C") 3,
      asItself (type "D") 4]
    let shapes := [constructedFrom (type "A") [type "B"],
      constructedFrom (type "B") [type "A", type "C"], constructedFrom (type "C") [type "E"],
      constructedFrom (type "D") []]
    (∀ r ∈ rs, r.service.isOpen = false) ∧ (Graph.build rs shapes).nodes.length ≤ clampDepth 4 ∧
      ∃ ds, check (.build rs shapes) .disabled 4 false = .ok ds ∧
        ReportsExactly rs shapes .disabled ds ∧ ds.length = 3 := by
  intro type rs shapes
  have hopen : ∀ r ∈ rs, r.service.isOpen = false := by decide
  have hnodup : (rs.map Registration.service).Nodup := by decide
  have hbuild := Graph.build_eq_of_inOrder hnodup (by decide) shapes
  have hlimit : (Graph.build rs shapes).nodes.length ≤ clampDepth 4 := by
    rw [hbuild]
    decide
  have hlength : (findings (.build rs shapes) .disabled 4).length = 3 := by
    rw [hbuild]
    decide +kernel
  obtain ⟨ds, hds, hexact⟩ := findings_exact rs shapes .disabled 4 hopen hlimit
  obtain rfl := Except.ok.inj hds
  exact ⟨hopen, hlimit, _, rfl, hexact, hlength⟩

end Resolvability

end Wiring
