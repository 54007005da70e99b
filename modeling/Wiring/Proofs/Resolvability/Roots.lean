import Wiring.Proofs.Resolvability.Exact

/-!
# One root after another

The walk of a root takes over what the walks before it resolved for good. A service that leads to a
missing one is never among these, unless type arguments grow from it, so what is taken over only
saves a walk that would have found nothing. The saved walk would also have left behind that services
below it were walked, but none of these leads to a missing service either. Hence two walks of the
same root that start with different services resolved go the same way wherever something is missing.

Results:
1. `findings_eq_filterMap_visits`: the findings are those of one visit for each root.
2. `roots_independent`: no visit depends on the roots before, whatever the limit, if no arguments
   grow from its root.
3. `roots_dependent_where_arguments_grow`: otherwise it may.
-/

namespace Wiring

namespace Resolvability

/-! ## The visits of the roots -/

/-- The visits of the roots among the nodes, given what is resolved already. -/
def visitsFrom (g : Graph) (fw : FrameworkServices) (limit : Nat)
    (resolved : List ServiceIdentity) : List Node → List (Node × Visit)
  | [] => []
  | n :: ns =>
    if isRoot n then
      let visit := expand g fw limit [] n.service (.start resolved)
      (n, visit.1) :: visitsFrom g fw limit visit.2.resolved ns
    else visitsFrom g fw limit resolved ns

/-- The visit that the check makes for each root. -/
def visits (g : Graph) (fw : FrameworkServices) (limit : Nat) : List (Node × Visit) :=
  visitsFrom g fw (clampDepth limit) [] g.nodes

/-- The visit of a root for which nothing is resolved already. -/
def visitAlone (g : Graph) (fw : FrameworkServices) (limit : Nat) (n : Node) : Visit :=
  (expand g fw (clampDepth limit) [] n.service (.start [])).1

section Visits

variable {g : Graph} {fw : FrameworkServices} {limit : Nat}

theorem findingsFrom_eq_filterMap (resolved : List ServiceIdentity) (ns : List Node) :
    findingsFrom g fw limit resolved ns =
      (visitsFrom g fw limit resolved ns).filterMap (fun e => e.2.chain.map (report g e.1)) := by
  induction ns generalizing resolved with
  | nil => rfl
  | cons n ns ih =>
    simp only [findingsFrom, visitsFrom]
    split
    · rw [List.filterMap_cons, ih]
      cases (expand g fw limit [] n.service (.start resolved)).1.chain with
      | none => rfl
      | some chain => rfl
    · exact ih resolved

theorem findings_eq_filterMap_visits :
    findings g fw limit = (visits g fw limit).filterMap (fun e => e.2.chain.map (report g e.1)) :=
  findingsFrom_eq_filterMap _ _

theorem map_fst_visitsFrom (resolved : List ServiceIdentity) (ns : List Node) :
    (visitsFrom g fw limit resolved ns).map Prod.fst = ns.filter isRoot := by
  induction ns generalizing resolved with
  | nil => rfl
  | cons n ns ih =>
    simp only [visitsFrom, List.filter_cons]
    split
    · rw [List.map_cons, ih]
    · exact ih resolved

theorem map_fst_visits : (visits g fw limit).map Prod.fst = g.nodes.filter isRoot :=
  map_fst_visitsFrom _ _

/-- The visit of each root starts with a safe cache. By induction on the nodes, since every visit
leaves a safe cache for the next. -/
theorem exists_safe_of_mem_visitsFrom (hg : g.WellFormed) {ns : List Node} (hns : ns ⊆ g.nodes)
    {resolved : List ServiceIdentity} (hres : (Cache.start resolved).Safe g fw) {n : Node}
    {v : Visit} (h : (n, v) ∈ visitsFrom g fw limit resolved ns) :
    ∃ resolved', (Cache.start resolved').Safe g fw ∧
      v = (expand g fw limit [] n.service (.start resolved')).1 := by
  induction ns generalizing resolved with
  | nil => exact absurd h List.not_mem_nil
  | cons m ns ih =>
    obtain ⟨hm, hns⟩ := List.cons_subset.1 hns
    simp only [visitsFrom] at h
    split at h
    · rcases List.mem_cons.1 h with heq | h
      · obtain ⟨rfl, rfl⟩ := Prod.mk.inj heq
        exact ⟨resolved, hres, rfl⟩
      · have hsafe : (expand g fw limit [] m.service (.start resolved)).2.Safe g fw :=
          (settles_root (isSome_resolveTarget?_service hg hm) hres).safe
        exact ih hns hsafe h
    · exact ih hns hres h

theorem exists_safe_of_mem_visits (hg : g.WellFormed) {n : Node} {v : Visit}
    (h : (n, v) ∈ visits g fw limit) :
    n ∈ g.nodes ∧ ∃ resolved, (Cache.start resolved).Safe g fw ∧
      v = (expand g fw (clampDepth limit) [] n.service (.start resolved)).1 := by
  have hn : n ∈ g.nodes.filter isRoot := by
    rw [← map_fst_visits]
    exact List.mem_map_of_mem h
  exact ⟨(List.mem_filter.1 hn).1,
    exists_safe_of_mem_visitsFrom hg (List.Subset.refl _) Cache.safe_start_nil h⟩

end Visits

/-! ## What is walked below a service -/

/-- The same broken services were walked. -/
def AgreeOnBroken (g : Graph) (fw : FrameworkServices) (c₁ c₂ : Cache) : Prop :=
  ∀ s, Broken g fw s → (s ∈ c₁.walked ↔ s ∈ c₂.walked)

section Course

variable {g : Graph} {fw : FrameworkServices} {p : Path} {s : ServiceIdentity} {c c₁ c₂ : Cache}

/-- Below a service that leads to no missing one, no broken service is walked. -/
theorem agreeOnBroken_expand (hs : ¬ Broken g fw s) {room : Nat} (hc : AgreeOnBroken g fw c₁ c) :
    AgreeOnBroken g fw c₁ (expand g fw room p s c).2 := by
  induction room using Nat.strongRecOn generalizing p s c with
  | ind room ih =>
    have hbelow : ∀ m, room = m + 1 → ∀ {t ds}, g.resolveTarget? s = some t →
        expandable? g t = some ds → AgreeOnBroken g fw c₁ (visitBelow g fw m p s t.node ds c).2 := by
      rintro m rfl t ds ht he
      refine (visitBelow_keeps (R := fun _ => True) (I := AgreeOnBroken g fw c₁)
        (fun _ _ => trivial) (fun _ _ _ _ => trivial) ?_ hc).2
      intro d hd hm henum _ _ c hc
      have hl : Leads g s d.required := leads_of_expandable? ht he hd hm henum
      exact ⟨trivial, ih m (Nat.lt_succ_self m) (fun hb => hs (.of_leads hl hb)) hc⟩
    have hx := expand_expands g fw room p s c
    generalize expand g fw room p s c = r at hx
    cases hx with
    | known _ | walkedBefore _ _ | unregistered _ _ _ | widened _ _ _ _ | leaf _ _
    | tooDeep _ _ => exact hc
    | broken harr he hv _ =>
      have h := hbelow _ rfl harr.target he
      rw [hv] at h
      exact h
    | settled harr he hv _ _ _ =>
      have h := hbelow _ rfl harr.target he
      rw [hv] at h
      exact h
    | pending harr he hv _ _ =>
      have h := hbelow _ rfl harr.target he
      rw [hv] at h
      intro x hx
      have hne : x ≠ s := fun heq => hs (heq ▸ hx)
      rw [h x hx]
      simp [Cache.walked, Cache.finish, hne]

end Course

/-! ## Two walks with different services resolved -/

/-- What is missing in the one walk is missing in the other, and they go on in the same way. -/
structure SameCourse (g : Graph) (fw : FrameworkServices) (r₁ r₂ : Visit × Cache) : Prop where
  chain : r₁.1.chain = r₂.1.chain
  safe₁ : r₁.2.Safe g fw
  safe₂ : r₂.2.Safe g fw
  agree : AgreeOnBroken g fw r₁.2 r₂.2

section Course

variable {g : Graph} {fw : FrameworkServices} {p : Path} {s : ServiceIdentity} {c₁ c₂ : Cache}

theorem sameCourse_visitAll {visit : Dependency → Cache → Visit × Cache} {ds : List Dependency}
    (hvisit : ∀ d ∈ ds, ∀ c₁ c₂, c₁.Safe g fw → c₂.Safe g fw → AgreeOnBroken g fw c₁ c₂ →
      SameCourse g fw (visit d c₁) (visit d c₂))
    (h₁ : c₁.Safe g fw) (h₂ : c₂.Safe g fw) (h : AgreeOnBroken g fw c₁ c₂) :
    SameCourse g fw (visitAll visit ds c₁) (visitAll visit ds c₂) := by
  induction ds generalizing c₁ c₂ with
  | nil => exact ⟨rfl, h₁, h₂, h⟩
  | cons d ds ih =>
    have hd := hvisit d List.mem_cons_self c₁ c₂ h₁ h₂ h
    have hds := ih (fun d' hd' => hvisit d' (List.mem_cons_of_mem d hd')) hd.safe₁ hd.safe₂ hd.agree
    rw [visitAll, visitAll]
    simp only [hd.chain]
    split
    · exact hd
    · exact ⟨hds.chain, hds.safe₁, hds.safe₂, hds.agree⟩

/-- Both walks enter a broken service, or neither does: it is not resolved for good, and it was
walked in both or in none. -/
theorem agree_of_broken {room : Nat} (hb : Broken g fw s) (h : AgreeOnBroken g fw c₁ c₂)
    (hr₁ : s ∉ c₁.resolved) (hr₂ : s ∉ c₂.resolved)
    (hr₁' : s ∉ (expand g fw room p s c₁).2.resolved)
    (hr₂' : s ∉ (expand g fw room p s c₂).2.resolved)
    (hbelow : ∀ m, room = m + 1 → ∀ {t ds}, g.resolveTarget? s = some t →
      expandable? g t = some ds → SameCourse g fw (visitBelow g fw m p s t.node ds c₁)
        (visitBelow g fw m p s t.node ds c₂)) :
    (expand g fw room p s c₁).1.chain = (expand g fw room p s c₂).1.chain ∧
      AgreeOnBroken g fw (expand g fw room p s c₁).2 (expand g fw room p s c₂).2 := by
  by_cases hwalked : s ∈ c₁.walked
  · obtain ⟨_, heq₁⟩ := expand_of_walked room hr₁ hwalked
    obtain ⟨_, heq₂⟩ := expand_of_walked room hr₂ ((h s hb).1 hwalked)
    rw [heq₁, heq₂]
    exact ⟨rfl, h⟩
  · have hf₁ : c₁.finished.lookup s = none := Cache.lookup_eq_none_iff.2 hwalked
    have hf₂ : c₂.finished.lookup s = none :=
      Cache.lookup_eq_none_iff.2 (fun hs => hwalked ((h s hb).2 hs))
    obtain ⟨d, t, ds, ht, htype, hds, -⟩ := hb.exists_needs
    have he : expandable? g t = some ds := expandable?_eq_some_iff.2 ⟨htype, hds⟩
    cases hwide : widened? p t.node t.closingArgs with
    | some depth =>
      rw [expand_of_widened hr₁ hf₁ ht hwide, expand_of_widened hr₂ hf₂ ht hwide]
      exact ⟨rfl, h⟩
    | none =>
      have harr₁ : Arrives g p s c₁ t := ⟨hr₁, hf₁, ht, hwide⟩
      have harr₂ : Arrives g p s c₂ t := ⟨hr₂, hf₂, ht, hwide⟩
      cases room with
      | zero =>
        rw [expand_zero_of_arrives harr₁ he, expand_zero_of_arrives harr₂ he]
        exact ⟨rfl, h⟩
      | succ room =>
        have hsame := hbelow room rfl ht he
        refine ⟨?_, fun x hx => ?_⟩
        · rw [chain_expand_of_arrives harr₁ he, chain_expand_of_arrives harr₂ he, hsame.chain]
        · rw [walked_expand_of_arrives harr₁ he hr₁', walked_expand_of_arrives harr₂ he hr₂',
            hsame.chain]
          split
          · exact hsame.agree x hx
          · rw [List.mem_cons, List.mem_cons, hsame.agree x hx]

/-- By induction on the room. Where a service leads to no missing one, it does not matter what the
walks do: neither finds anything, and no broken service is walked. -/
theorem sameCourse_expand (hg : g.WellFormed) {room : Nat} (hp : Path.Above g p s)
    (hreg : (g.resolveTarget? s).isSome) (hw : NeverWidens g s)
    (hroot : p = [] → c₁.walked = [] ∧ c₂.walked = []) (h₁ : c₁.Safe g fw) (h₂ : c₂.Safe g fw)
    (h : AgreeOnBroken g fw c₁ c₂) :
    SameCourse g fw (expand g fw room p s c₁) (expand g fw room p s c₂) := by
  induction room using Nat.strongRecOn generalizing p s c₁ c₂ with
  | ind room ih =>
    have hsafe₁ : (expand g fw room p s c₁).2.Safe g fw :=
      (settles_expand hp (fun hnil => (hroot hnil).1) hreg h₁).safe
    have hsafe₂ : (expand g fw room p s c₂).2.Safe g fw :=
      (settles_expand hp (fun hnil => (hroot hnil).2) hreg h₂).safe
    by_cases hb : Broken g fw s
    · have hnot : ∀ {c : Cache}, c.Safe g fw → s ∉ c.resolved := fun hc hs => hc s hs hw hb
      have hsame := agree_of_broken hb h (hnot h₁) (hnot h₂) (hnot hsafe₁) (hnot hsafe₂) ?_
      · exact ⟨hsame.1, hsafe₁, hsafe₂, hsame.2⟩
      · rintro m rfl t ds ht he
        refine sameCourse_visitAll ?_ h₁ h₂ h
        intro d hd c₁ c₂ h₁ h₂ h
        rcases visitDependency_below_or_flat g fw (p ++ [(s, t.node)]) d with
          ⟨hm, henum, hx, htarget, heq⟩ | ⟨v, -, heq⟩
        · have hl : Leads g s d.required := leads_of_expandable? ht he hd hm henum
          have hne : p ++ [(s, t.node)] ≠ [] :=
            List.append_ne_nil_of_right_ne_nil p (List.cons_ne_nil _ _)
          rw [heq, heq]
          exact ih m (Nat.lt_succ_self m) (hp.concat ht hl hx) htarget (hw.of_reaches (.single hl))
            (fun hnil => absurd hnil hne) h₁ h₂ h
        · rw [heq, heq]
          exact ⟨rfl, h₁, h₂, h⟩
    · have hnone : ∀ c, (expand g fw room p s c).1.chain = none := by
        intro c
        rw [← Option.not_isSome_iff_eq_none]
        exact fun hsome => hb (broken_of_isSome_chain hg hp.not_mem hsome)
      have hagree : AgreeOnBroken g fw c₁ (expand g fw room p s c₂).2 := agreeOnBroken_expand hb h
      refine ⟨(hnone c₁).trans (hnone c₂).symm, hsafe₁, hsafe₂, fun x hx => ?_⟩
      exact (agreeOnBroken_expand hb (fun _ _ => Iff.rfl) x hx).symm.trans (hagree x hx)

end Course

/-- No root depends on the roots before it: the check makes one visit for each root, and if no type
arguments grow from the root, this finds the same chain as a visit that starts with nothing
resolved, under every limit and with every list of services of the host. -/
theorem roots_independent (rs : List Registration) (shapes : List TypeShape)
    (fw : FrameworkServices) (limit : Nat) :
    let g := Graph.build rs shapes
    check g fw limit false =
        .ok ((visits g fw limit).filterMap (fun e => e.2.chain.map (report g e.1))) ∧
      (visits g fw limit).map Prod.fst = g.nodes.filter isRoot ∧
      ∀ e ∈ visits g fw limit, NeverWidens g e.1.service →
        e.2.chain = (visitAlone g fw limit e.1).chain := by
  intro g
  have hg : g.WellFormed := Graph.build_wellFormed rs shapes
  refine ⟨congrArg Except.ok findings_eq_filterMap_visits, map_fst_visits, ?_⟩
  rintro ⟨n, v⟩ he hw
  obtain ⟨hn, resolved, hres, rfl⟩ := exists_safe_of_mem_visits hg he
  exact (sameCourse_expand hg (.nil g _) (isSome_resolveTarget?_service hg hn) hw
    (fun _ => ⟨rfl, rfl⟩) hres Cache.safe_start_nil (fun _ _ => Iff.rfl)).chain

/-- The second root takes over that the first one is resolved, and then finds its way round two
cycles to the missing service. On the second one `Pair<T, U>` needs itself with its arguments
exchanged, which does not make them grow. -/
theorem roots_independent_on_cycle :
    let type (name : String) : TypeRef := .closed name []
    let pair (t u : TypeRef) : TypeRef := .closed "Pair" [t, u]
    let rs := [asItself (type "D") 1, asItself (type "A") 2, asItself (type "B") 3,
      asItself (.generic "Pair" 2) 4]
    let g := Graph.build rs
      [constructedFrom (type "D") [], constructedFrom (type "A") [type "D", type "B"],
        constructedFrom (type "B") [type "A", pair (type "D") (type "A")],
        ((TypeShape.ofDefinition "Pair" ["T", "U"]).dependsOn
          (.require (pair (.param "U") (.param "T")))).dependsOn
          (.require (.closed "Item" [.param "T"]))]
    ∃ e ∈ visits g .disabled 4, e.1.service = .of (type "A") ∧ NeverWidens g e.1.service ∧
      e.2.chain = (visitAlone g .disabled 4 e.1).chain ∧
      e.2.chain = some [.of (type "A"), .of (type "B"), .of (pair (type "D") (type "A")),
        .of (pair (type "A") (type "D")), .of (.closed "Item" [type "A"])] := by
  intro type pair rs g
  have hnodup : (rs.map Registration.service).Nodup := by decide
  have hbuild := Graph.build_eq_of_inOrder hnodup (by decide)
  obtain ⟨e, he, hservice, hchain⟩ : ∃ e ∈ visits g .disabled 4, e.1.service = .of (type "A") ∧
      e.2.chain = some [.of (type "A"), .of (type "B"), .of (pair (type "D") (type "A")),
        .of (pair (type "A") (type "D")), .of (.closed "Item" [type "A"])] := by
    unfold g
    rw [hbuild]
    decide +kernel
  have hw : NeverWidens g e.1.service := by
    -- all that can be reached from the second root
    rw [hservice]
    refine neverWidens_of_mem [.of (type "A"), .of (type "B"), .of (type "D"),
      .of (pair (type "D") (type "A")), .of (pair (type "A") (type "D")),
      .of (.closed "Item" [type "D"]), .of (.closed "Item" [type "A"])] ?_ ?_ List.mem_cons_self
    · unfold g
      rw [hbuild]
      decide +kernel
    · unfold g
      rw [hbuild]
      decide +kernel
  exact ⟨e, he, hservice, hw, (roots_independent _ _ .disabled 4).2.2 e he hw, hchain⟩

/-- Where arguments grow, a root may depend on those before it. `Node<Leaf>` is resolved for good for
the first root, although `Step` below it was cut at `Node<Wrap<Leaf>>`. So the second root walks
`Step` only when it asks for it, finds a way to `Node<Wrap<Leaf>>` and below it a missing service.
Alone it comes to `Step` through `Node<Leaf>` first, and from then on `Step` counts as walked. -/
theorem roots_dependent_where_arguments_grow :
    let type (name : String) : TypeRef := .closed name []
    let wrapped : TypeRef := .closed "Wrap" [type "Leaf"]
    let rs := [asItself (type "First") 1, asItself (type "Root") 2, asItself (type "Step") 3,
      asItself (.generic "Node" 1) 4, asItself (.closed "Item" [type "Leaf"]) 5]
    let g := Graph.build rs
      [constructedFrom (type "First") [.closed "Node" [type "Leaf"]],
        constructedFrom (type "Root") [.closed "Node" [type "Leaf"], type "Step"],
        constructedFrom (type "Step") [.closed "Node" [wrapped]],
        ((TypeShape.ofDefinition "Node" ["T"]).dependsOn (.require (type "Step"))).dependsOn
          (.require (.closed "Item" [.param "T"])),
        constructedFrom (.closed "Item" [type "Leaf"]) []]
    ∃ e ∈ visits g .disabled maxDepth, e.1.service = .of (type "Root") ∧
      e.2.chain = some [.of (type "Root"), .of (type "Step"), .of (.closed "Node" [wrapped]),
        .of (.closed "Item" [wrapped])] ∧
      (visitAlone g .disabled maxDepth e.1).chain = none := by
  intro type wrapped rs g
  have hnodup : (rs.map Registration.service).Nodup := by decide
  have hbuild := Graph.build_eq_of_inOrder hnodup (by decide)
  unfold g
  rw [hbuild]
  decide +kernel

end Resolvability

end Wiring
