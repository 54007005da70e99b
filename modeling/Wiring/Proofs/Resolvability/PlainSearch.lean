import Wiring.Proofs.Resolvability.Detour
import Wiring.Proofs.Resolvability.Roots

/-!
# The search that remembers nothing

`plainSearch` is the search for a missing service without any memory: it goes through the parameters
in their order, enters every registered one that is not on the path above, however often it was
entered before, and stops at the first that is missing.

The walk of the check finds the same chains. A service that it does not enter again was walked from
the same root, and all that this walk left open is on the path or was walked too. Such services wait
only for each other and for the path, so a search that keeps off the path finds nothing below them.

Results:
1. `chain_expand_eq_plainSearch`: every walk finds what the search finds.
2. `findings_of_plainSearch`: the findings are those of the search from each root.
3. `plainSearch_differs_above_maxDepth`: the limit has to leave room for all nodes.
-/

namespace Wiring

namespace Resolvability

/-! ## The search -/

/-- The parameters of the constructor that the container calls for a service. -/
def parametersOf (g : Graph) (s : ServiceIdentity) : List Dependency :=
  match g.effective? s with
  | none => []
  | some n => if n.registration.implementation.isType then (g.dependenciesOf? n []).getD [] else []

/-- The nodes whose services are not on the path. -/
def nodesOff (g : Graph) (path : List ServiceIdentity) : List Node :=
  g.nodes.filter (fun n => !path.contains n.service)

theorem length_nodesOff_lt {g : Graph} {path : List ServiceIdentity} {s : ServiceIdentity}
    (hs : s ∉ path) (hreg : (g.effective? s).isSome) :
    (nodesOff g (s :: path)).length < (nodesOff g path).length := by
  obtain ⟨n, hn⟩ := Option.isSome_iff_exists.1 hreg
  obtain ⟨hmem, rfl⟩ := Graph.mem_of_effective? hn
  have heq : nodesOff g (n.service :: path) =
      (nodesOff g path).filter (fun m => !(m.service == n.service)) := by
    unfold nodesOff
    rw [List.filter_filter]
    refine List.filter_congr (fun m _ => ?_)
    rw [List.contains_cons, Bool.not_or]
  rw [heq, List.length_filter_lt_length_iff_exists]
  exact ⟨n, List.mem_filter.2 ⟨hmem, by simpa using hs⟩, by simp⟩

/-- The chain from `s` to the first missing service below it, where `path` are the services above.
-/
def plainSearch (g : Graph) (fw : FrameworkServices) (path : List ServiceIdentity)
    (s : ServiceIdentity) : Option (List ServiceIdentity) :=
  ((parametersOf g s).findSome? (fun d =>
    if !isMandatory d then none
    else if d.isEnumerable then
      if 0 < g.registrationCount d.required || fw.contains d.required then none
      else some [d.required]
    else if _hpath : d.required ∈ s :: path then none
    else if _hreg : (g.effective? d.required).isSome then plainSearch g fw (s :: path) d.required
    else if fw.contains d.required then none
    else some [d.required])).map (s :: ·)
termination_by (nodesOff g (s :: path)).length
decreasing_by exact length_nodesOff_lt _hpath _hreg

/-- What the search finds below one parameter. -/
def plainStep (g : Graph) (fw : FrameworkServices) (path : List ServiceIdentity) (d : Dependency) :
    Option (List ServiceIdentity) :=
  if !isMandatory d then none
  else if d.isEnumerable then
    if 0 < g.registrationCount d.required || fw.contains d.required then none
    else some [d.required]
  else if d.required ∈ path then none
  else if (g.effective? d.required).isSome then plainSearch g fw path d.required
  else if fw.contains d.required then none
  else some [d.required]

theorem plainSearch_eq (g : Graph) (fw : FrameworkServices) (path : List ServiceIdentity)
    (s : ServiceIdentity) : plainSearch g fw path s =
      ((parametersOf g s).findSome? (plainStep g fw (s :: path))).map (s :: ·) := by
  rw [plainSearch]
  rfl

section Search

variable {g : Graph} {fw : FrameworkServices} {path : List ServiceIdentity} {s : ServiceIdentity}
  {d : Dependency}

section Closed

variable (hclosed : g.Closed)

include hclosed

theorem isSome_resolveTarget?_iff :
    (g.resolveTarget? s).isSome ↔ (g.effective? s).isSome := by
  rw [hclosed.resolveTarget?_eq, Option.isSome_map]

theorem parametersOf_eq {t : Target} {ds : List Dependency} (ht : g.resolveTarget? s = some t)
    (he : expandable? g t = some ds) : parametersOf g s = ds := by
  rw [hclosed.resolveTarget?_eq] at ht
  obtain ⟨n, hn, rfl⟩ := Option.map_eq_some_iff.1 ht
  obtain ⟨htype, hds⟩ := expandable?_eq_some_iff.1 he
  simp only [parametersOf, hn, htype, if_true, hds, Option.getD_some]

theorem needs_iff_mem_parametersOf :
    Needs g s d ↔ d ∈ parametersOf g s ∧ isMandatory d := by
  rw [needs_iff_requires hclosed, isMandatory_iff]
  constructor
  · rintro ⟨n, ds, hn, htype, hds, hd, hm⟩
    simp only [parametersOf, hn, htype, if_true, hds, Option.getD_some]
    exact ⟨hd, hm⟩
  · rintro ⟨hd, hm⟩
    unfold parametersOf at hd
    split at hd
    · exact absurd hd List.not_mem_nil
    · next n hn =>
      split at hd
      · next htype =>
        cases hds : g.dependenciesOf? n [] with
        | none =>
          rw [hds] at hd
          exact absurd hd List.not_mem_nil
        | some ds =>
          rw [hds] at hd
          exact ⟨n, ds, hn, htype, hds, hd, hm⟩
      · exact absurd hd List.not_mem_nil

end Closed

/-! ## Where the search finds something -/

/-- What can come of one parameter: nothing, the parameter itself, or what is found below it. -/
theorem plainStep_cases (hg : g.WellFormed) (hclosed : g.Closed) (fw : FrameworkServices)
    (path : List ServiceIdentity) (d : Dependency) :
    plainStep g fw path d = none ∨
    (isMandatory d ∧ Missing g fw d.required ∧ plainStep g fw path d = some [d.required]) ∨
    (isMandatory d ∧ d.isEnumerable = false ∧ d.required ∉ path ∧
      (g.effective? d.required).isSome ∧
      plainStep g fw path d = plainSearch g fw path d.required) := by
  unfold plainStep
  by_cases hm : isMandatory d = true
  · simp only [hm, Bool.not_true, Bool.false_eq_true, if_false]
    cases henum : d.isEnumerable with
    | true =>
      by_cases hany : (0 < g.registrationCount d.required || fw.contains d.required) = true
      · exact .inl (by simp [hany])
      · refine .inr (.inl ⟨trivial, ?_, by simp [hany]⟩)
        simp only [Bool.or_eq_true, decide_eq_true_eq, not_or, Nat.not_lt, Nat.le_zero,
          Bool.not_eq_true] at hany
        exact missing_of_registrationCount hg hany.1 hany.2
    | false =>
      by_cases hpath : d.required ∈ path
      · exact .inl (by simp [hpath])
      · by_cases hreg : (g.effective? d.required).isSome = true
        · exact .inr (.inr ⟨trivial, rfl, hpath, hreg, by simp [hpath, hreg]⟩)
        · have ht : g.resolveTarget? d.required = none := by
            rw [← Option.not_isSome_iff_eq_none, isSome_resolveTarget?_iff hclosed]
            exact hreg
          by_cases hfw : fw.contains d.required = true
          · exact .inl (by simp [hpath, hreg, hfw])
          · refine .inr (.inl ⟨trivial, ?_, by simp [hpath, hreg, hfw]⟩)
            exact missing_of_resolveTarget? hg ht ((Bool.not_eq_true _).mp hfw)
  · exact .inl (by simp [hm])

/-- Below services that need nothing missing, and only each other or services on the path, the
search finds nothing. By induction on the search, since the path only grows. -/
theorem plainSearch_eq_none (hg : g.WellFormed) (hclosed : g.Closed) {T : ServiceIdentity → Prop}
    (hT : ∀ x, T x → ∀ d, Needs g x d → ¬ Missing g fw d.required ∧
      (d.isEnumerable = false → d.required ∈ path ∨ T d.required))
    (hs : T s) : plainSearch g fw path s = none := by
  induction path, s using plainSearch.induct g with
  | case1 path s ih =>
    rw [plainSearch_eq, Option.map_eq_none_iff, List.findSome?_eq_none_iff]
    intro d hd
    have hneeds : isMandatory d → Needs g s d := fun hm =>
      (needs_iff_mem_parametersOf hclosed).2 ⟨hd, hm⟩
    rcases plainStep_cases hg hclosed fw (s :: path) d with
      heq | ⟨hm, hmiss, -⟩ | ⟨hm, henum, hpath, hreg, heq⟩
    · exact heq
    · exact absurd hmiss (hT s hs d (hneeds hm)).1
    · rw [heq]
      refine ih d hpath hreg (fun x hx d' hd' => ?_) ?_
      · obtain ⟨hmiss, hnext⟩ := hT x hx d' hd'
        exact ⟨hmiss, fun he => (hnext he).imp_left (List.mem_cons_of_mem s)⟩
      · exact ((hT s hs d (hneeds hm)).2 henum).resolve_left (List.not_mem_of_not_mem_cons hpath)

theorem isSome_plainStep_of_missing (hclosed : g.Closed) (hm : isMandatory d)
    (hmiss : Missing g fw d.required) (hpath : d.required ∉ path) :
    (plainStep g fw path d).isSome := by
  have heff : (g.effective? d.required).isSome = false := by
    rw [← Bool.not_eq_true, ← isSome_resolveTarget?_iff hclosed, hmiss.resolveTarget?]
    exact Bool.false_ne_true
  simp [plainStep, hm, hmiss.registrationCount, hmiss.contains, hpath, heff]

theorem plainStep_of_registered (hm : isMandatory d) (henum : d.isEnumerable = false)
    (hpath : d.required ∉ path) (hreg : (g.effective? d.required).isSome) :
    plainStep g fw path d = plainSearch g fw path d.required := by
  simp [plainStep, hm, henum, hpath, hreg]

/-- The search finds something below a service from which a chain leads to a missing one, if the
chain keeps off the path and comes to no service twice. -/
theorem isSome_plainSearch (hclosed : g.Closed) {chain : List ServiceIdentity}
    (h : BrokenChain g fw (s :: chain)) (hnodup : (s :: chain).Nodup) (hoff : ∀ x ∈ chain, x ∉ path) :
    (plainSearch g fw path s).isSome := by
  generalize hl : s :: chain = l at h hnodup
  induction h generalizing s chain path with
  | @last s' d hd hmiss =>
    obtain ⟨rfl, rfl⟩ := List.cons.inj hl
    obtain ⟨hmem, hm⟩ := (needs_iff_mem_parametersOf hclosed).1 hd
    rw [plainSearch_eq, Option.isSome_map, List.findSome?_isSome_iff]
    refine ⟨d, hmem, isSome_plainStep_of_missing hclosed hm hmiss ?_⟩
    rw [List.mem_cons, not_or]
    exact ⟨fun heq => (List.nodup_cons.1 hnodup).1 (heq ▸ List.mem_cons_self),
      hoff _ List.mem_cons_self⟩
  | @cons s' d tail hd henum hb ih =>
    obtain ⟨rfl, rfl⟩ := List.cons.inj hl
    obtain ⟨hmem, hm⟩ := (needs_iff_mem_parametersOf hclosed).1 hd
    obtain ⟨hs, hnodup⟩ := List.nodup_cons.1 hnodup
    have hoff' : ∀ x ∈ d.required :: tail, x ∉ s :: path := by
      intro x hx
      rw [List.mem_cons, not_or]
      exact ⟨fun heq => hs (heq ▸ hx), hoff x hx⟩
    have hreg : (g.effective? d.required).isSome := by
      obtain ⟨_, n, _, hn, _⟩ := hb.broken.exists_needs.imp
        (fun _ => (needs_iff_requires hclosed).1)
      rw [hn]
      rfl
    rw [plainSearch_eq, Option.isSome_map, List.findSome?_isSome_iff]
    refine ⟨d, hmem, ?_⟩
    rw [plainStep_of_registered hm henum (hoff' _ List.mem_cons_self) hreg]
    exact ih (fun x hx => hoff' x (List.mem_cons_of_mem _ hx)) rfl hnodup

/-! ## The walk and the search -/

/-- The cache is safe, no walk was stopped by the limit, and a walked service waits only for services
that are on the path or were walked too. -/
structure Cache.Waits (c : Cache) (g : Graph) (fw : FrameworkServices) (p : Path) : Prop where
  safe : c.Safe g fw
  untruncated : c.Untruncated
  answers : ∀ x ∈ c.walked, Broken g fw x → ∀ d, Needs g x d → ¬ Missing g fw d.required ∧
    (d.isEnumerable = false → Broken g fw d.required →
      d.required ∈ Path.services p ∨ d.required ∈ c.walked)

theorem Cache.Waits.enter {c : Cache} {p : Path} (h : c.Waits g fw p) (s : ServiceIdentity)
    (n : Node) : (c.enter s).Waits g fw (p ++ [(s, n)]) where
  safe := h.safe
  untruncated := h.untruncated
  answers := by
    intro x hx hb d hd
    obtain ⟨hmiss, hnext⟩ := h.answers x hx hb d hd
    refine ⟨hmiss, fun he hb => (hnext he hb).imp_left (fun hx => ?_)⟩
    rw [Path.services_concat]
    exact List.mem_append_left _ hx

theorem Pending.mem_services_or_walked {p : Path} {before after : List ServiceIdentity} {v : Visit}
    (hclosed : g.Closed) (h : Pending g p before v after s) (hsub : before ⊆ after) :
    s ∈ Path.services p ∨ s ∈ after := by
  cases h with
  | walked hs _ => exact .inr hs
  | walkedBefore _ hs => exact .inr (hsub hs)
  | onPath hcut =>
    obtain ⟨_, _, _, _, hs⟩ := hcut
    exact .inl (List.mem_of_getElem? hs)
  | widened _ hgrows => exact absurd (neverWidens_of_closed hclosed _) hgrows

section Walk

variable {p : Path} {c : Cache} (hclosed : g.Closed)

include hclosed

/-- A walk that finds nothing leaves a cache that waits only for the path. -/
theorem waits_expand {room : Nat} (hroom : g.nodes.length ≤ p.length + room)
    (hp : Path.Above g p s) (hroot : p = [] → c.walked = []) (hreg : (g.resolveTarget? s).isSome)
    (hc : c.Waits g fw p) (hnone : (expand g fw room p s c).1.chain = none) :
    (expand g fw room p s c).2.Waits g fw p := by
  have huntrunc : (expand g fw room p s c).1.truncated = false ∧
      (expand g fw room p s c).2.Untruncated :=
    untruncated_expand_of_closed hclosed hroom hp hreg hc.untruncated
  have hsettles : Settles g fw p c.walked s (expand g fw room p s c) :=
    settles_expand hp hroot hreg hc.safe
  have hcovers := hsettles.covers (neverWidens_of_closed hclosed s) ⟨hnone, huntrunc.1⟩
  refine ⟨hsettles.safe, huntrunc.2, fun x hx hb d hd => ?_⟩
  by_cases hbefore : x ∈ c.walked
  · obtain ⟨hmiss, hnext⟩ := hc.answers x hbefore hb d hd
    exact ⟨hmiss, fun he hb => (hnext he hb).imp_right (fun hx => hcovers.subset hx)⟩
  · have hanswer := hcovers.answers x hx hbefore hb d hd
    exact ⟨hanswer.not_missing, fun he hb =>
      (hanswer.pending he hb).mem_services_or_walked hclosed hcovers.subset⟩

variable (hg : g.WellFormed)

include hg

/-- The search finds nothing below a service that leads to no missing one, nor below one that the
walk does not enter again. -/
theorem plainSearch_eq_none_of_waits (hc : c.Waits g fw p) (hs : ¬ Broken g fw s ∨ s ∈ c.walked) :
    plainSearch g fw (Path.services p).reverse s = none := by
  refine plainSearch_eq_none hg hclosed (T := fun x => ¬ Broken g fw x ∨ x ∈ c.walked) ?_ hs
  intro x hx d hd
  by_cases hb : Broken g fw x
  · obtain ⟨hmiss, hnext⟩ := hc.answers x (hx.resolve_left (not_not_intro hb)) hb d hd
    refine ⟨hmiss, fun he => ?_⟩
    by_cases hb : Broken g fw d.required
    · exact (hnext he hb).imp List.mem_reverse.2 .inr
    · exact .inr (.inl hb)
  · refine ⟨fun hmiss => hb (BrokenChain.last hd hmiss).broken, fun he => .inr (.inl ?_)⟩
    exact fun hb' => hb (.of_leads ⟨d, hd, he, rfl⟩ hb')

omit hg in
theorem chain_visitDependency {below : ServiceIdentity → Cache → Visit × Cache}
    (hbelow : isMandatory d → d.isEnumerable = false → d.required ∉ Path.services p →
      (g.resolveTarget? d.required).isSome →
      (below d.required c).1.chain = plainSearch g fw (Path.services p).reverse d.required) :
    (visitDependency g fw p below d c).1.chain = plainStep g fw (Path.services p).reverse d := by
  have hx := visitDependency_visits g fw p below d c
  generalize visitDependency g fw p below d c = r at hx
  cases hx with
  | skipped hm => simp [plainStep, hm, Visit.resolved]
  | collected hm henum hany => simp [plainStep, hm, henum, hany, Visit.resolved]
  | noneToCollect hm henum hcount hfw => simp [plainStep, hm, henum, hcount, hfw, Visit.missing]
  | onPath hm henum hpos =>
    have hmem := List.mem_of_getElem? (Path.getElem?_of_position? hpos)
    simp [plainStep, hm, henum, hmem, Visit.cutAt]
  | registered hm henum hpos ht =>
    have hpath := Path.position?_eq_none_iff.1 hpos
    have hreg := (isSome_resolveTarget?_iff hclosed).1 ht
    rw [hbelow hm henum hpath ht,
      plainStep_of_registered hm henum (mt List.mem_reverse.1 hpath) hreg]
  | provided hm henum hpos ht hfw =>
    have hpath := Path.position?_eq_none_iff.1 hpos
    have heff : g.effective? d.required = none := by simpa [hclosed.resolveTarget?_eq] using ht
    simp [plainStep, hm, henum, hpath, heff, hfw, Visit.resolved]
  | missing hm henum hpos ht hfw =>
    have hpath := Path.position?_eq_none_iff.1 hpos
    have heff : g.effective? d.required = none := by simpa [hclosed.resolveTarget?_eq] using ht
    simp [plainStep, hm, henum, hpath, heff, hfw, Visit.missing]

omit hclosed hg in
/-- Visits in order find what the first of them finds that finds anything. -/
theorem chain_visitAll {visit : Dependency → Cache → Visit × Cache}
    {f : Dependency → Option (List ServiceIdentity)} {I : Cache → Prop} {ds : List Dependency}
    (h : ∀ d ∈ ds, ∀ c, I c → (visit d c).1.chain = f d ∧ (f d = none → I (visit d c).2))
    (hc : I c) : (visitAll visit ds c).1.chain = ds.findSome? f := by
  induction ds generalizing c with
  | nil => rfl
  | cons d ds ih =>
    obtain ⟨hchain, hkeep⟩ := h d List.mem_cons_self c hc
    rw [visitAll, List.findSome?_cons]
    simp only [hchain]
    cases hf : f d with
    | some chain => exact hchain.trans hf
    | none => exact ih (fun d' hd' => h d' (List.mem_cons_of_mem d hd')) (hkeep hf)

omit hg in
theorem arrives_of_broken (hb : Broken g fw s) (hsafe : c.Safe g fw) (hwalked : s ∉ c.walked) :
    ∃ t ds, Arrives g p s c t ∧ expandable? g t = some ds := by
  obtain ⟨d, hd⟩ := hb.exists_needs
  obtain ⟨t, ds, ht, he, -⟩ := needs_iff.1 hd
  refine ⟨t, ds, ⟨fun hs => hsafe s hs (neverWidens_of_closed hclosed s) hb,
    Cache.lookup_eq_none_iff.2 hwalked, ht, ?_⟩, he⟩
  rw [hclosed.resolveTarget?_eq] at ht
  obtain ⟨n, -, rfl⟩ := Option.map_eq_some_iff.1 ht
  rfl

omit hg in
/-- The visits below a service agree with the search one by one, if the walks below it do. -/
theorem chain_visitBelow {room : Nat} {t : Target} {ds : List Dependency}
    (hroom : g.nodes.length ≤ (p ++ [(s, t.node)]).length + room) (hp : Path.Above g p s)
    (ht : g.resolveTarget? s = some t) (he : expandable? g t = some ds) (hc : c.Waits g fw p)
    (ih : ∀ {x : ServiceIdentity} {c : Cache}, Path.Above g (p ++ [(s, t.node)]) x →
      (g.resolveTarget? x).isSome → c.Waits g fw (p ++ [(s, t.node)]) →
      (expand g fw room (p ++ [(s, t.node)]) x c).1.chain =
        plainSearch g fw (Path.services (p ++ [(s, t.node)])).reverse x) :
    (visitBelow g fw room p s t.node ds c).1.chain =
      ds.findSome? (plainStep g fw (s :: (Path.services p).reverse)) := by
  have hpath : (Path.services (p ++ [(s, t.node)])).reverse = s :: (Path.services p).reverse := by
    rw [Path.services_concat, List.reverse_append]
    rfl
  have hne : p ++ [(s, t.node)] ≠ [] :=
    List.append_ne_nil_of_right_ne_nil p (List.cons_ne_nil _ _)
  rw [← hpath]
  refine chain_visitAll (I := fun c => c.Waits g fw (p ++ [(s, t.node)])) ?_ (hc.enter s t.node)
  intro d hd c hc
  have habove : isMandatory d → d.isEnumerable = false →
      d.required ∉ Path.services (p ++ [(s, t.node)]) →
      Path.Above g (p ++ [(s, t.node)]) d.required := fun hm henum hx =>
    hp.concat ht (leads_of_expandable? ht he hd hm henum) hx
  have hchain := chain_visitDependency hclosed (d := d) (c := c) (fun hm henum hx hreg =>
    ih (habove hm henum hx) hreg hc)
  refine ⟨hchain, fun hnone => ?_⟩
  rw [← hchain] at hnone
  rcases visitDependency_below_or_flat g fw (p ++ [(s, t.node)]) d with
    ⟨hm, henum, hx, hreg, heq⟩ | ⟨v, -, heq⟩
  · rw [heq] at hnone ⊢
    exact waits_expand hclosed hroom (habove hm henum hx) (fun hnil => absurd hnil hne) hreg hc hnone
  · rw [heq]
    exact hc

/-- The walk finds what the search finds. By induction on the room: a service that leads to a missing
one and was not walked before is entered by both, and below any other neither finds anything. -/
theorem chain_expand_eq_plainSearch {room : Nat} (hroom : g.nodes.length ≤ p.length + room)
    (hp : Path.Above g p s) (hreg : (g.resolveTarget? s).isSome) (hc : c.Waits g fw p) :
    (expand g fw room p s c).1.chain = plainSearch g fw (Path.services p).reverse s := by
  induction room generalizing p s c with
  | zero => exact absurd (hp.length_lt hclosed hreg) (Nat.not_lt_of_le hroom)
  | succ room ih =>
    by_cases hb : Broken g fw s
    · by_cases hwalked : s ∈ c.walked
      · have hr : s ∉ c.resolved := fun hs => hc.safe s hs (neverWidens_of_closed hclosed s) hb
        obtain ⟨_, heq⟩ := expand_of_walked (room + 1) hr hwalked
        rw [heq, plainSearch_eq_none_of_waits hclosed hg hc (.inr hwalked)]
      · obtain ⟨t, ds, harr, he⟩ := arrives_of_broken hclosed hb hc.safe hwalked
        have hroom' : g.nodes.length ≤ (p ++ [(s, t.node)]).length + room := by
          rw [List.length_append, List.length_singleton]
          omega
        rw [chain_expand_of_arrives harr he, plainSearch_eq, parametersOf_eq hclosed harr.target he,
          chain_visitBelow hclosed hroom' hp harr.target he hc (ih hroom')]
    · rw [plainSearch_eq_none_of_waits hclosed hg hc (.inl hb), ← Option.not_isSome_iff_eq_none]
      exact fun hsome => hb (broken_of_isSome_chain hg hp.not_mem hsome)

end Walk

end Search

/-- Nothing is lost by what the check remembers: if no registered service is a generic definition and
the limit, brought into its bounds, is not less than the number of nodes, then the search that
remembers nothing finds the same chain for each root, and its chains give the findings. -/
theorem findings_of_plainSearch (rs : List Registration) (shapes : List TypeShape)
    (fw : FrameworkServices) (limit : Nat) (hopen : ∀ r ∈ rs, r.service.isOpen = false)
    (hlimit : (Graph.build rs shapes).nodes.length ≤ clampDepth limit) :
    let g := Graph.build rs shapes
    (visits g fw limit).map (fun e => (e.1, e.2.chain)) =
        (g.nodes.filter isRoot).map (fun n => (n, plainSearch g fw [] n.service)) ∧
      check g fw limit false = .ok ((g.nodes.filter isRoot).filterMap (fun n =>
        (plainSearch g fw [] n.service).map (report g n))) := by
  intro g
  have hg : g.WellFormed := Graph.build_wellFormed rs shapes
  have hclosed : g.Closed := Graph.build_closed rs shapes hopen
  have hchain : ∀ e ∈ visits g fw limit, e.2.chain = plainSearch g fw [] e.1.service := by
    rintro ⟨n, v⟩ he
    obtain ⟨hn, resolved, hres, rfl⟩ := exists_safe_of_mem_visits hg he
    refine chain_expand_eq_plainSearch hclosed hg (p := []) (Nat.le_trans hlimit
      (Nat.le_add_left _ _)) (.nil g _) (isSome_resolveTarget?_service hg hn) ⟨hres, ?_, ?_⟩
    · exact fun e he => absurd he List.not_mem_nil
    · exact fun x hx => absurd hx List.not_mem_nil
  rw [← map_fst_visits, List.map_map, List.filterMap_map]
  refine ⟨List.map_congr_left (fun e he => ?_), congrArg Except.ok ?_⟩
  · rw [hchain e he]
    rfl
  · rw [findings_eq_filterMap_visits]
    refine List.filterMap_congr (fun e he => ?_)
    rw [hchain e he]
    rfl

/-- Three services in two cycles, and a fourth that asks for one of them before it asks for the
missing `E`. When the walk of `A` comes to `D` through `C`, it does not enter `D` again. -/
theorem findings_of_plainSearch_on_cycles :
    let type (name : String) : TypeRef := .closed name []
    let chain (names : List String) := some (names.map (fun name => ServiceIdentity.of (type name)))
    let rs := [asItself (type "A") 1, asItself (type "B") 2, asItself (type "C") 3,
      asItself (type "D") 4]
    let shapes := [constructedFrom (type "A") [type "B", type "C"],
      constructedFrom (type "B") [type "A", type "D"],
      constructedFrom (type "C") [type "D", type "E"], constructedFrom (type "D") [type "B"]]
    let g := Graph.build rs shapes
    (∀ r ∈ rs, r.service.isOpen = false) ∧ g.nodes.length ≤ clampDepth 4 ∧
      (visits g .disabled 4).map (fun e => e.2.chain) =
        [chain ["A", "C", "E"], chain ["B", "A", "C", "E"], chain ["C", "E"],
          chain ["D", "B", "A", "C", "E"]] ∧
      (visits g .disabled 4).map (fun e => (e.1, e.2.chain)) =
        (g.nodes.filter isRoot).map (fun n => (n, plainSearch g .disabled [] n.service)) := by
  intro type chain rs shapes g
  have hopen : ∀ r ∈ rs, r.service.isOpen = false := by decide
  have hnodup : (rs.map Registration.service).Nodup := by decide
  have hbuild := Graph.build_eq_of_inOrder hnodup (by decide) shapes
  have hlimit : g.nodes.length ≤ clampDepth 4 := by
    unfold g
    rw [hbuild]
    decide
  refine ⟨hopen, hlimit, ?_, (findings_of_plainSearch rs shapes .disabled 4 hopen hlimit).1⟩
  unfold g
  rw [hbuild]
  decide +kernel

/-- Where a way leads through all services, the walk of the first one misses what the search finds
if the limit leaves room for all but one. -/
theorem Detour.exists_missed {m limit : Nat} (hm : m ≤ maxDepth) (h3 : 3 ≤ m)
    {fw : FrameworkServices} (hlimit : clampDepth limit = m)
    (hfw : fw.contains (service (m + 1)) = false) :
    ∃ e ∈ visits (graph m) fw limit, e.2.chain = none ∧
      (plainSearch (graph m) fw [] e.1.service).isSome := by
  let visit := (expand (graph m) fw m [] (service 0) (.start [])).1
  have hvisit : (node 0, visit) ∈ visits (graph m) fw limit := by
    have hroot : isRoot (node 0) := rfl
    rw [visits, hlimit, nodes_graph_eq_cons hm, visitsFrom, if_pos hroot]
    exact List.mem_cons_self
  have hnodup : ([0, m - 1, m, m + 1].map service).Nodup := by
    refine List.Nodup.map service_injective ?_
    simp
    omega
  refine ⟨_, hvisit, expand_root hm h3, ?_⟩
  exact isSome_plainSearch (graph_closed m) (brokenChain_root hm h3 hfw) hnodup
    (fun x _ => List.not_mem_nil)

/-- A limit above the greatest one is taken for that. So the limit of 1025 leaves no room for 1025
nodes, and for one of them the search finds what the check does not. -/
theorem plainSearch_differs_above_maxDepth :
    (∀ r ∈ Detour.registrations 1024, r.service.isOpen = false) ∧
      (Detour.graph 1024).nodes.length ≤ 1025 ∧
      ∃ e ∈ visits (Detour.graph 1024) .disabled 1025, e.2.chain = none ∧
        (plainSearch (Detour.graph 1024) .disabled [] e.1.service).isSome := by
  have hm : 1024 ≤ maxDepth := Nat.le_refl _
  have hlength : (Detour.graph 1024).nodes.length = 1025 := by
    rw [Detour.nodes_graph hm, List.length_map, List.length_range]
  exact ⟨Detour.isOpen_registrations, Nat.le_of_eq hlength,
    Detour.exists_missed hm (by decide) rfl rfl⟩

end Resolvability

end Wiring
