import Mathlib.Data.List.Nodup
import Wiring.Proofs.Graph
import Wiring.Proofs.Turns

/-!
# The order in which facts arrive

The facts of a program are gathered by tools that list them in any order. The report does not show
it: registrations are put into the order of their declaration, shapes are looked up by their type,
and findings are sorted at the end. What could tell one order from another are two registrations of
a service with the same place, or two shapes of a type; of these the first one listed counts.

Results:
1. `Graph.build_agrees_of_perm`: the graph has the same nodes, and each type has the same shape.
2. `Graph.Agrees.findings_resolvability` and its like: such graphs have the same findings.
3. `analyze_permuted`: the reports on facts that arrive in different orders.
-/

namespace Wiring

/-! ## Registrations -/

/-- No two registrations of a service have the same place. -/
def DistinctPlaces (rs : List Registration) : Prop :=
  (rs.map (fun r => (r.service, r.insertionIndex))).Nodup

instance (rs : List Registration) : Decidable (DistinctPlaces rs) :=
  inferInstanceAs (Decidable (List.Nodup _))

section Registrations

variable {rs rs' : List Registration} (hdistinct : DistinctPlaces rs) (h : rs.Perm rs')

include h

theorem servicesOf_perm : (servicesOf rs).Perm (servicesOf rs') := by
  rw [List.perm_ext_iff_of_nodup (nodup_servicesOf rs) (nodup_servicesOf rs')]
  intro s
  rw [mem_servicesOf, mem_servicesOf]
  constructor
  · rintro ⟨r, hr, hs⟩
    exact ⟨r, h.mem_iff.1 hr, hs⟩
  · rintro ⟨r, hr, hs⟩
    exact ⟨r, h.mem_iff.2 hr, hs⟩

include hdistinct

theorem entriesOf_eq_of_perm : entriesOf rs = entriesOf rs' := by
  funext s
  refine mergeSort_eq_of_perm index_le_trans index_le_total ?_ (h.filter _)
  intro a ha b hb hab hba
  simp only [decide_eq_true_eq] at hab hba
  rw [List.mem_filter, beq_iff_eq] at ha hb
  have hkey : (a.service, a.insertionIndex) = (b.service, b.insertionIndex) := by
    rw [ha.2, hb.2, UInt64.le_antisymm hab hba]
  exact List.inj_on_of_nodup_map hdistinct ha.1 hb.1 hkey

theorem nullifiedRegistrations_perm :
    (nullifiedRegistrations rs).Perm (nullifiedRegistrations rs') := by
  unfold nullifiedRegistrations
  rw [entriesOf_eq_of_perm hdistinct h]
  exact (List.mergeSort_perm _ _).trans
    (((servicesOf_perm h).flatMap_right _).trans (List.mergeSort_perm _ _).symm)

/-- Different services have different effective registrations, so no two groups stand side by side.
-/
theorem effectiveGroups_eq_of_perm : Graph.effectiveGroups rs = Graph.effectiveGroups rs' := by
  unfold Graph.effectiveGroups
  rw [entriesOf_eq_of_perm hdistinct h]
  rw [declaredBefore_eq_isLE]
  refine mergeSort_eq_of_perm (fun _ _ _ => Std.TransCmp.isLE_trans) isLE_total ?_
    ((servicesOf_perm h).filterMap _)
  intro a ha b hb hab hba
  obtain ⟨s, -, hs⟩ := List.mem_filterMap.1 ha
  obtain ⟨t, -, ht⟩ := List.mem_filterMap.1 hb
  obtain ⟨r, hr, rfl⟩ := Option.map_eq_some_iff.1 hs
  obtain ⟨q, hq, rfl⟩ := Option.map_eq_some_iff.1 ht
  have heq : declaredOrder (r, entriesOf rs' s) (q, entriesOf rs' t) = .eq :=
    Std.OrientedCmp.isLE_antisymm hab hba
  have hservice : r.service = q.service := ServiceIdentity.eq_of_cmp (Ordering.then_eq_eq.1 heq).2
  rw [(mem_entriesOf.1 (mem_of_inForce? hr)).2, (mem_entriesOf.1 (mem_of_inForce? hq)).2] at hservice
  subst hservice
  rw [hr] at hq
  rw [Option.some.inj hq]

end Registrations

/-! ## Graphs that agree -/

namespace Graph

/-- The graphs have the same nodes, and every type has the same shape in both. -/
structure Agrees (g g' : Graph) : Prop where
  nodes : g.nodes = g'.nodes
  declaredShape? : g.declaredShape? = g'.declaredShape?

theorem build_agrees_of_perm {rs rs' : List Registration} {shapes shapes' : List TypeShape}
    (hplaces : DistinctPlaces rs) (hshapes : (shapes.map TypeShape.identity).Nodup)
    (hrs : rs.Perm rs') (hperm : shapes.Perm shapes') :
    (build rs shapes).Agrees (build rs' shapes') where
  nodes := by
    unfold build
    rw [effectiveGroups_eq_of_perm hplaces hrs]
  declaredShape? := by
    have hshapes' : (shapes'.map TypeShape.identity).Nodup :=
      (hperm.map TypeShape.identity).nodup_iff.1 hshapes
    funext ty
    ext s
    show shapes.find? (fun x => x.identity == ty) = some s ↔
      shapes'.find? (fun x => x.identity == ty) = some s
    rw [find?_eq_some_iff_of_nodup hshapes, find?_eq_some_iff_of_nodup hshapes']
    exact and_congr_left' hperm.mem_iff

namespace Agrees

variable {g g' : Graph} (h : g.Agrees g')

include h

theorem effective? : g.effective? = g'.effective? := by
  funext s
  unfold Graph.effective? Graph.index
  rw [h.nodes]

theorem resolveTarget? : g.resolveTarget? = g'.resolveTarget? := by
  funext s
  unfold Graph.resolveTarget?
  rw [h.effective?]

theorem registrationCount : g.registrationCount = g'.registrationCount := by
  funext s
  unfold Graph.registrationCount Graph.entryCount Graph.index
  rw [h.nodes]

theorem shapeFor? : g.shapeFor? = g'.shapeFor? := by
  funext ty
  unfold Graph.shapeFor?
  rw [h.declaredShape?]

theorem dependenciesOf? : g.dependenciesOf? = g'.dependenciesOf? := by
  funext n args
  unfold Graph.dependenciesOf?
  rw [h.shapeFor?]

theorem edges : g.edges = g'.edges := by
  have hfrom : g.edgesFrom = g'.edgesFrom := by
    funext n
    unfold Graph.edgesFrom
    rw [h.dependenciesOf?, h.resolveTarget?]
  unfold Graph.edges
  rw [h.nodes, hfrom]

theorem findings_captive : Captive.findings g = Captive.findings g' := by
  unfold Captive.findings Graph.links
  rw [h.nodes, h.edges]

theorem findings_compatibility : Compatibility.findings g = Compatibility.findings g' := by
  have hone : Compatibility.finding? g = Compatibility.finding? g' := by
    funext n
    unfold Compatibility.finding?
    rw [h.shapeFor?]
  unfold Compatibility.findings
  rw [h.nodes, hone]

open Resolvability

theorem visitDependency (fw : FrameworkServices) :
    visitDependency g fw = Resolvability.visitDependency g' fw := by
  funext p expand d c
  unfold Resolvability.visitDependency
  rw [h.registrationCount, h.resolveTarget?]

/-- Every walk goes the same way. By induction on the room. -/
theorem expand (fw : FrameworkServices) (room : Nat) :
    expand g fw room = Resolvability.expand g' fw room := by
  have hexp : expandable? g = expandable? g' := by
    funext t
    unfold expandable?
    rw [h.dependenciesOf?]
  induction room with
  | zero =>
    funext p s c
    rw [expand.eq_def, expand.eq_def, h.resolveTarget?, hexp]
  | succ room ih =>
    funext p s c
    rw [expand.eq_def, expand.eq_def, h.resolveTarget?, hexp]
    simp only [ih, h.visitDependency]

theorem findings_resolvability (fw : FrameworkServices) (limit : Nat) :
    Resolvability.findings g fw limit = Resolvability.findings g' fw limit := by
  have hreport : report g = report g' := by
    funext root chain
    unfold report
    rw [h.resolveTarget?]
  have hfrom : ∀ resolved ns, findingsFrom g fw (clampDepth limit) resolved ns =
      findingsFrom g' fw (clampDepth limit) resolved ns := by
    intro resolved ns
    induction ns generalizing resolved with
    | nil => rfl
    | cons n ns ih =>
      unfold findingsFrom
      rw [h.expand, hreport]
      simp only [ih]
  unfold Resolvability.findings
  rw [h.nodes]
  exact hfrom [] g'.nodes

end Agrees

end Graph

/-! ## Facts -/

namespace Facts

/-- No two registrations of a service have the same place, and no two shapes are of the same type. -/
structure Distinct (f : Facts) : Prop where
  places : DistinctPlaces f.registrations
  shapes : (f.shapes.map TypeShape.identity).Nodup

/-- The same facts, those of each kind in another order. -/
structure Permuted (f f' : Facts) : Prop where
  registrations : f.registrations.Perm f'.registrations
  shapes : f.shapes.Perm f'.shapes
  procedures : f.procedures.Perm f'.procedures
  assignments : f.assignments.Perm f'.assignments

end Facts

namespace Analysis

section

variable {f f' : Facts} (hdistinct : f.Distinct) (h : f.Permuted f')

include h hdistinct

theorem build_agrees : (Graph.build f.registrations f.shapes).Agrees
    (Graph.build f'.registrations f'.shapes) :=
  Graph.build_agrees_of_perm hdistinct.places hdistinct.shapes h.registrations h.shapes

theorem graphFindings_perm (o : Options) : (graphFindings o f).Perm (graphFindings o f') := by
  have hagrees := build_agrees hdistinct h
  unfold graphFindings
  simp only [hagrees.findings_captive, hagrees.findings_resolvability,
    hagrees.findings_compatibility]
  exact (((nullifiedRegistrations_perm hdistinct.places h.registrations).append_right _).append_right
    _).append_right _

theorem configured_findings_eq (o : Options) :
    configured o (findings o f) = configured o (findings o f') := by
  have hsound : (sound f).Perm (sound f') := h.procedures.filter _
  have hperm : (graphFindings o f ++ (sound f).flatMap Procedure.findings ++
      staticCacheFindings f.assignments).Perm (graphFindings o f' ++
        (sound f').flatMap Procedure.findings ++ staticCacheFindings f'.assignments) :=
    ((graphFindings_perm hdistinct h o).append (hsound.flatMap_right _)).append
      (h.assignments.filterMap _)
  have hplain : (findings o f).map Diagnostic.plain = (findings o f').map Diagnostic.plain :=
    Sink.map_plain_finish_of_perm hperm
  rw [← configured_map_plain, hplain, configured_map_plain]

theorem stats_report_eq (o : Options) : (report o f).stats = (report o f').stats := by
  have hagrees := build_agrees hdistinct h
  have hsound : (sound f).Perm (sound f') := h.procedures.filter _
  have hskipped : (skipped f).Perm (skipped f') := h.procedures.filterMap _
  unfold report
  simp only [hagrees.nodes, hagrees.edges, configured_findings_eq hdistinct h o,
    h.registrations.length_eq, hsound.length_eq, hskipped.length_eq]

end

end Analysis

/-- The order in which facts arrive does not matter: under options that let procedures be left out,
facts in any two orders are analysed with the same findings in the same order and the same numbers.
The procedures left out are listed in the order of the procedures, each as it would be alone. -/
theorem analyze_permuted (o : Options) (f f' : Facts) (hskip : o.traceErrors = .skip)
    (hdistinct : f.Distinct) (h : f.Permuted f') :
    ∃ r r', analyze o f false = .ok r ∧ analyze o f' false = .ok r' ∧
      r.diagnostics = r'.diagnostics ∧ r.stats = r'.stats ∧
      r.skipped = f.procedures.filterMap Analysis.skipped? ∧
      r'.skipped = f'.procedures.filterMap Analysis.skipped? := by
  have hok : ∀ f, analyze o f false = .ok (Analysis.report o f) := by
    intro f
    exact analyze_eq_ok_iff.2 ⟨by rw [Analysis.fault?, hskip], rfl⟩
  exact ⟨_, _, hok f, hok f', Analysis.configured_findings_eq hdistinct h o,
    Analysis.stats_report_eq hdistinct h o, rfl, rfl⟩

/-- Facts listed forwards and backwards. Two registrations are of the same service, two of different
services have the same place, and both procedures are left out. -/
theorem analyze_permuted_on_reversed :
    let registered (name : String) (line : UInt32) (index : UInt64) : Registration :=
      ⟨.of (.closed name []), .type (.closed name []) .runtimeTypes, .singleton,
        ⟨"Startup", line, 0⟩, index, false⟩
    let faulty (name : String) : Procedure := .linear name false [.dispose "scope" ⟨"Main", 1, 0⟩]
    let f : Facts :=
      ⟨[registered "A" 1 1, registered "B" 2 1, registered "A" 3 2],
        [(TypeShape.ofType (.closed "A" [])).dependsOn (.require (.closed "B" [])),
          TypeShape.ofType (.closed "B" [])],
        [faulty "start", faulty "stop"],
        [⟨"Cache.provider", .shared, .serviceProvider, ⟨"Cache", 5, 0⟩⟩,
          ⟨"Cache.factory", .shared, .scopeFactory, ⟨"Cache", 6, 0⟩⟩]⟩
    let f' : Facts := ⟨f.registrations.reverse, f.shapes.reverse, f.procedures.reverse,
      f.assignments.reverse⟩
    f.Distinct ∧ f.Permuted f' ∧ ∃ r r', analyze .default f false = .ok r ∧
      analyze .default f' false = .ok r' ∧ r.diagnostics = r'.diagnostics ∧ r.stats = r'.stats ∧
      r.skipped.map Skipped.procedure = ["start", "stop"] ∧
      r'.skipped.map Skipped.procedure = ["stop", "start"] := by
  intro registered faulty f f'
  have hdistinct : f.Distinct := ⟨by decide, by decide⟩
  have hperm : f.Permuted f' := ⟨(List.reverse_perm _).symm, (List.reverse_perm _).symm,
    (List.reverse_perm _).symm, (List.reverse_perm _).symm⟩
  obtain ⟨r, r', hr, hr', hdiagnostics, hstats, hskipped, hskipped'⟩ :=
    analyze_permuted .default f f' rfl hdistinct hperm
  refine ⟨hdistinct, hperm, r, r', hr, hr', hdiagnostics, hstats, ?_, ?_⟩
  · rw [hskipped]
    decide
  · rw [hskipped']
    decide

end Wiring
