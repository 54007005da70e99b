import Mathlib.Data.List.Permutation
import Wiring.Proofs.Arrival
import Wiring.Proofs.Resolvability.Chains
import Wiring.Proofs.Scope.Tracked

/-!
# Registrations without effect

A node of the graph keeps all registrations of its service, but the checks look at the effective one
and at whether there is any. So registrations without effect can be left out: what remains builds
the same graph, with nothing else at its nodes, and every check finds the same. Only the findings
about the registrations that were left out are gone.

Results:
1. `Graph.build_registrations`: to choose among effective registrations changes nothing.
2. `Resolvability.expand_bare` and its like: no check sees more than the effective registrations.
3. `analyze_effective`: the report on the effective registrations.
-/

namespace Wiring

/-- The node with no registration but the effective one. -/
def Node.bare (n : Node) : Node :=
  { n with entries := [n.registration] }

def Target.bare (t : Target) : Target :=
  { t with node := t.node.bare }

def Edge.bare (e : Edge) : Edge :=
  { e with source := e.source.bare, target := e.target.bare }

/-- Where the edge leads from and where to, and the dependency behind it. -/
def Edge.ends (e : Edge) : Nat × Nat × Dependency :=
  (e.source.ix, e.target.ix, e.dependency)

namespace Graph

def bare (g : Graph) : Graph :=
  { g with nodes := g.nodes.map Node.bare }

/-! ## The graph of effective registrations -/

section Build

variable (rs : List Registration) (shapes : List TypeShape)

theorem nodup_services_registrations :
    (((build rs shapes).nodes.map Node.registration).map Registration.service).Nodup := by
  rw [List.map_map]
  exact (build_wellFormed rs shapes).nodup

theorem build_registrations :
    build ((build rs shapes).nodes.map Node.registration) shapes = (build rs shapes).bare := by
  have hsorted : ((build rs shapes).nodes.map Node.registration).Pairwise
      (fun a b => declaredBefore (a, [a]) (b, [b])) := by
    rw [registrations_build]
    exact List.pairwise_map.2 (pairwise_declaredBefore_effectiveGroups rs)
  rw [build_eq_of_declaredBefore (nodup_services_registrations rs shapes) hsorted]
  unfold bare
  congr 1
  refine List.ext_getElem? (fun i => ?_)
  simp only [build, List.getElem?_map, List.getElem?_mapIdx, Option.map_map]
  rfl

end Build

/-! ## What the checks see of a graph -/

section Bare

variable (g : Graph)

theorem numbers_enter_bare (x y : Index) (i : Nat) (ns : List Node)
    (h : x.numbers = y.numbers) :
    (x.enter i (ns.map Node.bare)).numbers = (y.enter i ns).numbers := by
  induction ns generalizing x y i with
  | nil => exact h
  | cons n ns ih => exact ih _ _ _ (congrArg (fun numbers => (n.service, i) :: numbers) h)

theorem effective?_bare (s : ServiceIdentity) :
    g.bare.effective? s = (g.effective? s).map Node.bare := by
  have hnumbers : g.bare.index.numbers = g.index.numbers :=
    numbers_enter_bare .empty .empty 0 g.nodes rfl
  rw [effective?, effective?, hnumbers, Option.map_bind]
  exact Option.bind_congr (fun i _ => List.getElem?_map)

theorem resolveTarget?_bare (s : ServiceIdentity) :
    g.bare.resolveTarget? s = (g.resolveTarget? s).map Target.bare := by
  unfold resolveTarget?
  rw [effective?_bare]
  cases g.effective? s with
  | some n => rfl
  | none =>
    cases s.openDefinition with
    | none => rfl
    | some o =>
      show (g.bare.effective? o).map _ = ((g.effective? o).map _).map Target.bare
      rw [effective?_bare, Option.map_map, Option.map_map]
      rfl

variable {g} in
theorem WellFormed.bare (h : g.WellFormed) : g.bare.WellFormed where
  nodup := by
    show ((g.nodes.map Node.bare).map Node.service).Nodup
    rw [List.map_map]
    exact h.nodup
  entries_ne_nil n hn := by
    obtain ⟨m, -, rfl⟩ := List.mem_map.1 hn
    exact List.cons_ne_nil _ _

/-- Whether a service is registered at all is the same with one registration and with more. -/
theorem WellFormed.registrationCount_bare_pos_iff {g : Graph} (h : g.WellFormed)
    (s : ServiceIdentity) : 0 < g.bare.registrationCount s ↔ 0 < g.registrationCount s := by
  rw [Nat.pos_iff_ne_zero, Nat.pos_iff_ne_zero, Ne, Ne, h.bare.registrationCount_eq_zero_iff,
    h.registrationCount_eq_zero_iff, resolveTarget?_bare, Option.map_eq_none_iff]

theorem edgesFrom_bare (n : Node) :
    g.bare.edgesFrom n.bare = (g.edgesFrom n).map Edge.bare := by
  unfold edgesFrom
  rw [List.map_filterMap]
  have hdeps : g.bare.dependenciesOf? n.bare [] = g.dependenciesOf? n [] := rfl
  rw [hdeps]
  refine List.filterMap_congr (fun d _ => ?_)
  rw [resolveTarget?_bare, Option.map_map, Option.map_map]
  rfl

theorem edges_bare : g.bare.edges = g.edges.map Edge.bare := by
  unfold edges
  rw [List.map_flatMap]
  show (g.nodes.map Node.bare).flatMap g.bare.edgesFrom = _
  rw [List.flatMap_map]
  simp only [edgesFrom_bare]

/-- An edge is entered under its source, whatever else is registered there. -/
theorem enter_bare (outgoing : List (List Nat)) (i : Nat) (es : List Edge) :
    Links.enter outgoing i (es.map Edge.bare) = Links.enter outgoing i es := by
  induction es generalizing outgoing i with
  | nil => rfl
  | cons e es ih => exact ih _ _

theorem leaving_bare (ix : Nat) :
    g.bare.links.leaving ix = (g.links.leaving ix).map Edge.bare := by
  have hlength : g.bare.nodes.length = g.nodes.length := List.length_map _
  unfold links Links.leaving
  rw [edges_bare, enter_bare, hlength, List.map_filterMap]
  simp only [List.getElem?_map]

end Bare

end Graph

theorem Captive.findings_bare (g : Graph) : Captive.findings g.bare = Captive.findings g := by
  have hat : ∀ n : Node,
      Captive.findingsAt g.bare.links n.bare = Captive.findingsAt g.links n := by
    intro n
    unfold Captive.findingsAt
    show ((g.bare.links.leaving n.ix).filter isCaptive).map report = _
    rw [g.leaving_bare, List.filter_map, List.map_map]
    rfl
  unfold Captive.findings
  show (g.nodes.map Node.bare).flatMap (Captive.findingsAt g.bare.links) = _
  rw [List.flatMap_map]
  simp only [hat]

theorem Compatibility.findings_bare (g : Graph) :
    Compatibility.findings g.bare = Compatibility.findings g := by
  unfold Compatibility.findings
  show (g.nodes.map Node.bare).filterMap (finding? g.bare) = _
  rw [List.filterMap_map]
  rfl

namespace Resolvability

/-- The path with nothing but the effective registrations at its nodes. -/
def Path.bare (p : Path) : Path :=
  p.map (fun e => (e.1, e.2.bare))

theorem position?_bare (p : Path) (s : ServiceIdentity) : p.bare.position? s = p.position? s := by
  unfold Path.position? Path.bare
  rw [List.findIdx?_map]
  rfl

theorem widened?_bare (p : Path) (n : Node) (args : List TypeRef) :
    widened? p.bare n.bare args = widened? p n args := by
  unfold widened? Path.bare
  rw [List.findIdx?_map]
  rfl

theorem report_bare (g : Graph) (n : Node) (chain : List ServiceIdentity) :
    report g.bare n.bare chain = report g n chain := by
  unfold report
  simp only [g.resolveTarget?_bare, Option.map_map]
  rfl

section Walk

variable {g : Graph} (h : g.WellFormed) (fw : FrameworkServices)

include h

theorem visitDependency_bare (p : Path) (expand : ServiceIdentity → Cache → Visit × Cache) :
    visitDependency g.bare fw p.bare expand = visitDependency g fw p expand := by
  funext d c
  unfold visitDependency
  simp only [h.registrationCount_bare_pos_iff, position?_bare, g.resolveTarget?_bare,
    Option.isSome_map]

/-- Every walk goes the same way. By induction on the room. -/
theorem expand_bare (room : Nat) (p : Path) (s : ServiceIdentity) (c : Cache) :
    expand g.bare fw room p.bare s c = expand g fw room p s c := by
  induction room generalizing p s c with
  | zero =>
    rw [expand.eq_def, expand.eq_def, g.resolveTarget?_bare]
    cases g.resolveTarget? s with
    | none => rfl
    | some t =>
      simp only [Option.map_some, Target.bare, widened?_bare]
      rfl
  | succ room ih =>
    rw [expand.eq_def, expand.eq_def, g.resolveTarget?_bare]
    cases g.resolveTarget? s with
    | none => rfl
    | some t =>
      have hpath : p.bare ++ [(s, t.node.bare)] = Path.bare (p ++ [(s, t.node)]) := by
        unfold Path.bare
        rw [List.map_append]
        rfl
      have hbelow : expand g.bare fw room (Path.bare (p ++ [(s, t.node)])) =
          expand g fw room (p ++ [(s, t.node)]) := by
        funext s' c'
        exact ih _ s' c'
      have hlength : p.bare.length = p.length := List.length_map _
      have hexp : expandable? g.bare t.bare = expandable? g t := rfl
      simp only [Option.map_some, hexp, hlength]
      simp only [Target.bare, widened?_bare, hpath, hbelow, visitDependency_bare h]

theorem findings_bare (limit : Nat) : findings g.bare fw limit = findings g fw limit := by
  have hfrom : ∀ ns resolved, findingsFrom g.bare fw (clampDepth limit) resolved
      (ns.map Node.bare) = findingsFrom g fw (clampDepth limit) resolved ns := by
    intro ns
    induction ns with
    | nil => exact fun _ => rfl
    | cons n ns ih =>
      intro resolved
      have hroot : expand g.bare fw (clampDepth limit) [] n.bare.service (.start resolved) =
          expand g fw (clampDepth limit) [] n.service (.start resolved) :=
        expand_bare h fw _ [] _ _
      rw [List.map_cons, findingsFrom, findingsFrom]
      simp only [hroot, ih, report_bare g]
      rfl
  exact hfrom g.nodes []

end Walk

end Resolvability

/-! ## The findings that remain -/

/-- Whether the rule is about a registration without effect. -/
def Rule.isNullified : Rule → Bool
  | .duplicateRegistration => true
  | .tryAddIgnored => true
  | _ => false

theorem isNullified_of_mem_nullifiedRegistrations {rs : List Registration} {d : Diagnostic}
    (h : d ∈ nullifiedRegistrations rs) : d.rule.isNullified = true := by
  have hone : ∀ first effective entry,
      (nullified first effective entry).rule.isNullified = true := by
    intro first effective entry
    unfold nullified
    split
    · rfl
    · split <;> rfl
  rw [nullifiedRegistrations, List.mem_mergeSort, List.mem_flatMap] at h
  obtain ⟨s, -, h⟩ := h
  unfold nullifiedAmong at h
  split at h
  · obtain ⟨entry, -, rfl⟩ := List.mem_map.1 h
    exact hone _ _ _
  · exact absurd h List.not_mem_nil

theorem isNullified_eq_false_of_mem_captive {g : Graph} {d : Diagnostic}
    (h : d ∈ Captive.findings g) : d.rule.isNullified = false := by
  obtain ⟨n, -, h⟩ := List.mem_flatMap.1 h
  obtain ⟨e, -, rfl⟩ := List.mem_map.1 h
  unfold Captive.report
  dsimp only
  split <;> rfl

theorem isNullified_eq_false_of_mem_compatibility {g : Graph} {d : Diagnostic}
    (h : d ∈ Compatibility.findings g) : d.rule.isNullified = false := by
  obtain ⟨n, -, h⟩ := List.mem_filterMap.1 h
  unfold Compatibility.finding? at h
  split at h
  · split at h
    · cases h
    · obtain ⟨reason, -, rfl⟩ := Option.map_eq_some_iff.1 h
      rfl
  · cases h

theorem isNullified_eq_false_of_mem_resolvability {g : Graph} {fw : FrameworkServices} {limit : Nat}
    {d : Diagnostic} (h : d ∈ Resolvability.findings g fw limit) : d.rule.isNullified = false := by
  rw [Resolvability.findings, Resolvability.findingsFrom_eq_map] at h
  obtain ⟨e, -, rfl⟩ := List.mem_map.1 h
  rfl

theorem isNullified_eq_false_of_mem_findings {p : Procedure} {d : Diagnostic}
    (h : d ∈ p.findings) : d.rule.isNullified = false := by
  have hrule : ∀ r : Rule, r.isMisuse = true ∨ r.isUndisposed = true → r.isNullified = false := by
    intro r
    cases r <;> decide
  exact hrule d.rule (Scope.isMisuse_or_isUndisposed_of_mem_findingsOf h)

theorem isNullified_eq_false_of_mem_static {as : List StaticAssignment} {d : Diagnostic}
    (h : d ∈ staticCacheFindings as) : d.rule.isNullified = false := by
  obtain ⟨a, -, h⟩ := List.mem_filterMap.1 h
  unfold StaticAssignment.finding? at h
  dsimp only at h
  split at h
  · cases h; rfl
  · cases h; rfl
  · cases h

namespace Facts

/-- The facts with the effective registrations only. -/
def effective (f : Facts) : Facts :=
  { f with registrations := (Graph.build f.registrations f.shapes).nodes.map Node.registration }

theorem build_effective (f : Facts) : Graph.build f.effective.registrations f.effective.shapes =
    (Graph.build f.registrations f.shapes).bare :=
  Graph.build_registrations _ _

end Facts

namespace Analysis

/-- The findings of all checks but that for registrations without effect. -/
def lastingFindings (o : Options) (f : Facts) : List Diagnostic :=
  let g := Graph.build f.registrations f.shapes
  Captive.findings g ++ Resolvability.findings g o.framework o.maxDepth ++
    Compatibility.findings g ++ (sound f).flatMap Procedure.findings ++
      staticCacheFindings f.assignments

theorem findings_eq_finish (o : Options) (f : Facts) :
    findings o f =
      (Sink.mk (nullifiedRegistrations f.registrations ++ lastingFindings o f)).finish := by
  simp only [findings, graphFindings, lastingFindings, Sink.empty, Sink.extend, List.nil_append,
    List.append_assoc]

theorem isNullified_eq_false_of_mem_lastingFindings {o : Options} {f : Facts} {d : Diagnostic}
    (h : d ∈ lastingFindings o f) : d.rule.isNullified = false := by
  simp only [lastingFindings, List.mem_append, List.mem_flatMap] at h
  rcases h with (((h | h) | h) | ⟨p, -, h⟩) | h
  · exact isNullified_eq_false_of_mem_captive h
  · exact isNullified_eq_false_of_mem_resolvability h
  · exact isNullified_eq_false_of_mem_compatibility h
  · exact isNullified_eq_false_of_mem_findings h
  · exact isNullified_eq_false_of_mem_static h

theorem lastingFindings_effective (o : Options) (f : Facts) :
    lastingFindings o f.effective = lastingFindings o f := by
  have hg : (Graph.build f.registrations f.shapes).WellFormed := Graph.build_wellFormed _ _
  unfold lastingFindings
  rw [f.build_effective]
  simp only [Captive.findings_bare, Resolvability.findings_bare hg, Compatibility.findings_bare]
  rfl

theorem configured_filter (o : Options) (ds : List Diagnostic) (q : Rule → Bool) :
    configured o (ds.filter (fun d => q d.rule)) =
      (configured o ds).filter (fun d => q d.rule) := by
  unfold configured
  rw [List.filter_map, List.filter_filter, List.filter_filter]
  simp only [Function.comp_def, Bool.and_comm]

theorem configured_findings_effective (o : Options) (f : Facts) :
    configured o (findings o f.effective) =
      (configured o (findings o f)).filter (fun d => !d.rule.isNullified) := by
  have hmem : ∀ d, d ∈ nullifiedRegistrations f.effective.registrations ++
      lastingFindings o f.effective ↔
        d ∈ nullifiedRegistrations f.registrations ++ lastingFindings o f ∧
          !d.rule.isNullified := by
    intro d
    rw [lastingFindings_effective, Facts.effective,
      Graph.nullifiedRegistrations_eq_nil (Graph.nodup_services_registrations _ _), List.nil_append,
      List.mem_append]
    constructor
    · intro h
      rw [isNullified_eq_false_of_mem_lastingFindings h]
      exact ⟨Or.inr h, rfl⟩
    · rintro ⟨h | h, hd⟩
      · rw [isNullified_of_mem_nullifiedRegistrations h] at hd
        cases hd
      · exact h
  have hplain := Sink.map_plain_finish_filter (q := fun r => !r.isNullified) hmem
  rw [findings_eq_finish, findings_eq_finish, ← configured_map_plain, hplain,
    configured_filter o _ (fun r => !r.isNullified), configured_map_plain]

end Analysis

/-- Registrations without effect are reported and do nothing else. Under options that let procedures
be left out, the effective registrations alone build the same nodes in the same order, the same
edges and no finding of their own, and the report on them is the report on all registrations less
the findings about those without effect. -/
theorem analyze_effective (o : Options) (f : Facts) (hskip : o.traceErrors = .skip) :
    let g := Graph.build f.registrations f.shapes
    let f' := { f with registrations := g.nodes.map Node.registration }
    let g' := Graph.build f'.registrations f'.shapes
    g'.nodes.map Node.registration = g.nodes.map Node.registration ∧
    g'.edges.map Edge.ends = g.edges.map Edge.ends ∧
    nullifiedRegistrations f'.registrations = [] ∧
    ∃ r r', analyze o f false = .ok r ∧ analyze o f' false = .ok r' ∧
      r'.diagnostics = r.diagnostics.filter
        (fun d => d.rule != .duplicateRegistration && d.rule != .tryAddIgnored) ∧
      r'.stats.services = r.stats.services ∧ r'.stats.edges = r.stats.edges := by
  intro g f' g'
  have hok : ∀ f, analyze o f false = .ok (Analysis.report o f) := by
    intro f
    exact analyze_eq_ok_iff.2 ⟨by rw [Analysis.fault?, hskip], rfl⟩
  have hg' : g' = g.bare := f.build_effective
  have hrule : (fun d : Diagnostic =>
      d.rule != .duplicateRegistration && d.rule != .tryAddIgnored) =
        fun d => !d.rule.isNullified := by
    funext d
    cases d.rule <;> rfl
  have hnone : nullifiedRegistrations f'.registrations = [] :=
    Graph.nullifiedRegistrations_eq_nil (Graph.nodup_services_registrations _ _)
  refine ⟨?_, ?_, hnone, _, _, hok f, hok f', ?_, ?_, ?_⟩
  · rw [hg']
    exact List.map_map
  · rw [hg', g.edges_bare, List.map_map]
    rfl
  · rw [hrule]
    exact Analysis.configured_findings_effective o f
  · show g'.nodes.length = g.nodes.length
    rw [hg']
    exact List.length_map _
  · show g'.edges.length = g.edges.length
    rw [hg', g.edges_bare, List.length_map]

/-- A service that is registered three times, and one that depends on it. -/
def thrice : Facts :=
  let register (name : String) (lifetime : Lifetime) (index : UInt64) (isConditional : Bool) :
      Registration :=
    ⟨.of (.closed name []), .type (.closed name []) .runtimeTypes, lifetime,
      ⟨"Startup", index.toUInt32, 0⟩, index, isConditional⟩
  ⟨[register "A" .singleton 1 false, register "B" .singleton 2 false, register "A" .scoped 3 false,
      register "A" .singleton 4 true],
    [(TypeShape.ofType (.closed "B" [])).dependsOn (.require (.closed "A" []))], [], []⟩

theorem analyze_effective_on_thrice :
    Options.default.traceErrors = .skip ∧
    (nullifiedRegistrations thrice.registrations).map (fun d => (d.rule, d.primary.line)) =
      [(.duplicateRegistration, 1), (.tryAddIgnored, 4)] ∧
    thrice.effective.registrations.map (fun r => r.location.line) = [2, 3] ∧
    nullifiedRegistrations thrice.effective.registrations = [] ∧
    ∃ r r', analyze .default thrice false = .ok r ∧
      analyze .default thrice.effective false = .ok r' ∧
      r'.diagnostics = r.diagnostics.filter
        (fun d => d.rule != .duplicateRegistration && d.rule != .tryAddIgnored) := by
  obtain ⟨-, -, hnone, r, r', hr, hr', hdiagnostics, -, -⟩ := analyze_effective .default thrice rfl
  exact ⟨rfl, by cbv, by cbv, hnone, r, r', hr, hr', hdiagnostics⟩

end Wiring
