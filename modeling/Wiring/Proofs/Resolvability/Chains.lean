import Mathlib.Data.List.Forall2
import Wiring.Proofs.Graph
import Wiring.Proofs.Resolvability.Steps

/-!
# Chains to a missing service

A service is reported only if a chain of needs leads from it to a service that nothing provides. The
chain is put together while the walk comes back from the missing service, so each visit answers for
the part of the chain below it: it is a chain of needs, it keeps off the path, and it fits into the
room that is left.
-/

namespace Wiring

namespace Resolvability

/-- The request for `s` ends at a node that the container builds from a constructor, and `d` is one
of the parameters, closed over the arguments of the request. It is neither optional nor a bare type
parameter. -/
def Needs (g : Graph) (s : ServiceIdentity) (d : Dependency) : Prop :=
  ∃ t ds, g.resolveTarget? s = some t ∧ t.node.registration.implementation.isType ∧
    g.dependenciesOf? t.node t.closingArgs = some ds ∧ d ∈ ds ∧ d.isOptional = false ∧
    d.required.ty.isParam = false

/-- Nothing provides the service. -/
structure Missing (g : Graph) (fw : FrameworkServices) (s : ServiceIdentity) : Prop where
  resolveTarget? : g.resolveTarget? s = none
  registrationCount : g.registrationCount s = 0
  contains : fw.contains s = false

/-- Each service of the list needs the next one, and the last one is missing. Only the last one may
be asked for as an enumeration. -/
inductive BrokenChain (g : Graph) (fw : FrameworkServices) : List ServiceIdentity → Prop
  | last {s : ServiceIdentity} {d : Dependency} : Needs g s d → Missing g fw d.required →
      BrokenChain g fw [s, d.required]
  | cons {s : ServiceIdentity} {d : Dependency} {chain : List ServiceIdentity} : Needs g s d →
      d.isEnumerable = false → BrokenChain g fw (d.required :: chain) →
      BrokenChain g fw (s :: d.required :: chain)

theorem BrokenChain.two_le_length {g : Graph} {fw : FrameworkServices}
    {chain : List ServiceIdentity} (h : BrokenChain g fw chain) : 2 ≤ chain.length := by
  cases h with
  | last _ _ => exact Nat.le_refl _
  | cons _ _ _ => exact Nat.le_add_left _ _

theorem isMandatory_iff {d : Dependency} :
    isMandatory d ↔ d.isOptional = false ∧ d.required.ty.isParam = false := by
  rw [isMandatory, Bool.and_eq_true, Bool.not_eq_true', Bool.not_eq_true']
  exact and_comm

theorem expandable?_eq_some_iff {g : Graph} {t : Target} {ds : List Dependency} :
    expandable? g t = some ds ↔ t.node.registration.implementation.isType ∧
      g.dependenciesOf? t.node t.closingArgs = some ds := by
  rw [expandable?]
  split
  · next h => simp [h]
  · next h => simp [h]

/-- What a service needs is what the walk has to look at below it. -/
theorem needs_iff {g : Graph} {s : ServiceIdentity} {d : Dependency} :
    Needs g s d ↔ ∃ t ds, g.resolveTarget? s = some t ∧ expandable? g t = some ds ∧ d ∈ ds ∧
      isMandatory d := by
  simp only [Needs, expandable?_eq_some_iff, isMandatory_iff, and_assoc]

theorem needs_of_expandable? {g : Graph} {s : ServiceIdentity} {t : Target}
    {ds : List Dependency} {d : Dependency} (ht : g.resolveTarget? s = some t)
    (he : expandable? g t = some ds) (hd : d ∈ ds) (hm : isMandatory d) : Needs g s d :=
  needs_iff.2 ⟨t, ds, ht, he, hd, hm⟩

/-! ## The chain that a visit returns -/

/-- The chain from `s` that a visit returns when `p` is the path above `s` and `room` more services
fit on it. -/
structure ChainFrom (g : Graph) (fw : FrameworkServices) (room : Nat) (p : Path)
    (s : ServiceIdentity) (chain : List ServiceIdentity) : Prop where
  head : chain.head? = some s
  broken : BrokenChain g fw chain
  nodup : chain.dropLast.Nodup
  off_path : ∀ x ∈ chain.dropLast, x ∉ Path.services p
  length_le : chain.length ≤ room + 1

section Walk

variable {g : Graph} {fw : FrameworkServices} (hg : g.WellFormed)

theorem ChainFrom.broken_head {room : Nat} {p : Path} {s : ServiceIdentity}
    {chain : List ServiceIdentity} (h : ChainFrom g fw room p s chain) :
    ∃ tail, chain = s :: tail ∧ BrokenChain g fw (s :: tail) := by
  obtain ⟨tail, rfl⟩ := List.head?_eq_some_iff.1 h.head
  exact ⟨tail, rfl, h.broken⟩

/-- One more service on top of the chain below it. -/
theorem ChainFrom.cons {room : Nat} {p : Path} {s : ServiceIdentity} {n : Node} {d : Dependency}
    {chain : List ServiceIdentity} (hs : s ∉ Path.services p) (hd : Needs g s d)
    (he : d.isEnumerable = false)
    (h : ChainFrom g fw room (p ++ [(s, n)]) d.required chain) :
    ChainFrom g fw (room + 1) p s (s :: chain) := by
  obtain ⟨tail, rfl, -⟩ := h.broken_head
  have hne : d.required :: tail ≠ [] := List.cons_ne_nil _ _
  have hoff : ∀ x ∈ (d.required :: tail).dropLast, x ∉ Path.services p ∧ x ≠ s := by
    intro x hx
    have := h.off_path x hx
    rw [Path.services_concat, List.mem_append, List.mem_singleton, not_or] at this
    exact this
  refine ⟨rfl, .cons hd he h.broken, ?_, ?_, Nat.succ_le_succ h.length_le⟩
  · rw [List.dropLast_cons_of_ne_nil hne, List.nodup_cons]
    exact ⟨fun hx => (hoff s hx).2 rfl, h.nodup⟩
  · intro x hx
    rw [List.dropLast_cons_of_ne_nil hne, List.mem_cons] at hx
    rcases hx with rfl | hx
    · exact hs
    · exact (hoff x hx).1

/-- A missing service right below. -/
theorem ChainFrom.last {room : Nat} {p : Path} {s : ServiceIdentity} {d : Dependency}
    (hs : s ∉ Path.services p) (hd : Needs g s d) (hm : Missing g fw d.required) :
    ChainFrom g fw (room + 1) p s [s, d.required] where
  head := rfl
  broken := .last hd hm
  nodup := List.nodup_cons.2 ⟨List.not_mem_nil, List.nodup_nil⟩
  off_path x hx := by
    rw [List.mem_singleton.1 hx]
    exact hs
  length_le := Nat.le_add_left _ _

include hg

theorem missing_of_registrationCount {s : ServiceIdentity} (h : g.registrationCount s = 0)
    (hf : fw.contains s = false) : Missing g fw s :=
  ⟨hg.registrationCount_eq_zero_iff.1 h, h, hf⟩

theorem missing_of_resolveTarget? {s : ServiceIdentity} (h : g.resolveTarget? s = none)
    (hf : fw.contains s = false) : Missing g fw s :=
  ⟨h, hg.registrationCount_eq_zero_iff.2 h, hf⟩

/-- What the visit of a dependency of `s` finds missing gives a chain from `s`, if the visits of
services below give chains. -/
theorem chainFrom_of_visitDependency {room : Nat} {p : Path} {s : ServiceIdentity} {n : Node}
    {d : Dependency} {c : Cache} {chain : List ServiceIdentity} (hs : s ∉ Path.services p)
    (hneeds : isMandatory d → Needs g s d)
    (ih : ∀ {x : ServiceIdentity} {c : Cache} {chain : List ServiceIdentity},
      x ∉ Path.services (p ++ [(s, n)]) →
      (expand g fw room (p ++ [(s, n)]) x c).1.chain = some chain →
      ChainFrom g fw room (p ++ [(s, n)]) x chain)
    (h : (visitDependency g fw (p ++ [(s, n)]) (expand g fw room (p ++ [(s, n)])) d c).1.chain =
      some chain) :
    ChainFrom g fw (room + 1) p s (s :: chain) := by
  have hx := visitDependency_visits g fw (p ++ [(s, n)]) (expand g fw room (p ++ [(s, n)])) d c
  generalize visitDependency g fw (p ++ [(s, n)]) (expand g fw room (p ++ [(s, n)])) d c = r
    at hx h
  cases hx with
  | skipped _ | collected _ _ _ | onPath _ _ _ | provided _ _ _ _ _ => exact nomatch h
  | noneToCollect hm _ hr hf =>
    obtain rfl := Option.some.inj h
    exact .last hs (hneeds hm) (missing_of_registrationCount hg hr hf)
  | registered hm he hp _ => exact .cons hs (hneeds hm) he (ih (Path.position?_eq_none_iff.1 hp) h)
  | missing hm _ _ ht hf =>
    obtain rfl := Option.some.inj h
    exact .last hs (hneeds hm) (missing_of_resolveTarget? hg ht hf)

theorem chainFrom_of_expand {room : Nat} {p : Path} {s : ServiceIdentity} {c : Cache}
    {chain : List ServiceIdentity} (hs : s ∉ Path.services p)
    (h : (expand g fw room p s c).1.chain = some chain) : ChainFrom g fw room p s chain := by
  induction room using Nat.strongRecOn generalizing p s c chain with
  | ind room ih =>
    have hx := expand_expands g fw room p s c
    generalize expand g fw room p s c = r at hx h
    -- a chain comes back only from a visit below; all other ways end without one
    cases hx with
    | known _ | walkedBefore _ _ | unregistered _ _ _ | widened _ _ _ _ | leaf _ _ | tooDeep _ _
    | settled _ _ _ _ _ _ => exact nomatch h
    | pending _ _ _ hc _ => exact nomatch hc.symm.trans h
    | @broken room t ds v c' harr he hv _ =>
      obtain ⟨tail, htail, rfl⟩ := Option.map_eq_some_iff.1 h
      have hbelow : (visitBelow g fw room p s t.node ds c).1.chain = some tail := by
        rw [hv]; exact htail
      obtain ⟨d, hd, c₁, hc₁⟩ := exists_of_chain_visitAll hbelow
      exact chainFrom_of_visitDependency hg hs (needs_of_expandable? harr.target he hd)
        (ih room (Nat.lt_succ_self room)) hc₁

end Walk

/-! ## The finding for a root -/

section Findings

variable {g : Graph} {fw : FrameworkServices}

/-- The finding `d` for `root` tells of the chain: the root is where it starts, its services but the
last are distinct and at most `limit`, the message names both ends, and the related places are those
of the registrations between. -/
structure Explains (g : Graph) (fw : FrameworkServices) (limit : Nat) (root : Node)
    (chain : List ServiceIdentity) (d : Diagnostic) : Prop where
  head : chain.head? = some root.service
  broken : BrokenChain g fw chain
  nodup : chain.dropLast.Nodup
  length_le : chain.length ≤ limit + 1
  rule : d.rule = .unresolvableDependency
  primary : d.primary = root.registration.location
  message : ∃ missing ∈ chain.getLast?, d.message =
    "'" ++ root.service.text ++ "' cannot be resolved: '" ++ missing.text ++
      "' is not registered" ++
      if chain.length ≤ 2 then ""
      else " (path: " ++ " -> ".intercalate (chain.map ServiceIdentity.text) ++ ")"
  related : List.Forall₂
    (fun s l => ∃ t, g.resolveTarget? s = some t ∧ t.node.registration.location = l)
    chain.tail.dropLast d.related

theorem BrokenChain.exists_resolveTarget? {chain : List ServiceIdentity}
    (h : BrokenChain g fw chain) {s : ServiceIdentity} (hs : s ∈ chain.dropLast) :
    ∃ t, g.resolveTarget? s = some t := by
  induction h with
  | last hd _ =>
    obtain ⟨t, _, ht, _⟩ := hd
    rw [List.mem_singleton.1 hs]
    exact ⟨t, ht⟩
  | cons hd _ _ ih =>
    obtain ⟨t, _, ht, _⟩ := hd
    rw [List.dropLast_cons_of_ne_nil (List.cons_ne_nil _ _), List.mem_cons] at hs
    rcases hs with rfl | hs
    · exact ⟨t, ht⟩
    · exact ih hs

/-- Services that all have a target have as many places. -/
theorem forall₂_locations {ss : List ServiceIdentity}
    (h : ∀ s ∈ ss, ∃ t, g.resolveTarget? s = some t) :
    List.Forall₂ (fun s l => ∃ t, g.resolveTarget? s = some t ∧ t.node.registration.location = l)
      ss (ss.filterMap (fun s =>
        (g.resolveTarget? s).map (fun t => t.node.registration.location))) := by
  induction ss with
  | nil => exact .nil
  | cons s ss ih =>
    obtain ⟨t, ht⟩ := h s List.mem_cons_self
    rw [List.filterMap_cons_some (b := t.node.registration.location) (by rw [ht]; rfl)]
    exact .cons ⟨t, ht, rfl⟩ (ih (fun s hs => h s (List.mem_cons_of_mem _ hs)))

theorem explains_report {limit : Nat} {root : Node} {chain : List ServiceIdentity}
    (h : ChainFrom g fw limit [] root.service chain) :
    Explains g fw limit root chain (report g root chain) := by
  have hne : chain ≠ [] := by
    obtain ⟨tail, rfl, -⟩ := h.broken_head
    exact List.cons_ne_nil _ _
  have hbetween : (chain.drop 1).take (chain.length - 2) = chain.tail.dropLast := by
    rw [List.dropLast_eq_take, List.length_tail, List.drop_one]
    rfl
  refine ⟨h.head, h.broken, h.nodup, h.length_le, rfl, rfl,
    ⟨chain.getLast hne, List.getLast?_eq_some_getLast hne, ?_⟩, ?_⟩
  · simp only [report, Diagnostic.of, List.getLastD_eq_getLast?,
      List.getLast?_eq_some_getLast hne, Option.getD_some]
    split
    · rw [String.append_empty]
    · rfl
  · simp only [report, Diagnostic.of, hbetween]
    refine forall₂_locations (fun s hs => h.broken.exists_resolveTarget? ?_)
    rw [← List.tail_dropLast] at hs
    exact List.mem_of_mem_tail hs

/-- The roots among the nodes that are reported, each with its chain, given what is resolved
already. -/
def brokenFrom (g : Graph) (fw : FrameworkServices) (limit : Nat)
    (resolved : List ServiceIdentity) : List Node → List (Node × List ServiceIdentity)
  | [] => []
  | n :: ns =>
    if isRoot n then
      let visit := expand g fw limit [] n.service (.start resolved)
      let rest := brokenFrom g fw limit visit.2.resolved ns
      match visit.1.chain with
      | some chain => (n, chain) :: rest
      | none => rest
    else brokenFrom g fw limit resolved ns

theorem findingsFrom_eq_map (limit : Nat) (resolved : List ServiceIdentity) (ns : List Node) :
    findingsFrom g fw limit resolved ns =
      (brokenFrom g fw limit resolved ns).map (fun e => report g e.1 e.2) := by
  induction ns generalizing resolved with
  | nil => rfl
  | cons n ns ih =>
    simp only [findingsFrom, brokenFrom, ih]
    split
    · cases (expand g fw limit [] n.service (.start resolved)).1.chain with
      | none => rfl
      | some chain => rfl
    · rfl

theorem brokenFrom_sublist (limit : Nat) (resolved : List ServiceIdentity) (ns : List Node) :
    ((brokenFrom g fw limit resolved ns).map Prod.fst).Sublist ns := by
  induction ns generalizing resolved with
  | nil => exact .slnil
  | cons n ns ih =>
    simp only [brokenFrom]
    split
    · split
      · exact (ih _).cons_cons n
      · exact (ih _).cons n
    · exact (ih _).cons n

/-- Each reported root has a chain, because the walk for it starts with no path. -/
theorem chainFrom_of_mem_brokenFrom (hg : g.WellFormed) {limit : Nat}
    {resolved : List ServiceIdentity} {ns : List Node} {e : Node × List ServiceIdentity}
    (he : e ∈ brokenFrom g fw limit resolved ns) : ChainFrom g fw limit [] e.1.service e.2 := by
  induction ns generalizing resolved with
  | nil => exact absurd he List.not_mem_nil
  | cons n ns ih =>
    simp only [brokenFrom] at he
    split at he
    · split at he
      · next chain hchain =>
        rcases List.mem_cons.1 he with rfl | he
        · exact chainFrom_of_expand hg List.not_mem_nil hchain
        · exact ih he
      · exact ih he
    · exact ih he

end Findings

/-- No finding without a cause, whatever is generic, cyclic or cut: unless it is cancelled, the
check reports some of the nodes, each once and in their order, and each for a chain of needs that
the limit leaves room for and that ends at a missing service. -/
theorem findings_explained_by_chains (rs : List Registration) (shapes : List TypeShape)
    (fw : FrameworkServices) (limit : Nat) (cancelled : Bool) :
    (cancelled ∧ check (.build rs shapes) fw limit cancelled = .error .cancelled) ∨
    ∃ ds roots, check (.build rs shapes) fw limit cancelled = .ok ds ∧
      roots.Sublist (Graph.build rs shapes).nodes ∧ (roots.map Node.service).Nodup ∧
      List.Forall₂
        (fun root d => ∃ chain, Explains (.build rs shapes) fw (clampDepth limit) root chain d)
        roots ds := by
  have hg := Graph.build_wellFormed rs shapes
  generalize Graph.build rs shapes = g at hg
  let broken := brokenFrom g fw (clampDepth limit) [] g.nodes
  have hsub : (broken.map Prod.fst).Sublist g.nodes := brokenFrom_sublist _ _ _
  by_cases hc : (cancelled && !g.nodes.isEmpty) = true
  · exact .inl ⟨(Bool.and_eq_true _ _ ▸ hc).1, if_pos hc⟩
  · refine .inr ⟨findings g fw limit, broken.map Prod.fst, if_neg hc, hsub,
      hg.nodup.sublist (hsub.map _), ?_⟩
    rw [findings, findingsFrom_eq_map, List.forall₂_map_left_iff, List.forall₂_map_right_iff,
      List.forall₂_same]
    intro e he
    exact ⟨e.2, explains_report (chainFrom_of_mem_brokenFrom hg he)⟩

/-- A type registered as itself, on a line of its own. -/
def asItself (ty : TypeRef) (line : UInt32) : Registration :=
  ⟨.of ty, .type ty .genericArguments, .transient, ⟨"Startup", line, 0⟩, line.toUInt64, false⟩

/-- A type whose constructor has the given parameters. -/
def constructedFrom (ty : TypeRef) (params : List TypeRef) : TypeShape :=
  { TypeShape.ofType ty with dependencies := params.map .require }

/-- Zero as the limit counts as one: the missing service right below a root is still reported, and
no chain within the limit as given explains that. -/
theorem missing_reported_at_limit_zero :
    let g := Graph.build [asItself (.closed "A" []) 1]
      [constructedFrom (.closed "A" []) [.closed "B" []]]
    ∃ d, check g .disabled 0 false = .ok [d] ∧
      ∀ root chain, ¬ Explains g .disabled 0 root chain d := by
  intro g
  have hone : (findings g .disabled 0).length = 1 := by decide +kernel
  obtain ⟨d, hd⟩ := List.length_eq_one_iff.1 hone
  refine ⟨d, congrArg Except.ok hd, fun root chain h => ?_⟩
  have htwo : 2 ≤ chain.length := h.broken.two_le_length
  have hone : chain.length ≤ 0 + 1 := h.length_le
  exact absurd (Nat.le_trans htwo hone) (by decide)

end Resolvability

end Wiring
