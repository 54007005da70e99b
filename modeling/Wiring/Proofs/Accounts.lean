import Mathlib.Data.List.Perm.Basic
import Wiring.Proofs.Graph

/-!
# What becomes of a registration

Registrations are gathered by service, put in order, and one of each service is chosen for a node of
the graph; the others are reported. Nothing is lost on the way and nothing comes twice: every
registration is either the effective one at the node of its service, or reported once as being
without effect.

Results:
1. `flatMap_entriesOf_perm`: the services share the registrations out among them.
2. `filter_entriesOf`: registrations with the same index stay in the order in which they are listed.
3. `isEffective_of_inForce?`: which registration is chosen.
4. `outlines_nullifiedAmong_perm`: what is reported on the others.
5. `Graph.build_accountsFor`: the account of all registrations.
-/

namespace Wiring

/-! ## Registrations by service -/

/-- Each element of a list is found once among the elements with its key, where the keys are listed
once each. -/
theorem flatMap_filter_perm {α β : Type} [DecidableEq β] (key : α → β) {keys : List β}
    (hnodup : keys.Nodup) {l : List α} (hkeys : ∀ a ∈ l, key a ∈ keys) :
    (keys.flatMap (fun k => l.filter (fun a => key a == k))).Perm l := by
  induction keys generalizing l with
  | nil =>
    rw [List.eq_nil_iff_forall_not_mem.2 (fun a ha => List.not_mem_nil (hkeys a ha))]
    exact .nil
  | cons k keys ih =>
    obtain ⟨hk, hnodup⟩ := List.nodup_cons.1 hnodup
    -- the other keys find nothing that has this one, so they may search what is left
    have hrest : keys.flatMap (fun k' => l.filter (fun a => key a == k')) =
        keys.flatMap
          (fun k' => (l.filter (fun a => !key a == k)).filter (fun a => key a == k')) := by
      refine List.flatMap_congr (fun k' hk' => ?_)
      rw [List.filter_filter]
      refine List.filter_congr (fun a _ => ?_)
      by_cases ha : key a = k'
      · have hne : k' ≠ k := fun heq => hk (heq ▸ hk')
        simp [ha, hne]
      · simp [ha]
    have hleft : ∀ a ∈ l.filter (fun a => !key a == k), key a ∈ keys := by
      intro a ha
      obtain ⟨ha, hne⟩ := List.mem_filter.1 ha
      exact (List.mem_cons.1 (hkeys a ha)).resolve_left (by simpa using hne)
    rw [List.flatMap_cons, hrest]
    exact ((ih hnodup hleft).append_left _).trans (List.filter_append_perm _ l)

section Entries

variable (rs : List Registration)

theorem entriesOf_perm (s : ServiceIdentity) :
    (entriesOf rs s).Perm (rs.filter (fun r => r.service == s)) :=
  List.mergeSort_perm _ _

theorem flatMap_entriesOf_perm : ((servicesOf rs).flatMap (entriesOf rs)).Perm rs :=
  (List.Perm.flatMap_left _ (fun s _ => entriesOf_perm rs s)).trans
    (flatMap_filter_perm Registration.service (nodup_servicesOf rs)
      (fun r hr => mem_servicesOf.2 ⟨r, hr, rfl⟩))

theorem pairwise_entriesOf (s : ServiceIdentity) :
    (entriesOf rs s).Pairwise (fun a b => a.insertionIndex ≤ b.insertionIndex) := by
  have hsorted := List.pairwise_mergeSort index_le_trans index_le_total
    (rs.filter (fun r => r.service == s))
  exact hsorted.imp (fun hab => of_decide_eq_true hab)

/-- The order is stable: registrations with the same index are listed as they came. They make up a
part of the list that is in order already, which sorting leaves together. -/
theorem filter_entriesOf (s : ServiceIdentity) (i : UInt64) :
    (entriesOf rs s).filter (fun r => r.insertionIndex == i) =
      rs.filter (fun r => r.service == s && r.insertionIndex == i) := by
  have htied : ((rs.filter (fun r => r.service == s)).filter
      (fun r => r.insertionIndex == i)).Pairwise
      (fun a b => decide (a.insertionIndex ≤ b.insertionIndex) = true) := by
    refine List.pairwise_of_forall_mem_list (fun a ha b hb => ?_)
    have ha : a.insertionIndex = i := by simpa using (List.mem_filter.1 ha).2
    have hb : b.insertionIndex = i := by simpa using (List.mem_filter.1 hb).2
    rw [ha, hb]
    exact decide_eq_true (UInt64.le_refl i)
  have hsub := (List.sublist_mergeSort index_le_trans index_le_total htied
    List.filter_sublist).filter (fun r => r.insertionIndex == i)
  rw [List.filter_eq_self.2 (fun r hr => (List.mem_filter.1 hr).2)] at hsub
  have heq := hsub.eq_of_length ((entriesOf_perm rs s).filter _).length_eq.symm
  refine heq.symm.trans ?_
  rw [List.filter_filter]
  exact List.filter_congr (fun r _ => Bool.and_comm _ _)

end Entries

/-! ## The registration in force -/

/-- The one among the registrations of a service, in order, that takes effect: the first one if it
is conditional, and otherwise the last unconditional one. -/
def IsEffective (entries : List Registration) (r : Registration) : Prop :=
  ∃ first rest, entries = first :: rest ∧
    if first.isConditional then r = first
    else (entries.filter (fun r => !r.isConditional)).getLast? = some r

theorem getLast?_unconditional (entries : List Registration) :
    (entries.filter (fun r => !r.isConditional)).getLast? =
      (lastUnconditional? entries).bind (fun i => entries[i]?) := by
  induction entries with
  | nil => rfl
  | cons r rs ih =>
    rw [lastUnconditional?]
    cases hlast : lastUnconditional? rs with
    | some i =>
      have hi := lastUnconditional?_lt hlast
      rw [hlast, Option.bind_some, List.getElem?_eq_getElem hi] at ih
      cases hr : r.isConditional with
      | true => simp [hr, ih, hi]
      | false => simp [hr, ih, hi, List.getLast?_cons]
    | none =>
      rw [hlast, Option.bind_none, List.getLast?_eq_none_iff] at ih
      cases hr : r.isConditional with
      | true => simp [hr, ih]
      | false => simp [hr, ih]

theorem isEffective_of_inForce? {entries : List Registration} {r : Registration}
    (h : inForce? entries = some r) : IsEffective entries r := by
  cases entries with
  | nil => cases h
  | cons first rest =>
    refine ⟨first, rest, rfl, ?_⟩
    rw [inForce?, inForceIx] at h
    split
    · next hfirst =>
      rw [if_pos hfirst] at h
      exact (Option.some.inj h).symm
    · next hfirst =>
      rw [if_neg hfirst] at h
      -- the first one is unconditional, so there is a last one that is
      have hsome : ((first :: rest).filter (fun r => !r.isConditional)).getLast?.isSome := by
        simp [hfirst]
      rw [getLast?_unconditional] at hsome ⊢
      cases hlast : lastUnconditional? (first :: rest) with
      | none =>
        rw [hlast] at hsome
        cases hsome
      | some i =>
        rw [hlast] at h
        exact h

/-! ## The registrations without effect -/

/-- What a finding says, its wording left aside: the rule and the places. -/
def Diagnostic.outline (d : Diagnostic) : Rule × Location × List Location :=
  (d.rule, d.primary, d.related)

/-- What is to be reported on a registration without effect. -/
def ineffectiveOutline (effective entry : Registration) : Rule × Location × List Location :=
  (if entry.isConditional then .tryAddIgnored else .duplicateRegistration, entry.location,
    [effective.location])

theorem outline_nullified (firstIsConditional : Bool) (effective entry : Registration) :
    (nullified firstIsConditional effective entry).outline =
      ineffectiveOutline effective entry := by
  unfold nullified ineffectiveOutline
  cases entry.isConditional with
  | true => rfl
  | false => cases firstIsConditional <;> rfl

/-- All registrations of a service but the effective one are reported, each once. -/
theorem outlines_nullifiedAmong_perm {entries : List Registration} {r : Registration}
    (h : inForce? entries = some r) :
    ((nullifiedAmong entries).map Diagnostic.outline).Perm
      ((entries.erase r).map (ineffectiveOutline r)) := by
  have hlt : inForceIx entries < entries.length := (List.getElem?_eq_some_iff.1 h).1
  have hr : entries[inForceIx entries] = r := (List.getElem?_eq_some_iff.1 h).2
  have herase : (entries.eraseIdx (inForceIx entries)).Perm (entries.erase r) := by
    have hperm := List.getElem_cons_eraseIdx_perm hlt
    rw [hr] at hperm
    exact (hperm.trans (List.perm_cons_erase (mem_of_inForce? h))).cons_inv
  cases entries with
  | nil => cases h
  | cons first rest =>
    simp only [nullifiedAmong, h, List.map_map]
    have hsame : Diagnostic.outline ∘ nullified first.isConditional r = ineffectiveOutline r :=
      funext (outline_nullified _ r)
    rw [hsame]
    exact herase.map _

/-! ## The account -/

/-- The registrations of the service that have no effect. -/
def Node.ineffective (n : Node) : List Registration :=
  n.entries.erase n.registration

/-- Nodes and findings account for registrations: there is one node for each service, it has all
registrations of the service in order and the right one of them in force, and there is one finding
for each registration that is not in force anywhere. -/
structure AccountsFor (nodes : List Node) (ds : List Diagnostic) (rs : List Registration) :
    Prop where
  nodup : (nodes.map Node.service).Nodup
  services : ∀ s, s ∈ nodes.map Node.service ↔ ∃ r ∈ rs, r.service = s
  entries : ∀ n ∈ nodes, n.entries.Perm (rs.filter (fun r => r.service == n.service))
  ordered : ∀ n ∈ nodes, n.entries.Pairwise (fun a b => a.insertionIndex ≤ b.insertionIndex)
  /-- Registrations with the same index are in the order in which they are listed. -/
  stable : ∀ n ∈ nodes, ∀ i, n.entries.filter (fun r => r.insertionIndex == i) =
    rs.filter (fun r => r.service == n.service && r.insertionIndex == i)
  effective : ∀ n ∈ nodes, IsEffective n.entries n.registration
  /-- Every registration is effective at a node or without effect at one, and only once. -/
  shared : (nodes.map Node.registration ++ nodes.flatMap Node.ineffective).Perm rs
  reported : (ds.map Diagnostic.outline).Perm
    (nodes.flatMap (fun n => n.ineffective.map (ineffectiveOutline n.registration)))
  length_eq : rs.length = nodes.length + ds.length

namespace Graph

section Build

variable (rs : List Registration) (shapes : List TypeShape)

/-- What the nodes have to say by service, all services have to say. -/
theorem flatMap_nodes_perm {α : Type} {f : Node → List α} {g : ServiceIdentity → List α}
    (h : ∀ n ∈ (build rs shapes).nodes, (f n).Perm (g n.service)) :
    ((build rs shapes).nodes.flatMap f).Perm ((servicesOf rs).flatMap g) := by
  refine (List.Perm.flatMap_left _ h).trans ?_
  have hmap : (build rs shapes).nodes.flatMap (fun n => g n.service) =
      ((build rs shapes).nodes.map Node.service).flatMap g := (List.flatMap_map _ _ _).symm
  rw [hmap]
  exact (services_build_perm rs shapes).flatMap_right g

theorem registration_mem_entries {n : Node} (hn : n ∈ (build rs shapes).nodes) :
    n.registration ∈ n.entries :=
  mem_of_inForce? (mem_nodes_build rs shapes hn).2.2

theorem registrations_append_ineffective_perm :
    ((build rs shapes).nodes.map Node.registration ++
      (build rs shapes).nodes.flatMap Node.ineffective).Perm rs := by
  refine (List.map_append_flatMap_perm _ _ _).trans ?_
  refine (flatMap_nodes_perm rs shapes (fun n hn => ?_)).trans (flatMap_entriesOf_perm rs)
  rw [← (mem_nodes_build rs shapes hn).2.1]
  exact (List.perm_cons_erase (registration_mem_entries rs shapes hn)).symm

theorem outlines_nullifiedRegistrations_perm :
    ((nullifiedRegistrations rs).map Diagnostic.outline).Perm
      ((build rs shapes).nodes.flatMap
        (fun n => n.ineffective.map (ineffectiveOutline n.registration))) := by
  have hsorted := (List.mergeSort_perm
    ((servicesOf rs).flatMap (fun s => nullifiedAmong (entriesOf rs s))) Diagnostic.leBrief).map
      Diagnostic.outline
  rw [List.map_flatMap] at hsorted
  refine hsorted.trans (flatMap_nodes_perm rs shapes (fun n hn => ?_)).symm
  obtain ⟨-, hentries, hforce⟩ := mem_nodes_build rs shapes hn
  rw [← hentries]
  exact (outlines_nullifiedAmong_perm hforce).symm

/-- Every registration is accounted for exactly once, whatever the mix of conditional and
unconditional ones, of services and of indices. -/
theorem build_accountsFor :
    AccountsFor (build rs shapes).nodes (nullifiedRegistrations rs) rs where
  nodup := (build_wellFormed rs shapes).nodup
  services s := by rw [(services_build_perm rs shapes).mem_iff, mem_servicesOf]
  entries n hn := (mem_nodes_build rs shapes hn).2.1 ▸ entriesOf_perm rs n.service
  ordered n hn := (mem_nodes_build rs shapes hn).2.1 ▸ pairwise_entriesOf rs n.service
  stable n hn i := (mem_nodes_build rs shapes hn).2.1 ▸ filter_entriesOf rs n.service i
  effective n hn := isEffective_of_inForce? (mem_nodes_build rs shapes hn).2.2
  shared := registrations_append_ineffective_perm rs shapes
  reported := outlines_nullifiedRegistrations_perm rs shapes
  length_eq := by
    have hall := (registrations_append_ineffective_perm rs shapes).length_eq
    have hreported := (outlines_nullifiedRegistrations_perm rs shapes).length_eq
    rw [List.length_append, List.length_map] at hall
    rw [List.length_map] at hreported
    rw [← hall, hreported, List.length_flatMap, List.length_flatMap]
    simp only [List.length_map]

end Build

end Graph

end Wiring
