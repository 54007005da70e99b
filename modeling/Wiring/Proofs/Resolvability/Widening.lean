import Mathlib.Data.List.Perm.Subperm
import Mathlib.Logic.Relation
import Wiring.Proofs.Resolvability.Chains

/-!
# Growing type arguments

A generic registration may need itself with wider arguments: `Node<T>` that asks for
`Node<Wrap<T>>`. The walk cuts such a chain where the arguments first grow and never looks below the
cut. So a service that was cut there counts as resolved although it may lead to a missing one.

`NeverWidens g s` says that no chain of needs from `s` grows in this way. All that can be reached
from `s` inherits it, and it holds of every service where no definition is generic. Otherwise it can
be computed, if only finitely many services can be reached.
-/

namespace Wiring

namespace Resolvability

/-- The one service needs the other, and not just all registrations of it. -/
def Leads (g : Graph) (s x : ServiceIdentity) : Prop :=
  ∃ d, Needs g s d ∧ d.isEnumerable = false ∧ d.required = x

/-- The services to which a service leads, in order. -/
def ledTo (g : Graph) (s : ServiceIdentity) : List ServiceIdentity :=
  let ds := ((g.resolveTarget? s).bind (expandable? g)).getD []
  (ds.filter (fun d => isMandatory d && !d.isEnumerable)).map Dependency.required

theorem mem_ledTo_of_leads {g : Graph} {s x : ServiceIdentity} (h : Leads g s x) :
    x ∈ ledTo g s := by
  obtain ⟨d, hd, henum, rfl⟩ := h
  obtain ⟨t, ds, ht, he, hmem, hm⟩ := needs_iff.1 hd
  refine List.mem_map_of_mem (List.mem_filter.2 ⟨?_, ?_⟩)
  · rw [ht, Option.bind_some, he]
    exact hmem
  · rw [hm, henum]
    rfl

/-- A chain of needs leads from the one service to the other. -/
abbrev Reaches (g : Graph) : ServiceIdentity → ServiceIdentity → Prop :=
  Relation.ReflTransGen (Leads g)

/-- No chain of needs from the service comes twice to the same node, the second time with arguments
that wrap those of the first. -/
def NeverWidens (g : Graph) (s : ServiceIdentity) : Prop :=
  ∀ x y t u, Reaches g s x → Reaches g x y → g.resolveTarget? x = some t →
    g.resolveTarget? y = some u → t.node.ix = u.node.ix → widens x.ty.args u.closingArgs = false

section

variable {g : Graph} {s x : ServiceIdentity}

theorem NeverWidens.of_reaches (h : NeverWidens g s) (hx : Reaches g s x) : NeverWidens g x := by
  intro y z t u hy hz
  exact h y z t u (hx.trans hy) hz

theorem widens_nil (args : List TypeRef) : widens args [] = false := by
  cases args with
  | nil => rfl
  | cons a args => rfl

/-- It is enough to look at finitely many services, if they lead only to each other. -/
theorem neverWidens_of_mem (ss : List ServiceIdentity)
    (hleads : ∀ y ∈ ss, ∀ z ∈ ledTo g y, z ∈ ss)
    (hargs : ∀ y ∈ ss, ∀ z ∈ ss, ∀ t ∈ g.resolveTarget? y, ∀ u ∈ g.resolveTarget? z,
      t.node.ix = u.node.ix → widens y.ty.args u.closingArgs = false)
    (hs : s ∈ ss) : NeverWidens g s := by
  have hstays : ∀ y ∈ ss, ∀ z, Reaches g y z → z ∈ ss := by
    intro y hy z hz
    induction hz with
    | refl => exact hy
    | tail _ hl ih => exact hleads _ ih _ (mem_ledTo_of_leads hl)
  intro y z t u hy hz ht hu hix
  have hy : y ∈ ss := hstays s hs y hy
  exact hargs y hy z (hstays y hy z hz) t ht u hu hix

theorem neverWidens_of_closed (hg : g.Closed) (s : ServiceIdentity) : NeverWidens g s := by
  intro x y t u _ _ _ hu _
  rw [hg.resolveTarget?_eq] at hu
  obtain ⟨n, -, rfl⟩ := Option.map_eq_some_iff.1 hu
  exact widens_nil _

end

/-! ## The path above a service -/

namespace Path

/-- The services on the path are distinct, each with the node that provides it, and from each of
them a chain of needs leads to `s`, which is not among them. -/
structure Above (g : Graph) (p : Path) (s : ServiceIdentity) : Prop where
  nodup : (services p).Nodup
  target : ∀ e ∈ p, ∃ args, g.resolveTarget? e.1 = some ⟨e.2, args⟩
  reaches : ∀ e ∈ p, Reaches g e.1 s
  not_mem : s ∉ services p

variable {g : Graph} {p : Path} {s : ServiceIdentity}

theorem Above.nil (g : Graph) (s : ServiceIdentity) : Above g [] s where
  nodup := List.nodup_nil
  target _ he := absurd he List.not_mem_nil
  reaches _ he := absurd he List.not_mem_nil
  not_mem := List.not_mem_nil

theorem Above.nodup_concat (hp : Above g p s) (n : Node) :
    (services (p ++ [(s, n)])).Nodup := by
  rw [services_concat, List.nodup_append]
  refine ⟨hp.nodup, List.nodup_cons.2 ⟨List.not_mem_nil, List.nodup_nil⟩, ?_⟩
  rintro a ha b hb rfl
  exact hp.not_mem (List.mem_singleton.1 hb ▸ ha)

/-- One step further down. -/
theorem Above.concat (hp : Above g p s) {t : Target} (ht : g.resolveTarget? s = some t)
    {x : ServiceIdentity} (hl : Leads g s x) (hx : x ∉ services (p ++ [(s, t.node)])) :
    Above g (p ++ [(s, t.node)]) x where
  nodup := hp.nodup_concat t.node
  target := by
    intro e he
    rcases List.mem_append.1 he with he | he
    · exact hp.target e he
    · rw [List.mem_singleton.1 he]
      exact ⟨t.closingArgs, ht⟩
  reaches := by
    intro e he
    rcases List.mem_append.1 he with he | he
    · exact (hp.reaches e he).tail hl
    · rw [List.mem_singleton.1 he]
      exact .single hl
  not_mem := hx

theorem Above.registered (hp : Above g p s) {x : ServiceIdentity} (hx : x ∈ services p) :
    (g.resolveTarget? x).isSome := by
  obtain ⟨e, he, rfl⟩ := List.mem_map.1 hx
  obtain ⟨args, ht⟩ := hp.target e he
  rw [ht]
  rfl

/-- Where no definition is generic, a path leaves at least one node for the service below it. -/
theorem Above.length_lt (hp : Above g p s) (hg : g.Closed) (hs : (g.resolveTarget? s).isSome) :
    p.length < g.nodes.length := by
  have hsub : s :: services p ⊆ g.nodes.map Node.service := by
    intro x hx
    have hreg : (g.resolveTarget? x).isSome := by
      rcases List.mem_cons.1 hx with rfl | hx
      · exact hs
      · exact hp.registered hx
    rw [← Graph.isSome_effective?_iff]
    simpa [hg.resolveTarget?_eq] using hreg
  have hle := ((List.nodup_cons.2 ⟨hp.not_mem, hp.nodup⟩).subperm hsub).length_le
  rwa [List.length_cons, length_services, List.length_map] at hle

/-- The arguments grow only below a service from which they may grow. -/
theorem Above.exists_of_widened? (hp : Above g p s) {t : Target} {depth : Nat}
    (ht : g.resolveTarget? s = some t) (hw : widened? p t.node t.closingArgs = some depth) :
    ∃ x, (services p)[depth]? = some x ∧ ¬ NeverWidens g x := by
  unfold widened? at hw
  split at hw
  · cases hw
  · obtain ⟨hlt, hgrows, -⟩ := List.findIdx?_eq_some_iff_getElem.1 hw
    rw [Bool.and_eq_true, beq_iff_eq] at hgrows
    have hmem : p[depth] ∈ p := List.getElem_mem hlt
    obtain ⟨args, htarget⟩ := hp.target _ hmem
    refine ⟨p[depth].1, ?_, fun h => ?_⟩
    · rw [services, List.getElem?_map, List.getElem?_eq_getElem hlt]
      rfl
    · have hnot := h _ s _ t .refl (hp.reaches _ hmem) htarget ht hgrows.1
      exact Bool.false_ne_true (hnot.symm.trans hgrows.2)

end Path

end Resolvability

end Wiring
