import Wiring.Proofs.Order

/-!
# The sink

What a sink hands out at the end does not depend on the order in which the findings came in, up to
the severity of findings that differ in nothing else.

Results:
1. `Sink.pairwise_finish`, `Sink.mem_finish_iff`: the findings come out in strictly ascending order,
   and they are those that came in.
2. `Sink.map_plain_finish_of_perm`: the order in which they came in does not matter.
3. `Sink.map_plain_finish_filter`: findings of some rules can be kept out before or after.
-/

namespace Wiring

theorem map_plain_dropRepeatedAfter (last : Diagnostic) (ds : List Diagnostic) :
    (dropRepeatedAfter last ds).map Diagnostic.plain =
      dropRepeatedAfter last.plain (ds.map Diagnostic.plain) := by
  induction ds generalizing last with
  | nil => rfl
  | cons d ds ih =>
    have hcmp : last.plain.cmp d.plain = last.cmp d := rfl
    rw [List.map_cons, dropRepeatedAfter, dropRepeatedAfter, hcmp]
    split
    · exact ih last
    · rw [List.map_cons, ih]

theorem map_plain_dropRepeated (ds : List Diagnostic) :
    (dropRepeated ds).map Diagnostic.plain = dropRepeated (ds.map Diagnostic.plain) := by
  cases ds with
  | nil => rfl
  | cons d ds => rw [List.map_cons, dropRepeated, dropRepeated, List.map_cons,
      map_plain_dropRepeatedAfter]

theorem map_plain_mergeSort (ds : List Diagnostic) :
    (ds.mergeSort Diagnostic.le).map Diagnostic.plain =
      (ds.map Diagnostic.plain).mergeSort Diagnostic.le :=
  List.map_mergeSort (fun _ _ _ _ => rfl)

theorem map_plain_mergeSort_of_perm {ds ds' : List Diagnostic} (h : ds.Perm ds') :
    (ds.mergeSort Diagnostic.le).map Diagnostic.plain =
      (ds'.mergeSort Diagnostic.le).map Diagnostic.plain := by
  rw [map_plain_mergeSort, map_plain_mergeSort]
  refine mergeSort_eq_of_perm (fun _ _ _ => Std.TransCmp.isLE_trans) isLE_total ?_ (h.map _)
  intro a ha b hb hle hle'
  obtain ⟨d, -, rfl⟩ := List.mem_map.1 ha
  obtain ⟨d', -, rfl⟩ := List.mem_map.1 hb
  exact Diagnostic.plain_eq_of_cmp (Std.OrientedCmp.isLE_antisymm hle hle')

theorem Sink.map_plain_finish_of_perm {s s' : Sink} (h : s.entries.Perm s'.entries) :
    s.finish.map Diagnostic.plain = s'.finish.map Diagnostic.plain := by
  rw [finish, finish, map_plain_dropRepeated, map_plain_dropRepeated,
    map_plain_mergeSort_of_perm h]

/-! ## What comes out -/

theorem mem_of_mem_dropRepeatedAfter {last d : Diagnostic} {ds : List Diagnostic}
    (h : d ∈ dropRepeatedAfter last ds) : d ∈ ds := by
  induction ds generalizing last with
  | nil => exact absurd h List.not_mem_nil
  | cons a ds ih =>
    rw [dropRepeatedAfter] at h
    split at h
    · exact List.mem_cons_of_mem _ (ih h)
    · rcases List.mem_cons.1 h with rfl | h
      · exact List.mem_cons_self
      · exact List.mem_cons_of_mem _ (ih h)

/-- What is dropped compares equal to something that is kept. -/
theorem exists_mem_dropRepeatedAfter (last : Diagnostic) {d : Diagnostic} {ds : List Diagnostic}
    (h : d ∈ ds) : ∃ a ∈ last :: dropRepeatedAfter last ds, a.cmp d = .eq := by
  induction ds generalizing last with
  | nil => exact absurd h List.not_mem_nil
  | cons b ds ih =>
    rw [dropRepeatedAfter]
    rcases List.mem_cons.1 h with rfl | h
    · split
      · next heq => exact ⟨last, List.mem_cons_self, heq⟩
      · exact ⟨d, by simp, Std.ReflCmp.compare_self⟩
    · split
      · exact ih last h
      · obtain ⟨a, ha, heq⟩ := ih b h
        exact ⟨a, List.mem_cons_of_mem _ ha, heq⟩

/-- In ascending order only neighbours compare equal. -/
theorem pairwise_dropRepeatedAfter {last : Diagnostic} {ds : List Diagnostic}
    (h : (last :: ds).Pairwise (fun a b => a.le b)) :
    (last :: dropRepeatedAfter last ds).Pairwise (fun a b => a.cmp b = .lt) := by
  induction ds generalizing last with
  | nil => exact List.pairwise_singleton _ _
  | cons b ds ih =>
    obtain ⟨hlast, hds⟩ := List.pairwise_cons.1 h
    rw [dropRepeatedAfter]
    split
    · exact ih (List.pairwise_cons.2 ⟨fun d hd => hlast d (List.mem_cons_of_mem _ hd),
        (List.pairwise_cons.1 hds).2⟩)
    · next hne =>
      have hlt : last.cmp b = .lt := by
        have hle : (last.cmp b).isLE := hlast b List.mem_cons_self
        cases hcmp : last.cmp b with
        | lt => rfl
        | eq => exact absurd hcmp hne
        | gt => rw [hcmp] at hle; cases hle
      have hrest := ih hds
      refine List.pairwise_cons.2 ⟨fun d hd => ?_, hrest⟩
      rcases List.mem_cons.1 hd with rfl | hd
      · exact hlt
      · exact Std.TransCmp.lt_trans hlt ((List.pairwise_cons.1 hrest).1 d hd)

theorem mem_of_mem_dropRepeated {d : Diagnostic} {ds : List Diagnostic}
    (h : d ∈ dropRepeated ds) : d ∈ ds := by
  cases ds with
  | nil => exact h
  | cons a ds =>
    rcases List.mem_cons.1 h with rfl | h
    · exact List.mem_cons_self
    · exact List.mem_cons_of_mem _ (mem_of_mem_dropRepeatedAfter h)

theorem exists_mem_dropRepeated {d : Diagnostic} {ds : List Diagnostic} (h : d ∈ ds) :
    ∃ a ∈ dropRepeated ds, a.cmp d = .eq := by
  cases ds with
  | nil => exact absurd h List.not_mem_nil
  | cons b ds =>
    rcases List.mem_cons.1 h with rfl | h
    · exact ⟨d, List.mem_cons_self, Std.ReflCmp.compare_self⟩
    · exact exists_mem_dropRepeatedAfter b h

theorem pairwise_dropRepeated {ds : List Diagnostic} (h : ds.Pairwise (fun a b => a.le b)) :
    (dropRepeated ds).Pairwise (fun a b => a.cmp b = .lt) := by
  cases ds with
  | nil => exact List.Pairwise.nil
  | cons d ds => exact pairwise_dropRepeatedAfter h

/-! ## Strictly ascending lists -/

theorem nodup_of_pairwise_cmp {ds : List Diagnostic} (h : ds.Pairwise (fun a b => a.cmp b = .lt)) :
    ds.Nodup := by
  refine h.imp (fun {a b} hlt heq => ?_)
  have hself : b.cmp b = .eq := Std.ReflCmp.compare_self
  rw [heq, hself] at hlt
  cases hlt

theorem eq_of_pairwise_cmp_of_mem_iff {ds ds' : List Diagnostic}
    (h : ds.Pairwise (fun a b => a.cmp b = .lt)) (h' : ds'.Pairwise (fun a b => a.cmp b = .lt))
    (hmem : ∀ d, d ∈ ds ↔ d ∈ ds') : ds = ds' := by
  have hperm : ds.Perm ds' :=
    (List.perm_ext_iff_of_nodup (nodup_of_pairwise_cmp h) (nodup_of_pairwise_cmp h')).2 hmem
  refine hperm.eq_of_pairwise ?_ h h'
  intro a b _ _ hab hba
  have hswap : b.cmp a = (a.cmp b).swap := Std.OrientedCmp.eq_swap
  rw [hswap, hab] at hba
  cases hba

namespace Sink

theorem pairwise_finish (s : Sink) : s.finish.Pairwise (fun a b => a.cmp b = .lt) :=
  pairwise_dropRepeated
    (List.pairwise_mergeSort (fun _ _ _ => Std.TransCmp.isLE_trans) isLE_total _)

/-- Where findings that compare equal are equal, what comes out is what came in. -/
theorem mem_finish_iff {s : Sink}
    (hsame : ∀ a ∈ s.entries, ∀ b ∈ s.entries, a.cmp b = .eq → a = b) {d : Diagnostic} :
    d ∈ s.finish ↔ d ∈ s.entries := by
  have hin : ∀ {a : Diagnostic}, a ∈ s.finish → a ∈ s.entries :=
    fun h => List.mem_mergeSort.1 (mem_of_mem_dropRepeated h)
  refine ⟨hin, fun h => ?_⟩
  obtain ⟨a, ha, heq⟩ : ∃ a ∈ s.finish, a.cmp d = .eq :=
    exists_mem_dropRepeated (List.mem_mergeSort.2 h)
  exact hsame a (hin ha) d h heq ▸ ha

theorem map_plain_finish (s : Sink) :
    s.finish.map Diagnostic.plain = (Sink.mk (s.entries.map Diagnostic.plain)).finish := by
  rw [finish, finish, map_plain_dropRepeated, map_plain_mergeSort]

/-- To keep the findings of some rules out of a sink is to take them away from what it hands out. -/
theorem map_plain_finish_filter {s s' : Sink} {q : Rule → Bool}
    (h : ∀ d, d ∈ s'.entries ↔ d ∈ s.entries ∧ q d.rule) :
    s'.finish.map Diagnostic.plain =
      (s.finish.map Diagnostic.plain).filter (fun d => q d.rule) := by
  have hsame (t : Sink) : ∀ a ∈ t.entries.map Diagnostic.plain,
      ∀ b ∈ t.entries.map Diagnostic.plain, a.cmp b = .eq → a = b := by
    intro a ha b hb heq
    obtain ⟨a, -, rfl⟩ := List.mem_map.1 ha
    obtain ⟨b, -, rfl⟩ := List.mem_map.1 hb
    exact Diagnostic.plain_eq_of_cmp heq
  rw [map_plain_finish, map_plain_finish]
  refine eq_of_pairwise_cmp_of_mem_iff (pairwise_finish _) ((pairwise_finish _).filter _)
    (fun d => ?_)
  rw [mem_finish_iff (hsame s'), List.mem_filter, mem_finish_iff (hsame s), List.mem_map,
    List.mem_map]
  constructor
  · rintro ⟨a, ha, rfl⟩
    obtain ⟨ha, hq⟩ := (h a).1 ha
    exact ⟨⟨a, ha, rfl⟩, hq⟩
  · rintro ⟨⟨a, ha, rfl⟩, hq⟩
    exact ⟨a, (h a).2 ⟨ha, hq⟩, rfl⟩

end Sink

end Wiring
