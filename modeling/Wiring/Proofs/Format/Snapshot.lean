import Mathlib.Logic.Basic
import Wiring.Format.Snapshot
import Wiring.Proofs.Format.Decoding

/-!
# Snapshots survive their text

Labels are written in the order of their names, so reading them back puts each behind the ones
before it and loses none. The document of a snapshot is never nested deeper than four levels, so
the limit on nested text does not matter and every snapshot is read from its JSON text.
-/

namespace Wiring

/-! ## Labels -/

namespace Labels

theorem place_eq_append {k v : String} {es : List (String × String)} (h : ∀ e ∈ es, e.1 < k) :
    place k v es = es ++ [(k, v)] := by
  induction es with
  | nil => rfl
  | cons e es ih =>
    obtain ⟨he, hes⟩ := List.forall_mem_cons.1 h
    rw [place, if_neg (String.lt_asymm he), if_pos he, ih hes, List.cons_append]

-- The labels set so far grow at the end, where the names are greatest.
theorem entries_foldl_set {es : List (String × String)} {ls : Labels}
    (h : (ls.entries ++ es).Pairwise (fun a b => a.1 < b.1)) :
    (es.foldl (fun ls e => ls.set e.1 e.2) ls).entries = ls.entries ++ es := by
  induction es generalizing ls with
  | nil => rw [List.foldl_nil, List.append_nil]
  | cons e es ih =>
    have hbefore : ∀ e' ∈ ls.entries, e'.1 < e.1 := fun e' he' =>
      (List.pairwise_append.1 h).2.2 e' he' e List.mem_cons_self
    have hset : (ls.set e.1 e.2).entries = ls.entries ++ [e] := place_eq_append hbefore
    rw [List.append_cons, ← hset] at h ⊢
    rw [List.foldl_cons, ih h]

theorem ofList_entries (ls : Labels) : ofList ls.entries = ls := by
  have hentries : (ofList ls.entries).entries = ls.entries := entries_foldl_set ls.increasing
  cases hofList : ofList ls.entries
  cases ls
  rw [hofList] at hentries
  cases hentries
  rfl

theorem depth_toDocument_le (ls : Labels) : ls.toDocument.depth ≤ 1 :=
  Document.depth_fields_le_iff.2 (List.forall_mem_map.2 (fun _ _ => Nat.zero_le 0))

theorem holds_toDocument (ls : Labels) : Holds decode ls.toDocument ls := by
  have hentries := (holds_mapOf (fun e (_ : e ∈ ls.entries) => holds_text e.2)).map ofList
  rw [ofList_entries] at hentries
  exact hentries

end Labels

/-! ## Nodes, edges and numbers -/

theorem SnapshotNode.holds_toDocument (n : SnapshotNode) : Holds decode n.toDocument n := by
  have hid := holds_text n.id
  have hservice := holds_text n.service
  have himplementation := holds_text n.implementation
  have hlifetime := holds_text n.lifetime
  have hopen := holds_bool n.isOpenGeneric
  have hlabels := n.labels.holds_toDocument
  refine holds_record rfl ?_ (fun n a => ?_)
  · simp [hid.regular, hservice.regular, himplementation.regular, hlifetime.regular,
      hopen.regular, hlabels.regular]
  · simp [hid.decode_eq, hservice.decode_eq, himplementation.decode_eq, hlifetime.decode_eq,
      hopen.decode_eq, hlabels.decode_eq]

theorem Demand.holds_word (d : Demand) :
    Holds (Decode.word (all.map (fun d => (d.word, d)))) (.str d.word) d :=
  Wiring.holds_word (by cases d <;> rfl)

theorem SnapshotEdge.holds_toDocument (e : SnapshotEdge) : Holds decode e.toDocument e := by
  have hsource := holds_text e.source
  have htarget := holds_text e.target
  have hdemand := e.demand.holds_word
  refine holds_record rfl ?_ (fun n a => ?_)
  · simp [hsource.regular, htarget.regular, hdemand.regular]
  · simp [hsource.decode_eq, htarget.decode_eq, hdemand.decode_eq]

theorem SnapshotSummary.holds_toDocument (s : SnapshotSummary) :
    Holds decode s.toDocument s := by
  have hservices := holds_u64 s.serviceCount
  have hsingletons := holds_u64 s.singletonCount
  have hscoped := holds_u64 s.scopedCount
  have htransients := holds_u64 s.transientCount
  have hopen := holds_u64 s.openGenericCount
  have hversion := holds_text s.version
  refine holds_record rfl ?_ (fun n a => ?_)
  · simp [hservices.regular, hsingletons.regular, hscoped.regular, htransients.regular,
      hopen.regular, hversion.regular]
  · simp [hservices.decode_eq, hsingletons.decode_eq, hscoped.decode_eq, htransients.decode_eq,
      hopen.decode_eq, hversion.decode_eq]

/-! ## Snapshots -/

namespace Snapshot

theorem holds_toDocument (s : Snapshot) : Holds decode s.toDocument s := by
  have hnodes := holds_list (fun n (_ : n ∈ s.nodes) => n.holds_toDocument)
  have hedges := holds_list (fun e (_ : e ∈ s.edges) => e.holds_toDocument)
  have hsummary := s.summary.holds_toDocument
  refine holds_record rfl ?_ (fun n a => ?_)
  · simp [hnodes.regular, hedges.regular, hsummary.regular]
  · simp [hnodes.decode_eq, hedges.decode_eq, hsummary.decode_eq, ite_and]

/-- The labels of a node are the deepest place of a snapshot. -/
theorem depth_toDocument_le (s : Snapshot) : s.toDocument.depth ≤ 4 := by
  have hlabels (n : SnapshotNode) := n.labels.depth_toDocument_le
  simp [toDocument, SnapshotNode.toDocument, SnapshotEdge.toDocument, SnapshotSummary.toDocument,
    Document.depth_fields_le_iff, Document.depth_list_le_iff, hlabels]

/-- Every snapshot is read back from its text, whatever its names, labels and numbers. -/
theorem ofJson_toJson (s : Snapshot) : Snapshot.ofJson s.toJson = .ok s := by
  have hread : Json.read? s.toJson.toList = some s.toDocument :=
    Document.read?_toPrettyJson s.holds_toDocument.regular
  have hdepth : s.toDocument.depth ≤ Json.maxDepth :=
    Nat.le_trans s.depth_toDocument_le (by decide)
  have hdecode : decode Json.maxDepth .json s.toDocument = some s := by
    rw [s.holds_toDocument.decode_eq, if_pos hdepth]
  rw [ofJson, hread]
  show ofDocument s.toDocument = .ok s
  rw [ofDocument, hdecode]

end Snapshot

end Wiring
