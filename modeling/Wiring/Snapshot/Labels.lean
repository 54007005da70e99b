/-!
# Labels

Texts by name, in the order of names and each name once.
-/

namespace Wiring

/-- Names with their texts, in increasing order of names. -/
structure Labels where
  entries : List (String × String)
  increasing : entries.Pairwise (fun a b => a.1 < b.1)
deriving DecidableEq, Repr

namespace Labels

/-- No labels. -/
def empty : Labels :=
  ⟨[], .nil⟩

instance : Inhabited Labels :=
  ⟨empty⟩

/-- Puts a label in its place; a label of the same name gives way. -/
def place (k v : String) : List (String × String) → List (String × String)
  | [] => [(k, v)]
  | (k', v') :: es =>
    if k < k' then (k, v) :: (k', v') :: es
    else if k' < k then (k', v') :: place k v es
    else (k, v) :: es

/-- The names after a label is put in are those before and its own. -/
theorem mem_place {k v : String} {es : List (String × String)} {e : String × String}
    (h : e ∈ place k v es) : e = (k, v) ∨ e ∈ es := by
  induction es with
  | nil => simpa [place] using h
  | cons e' es ih =>
    obtain ⟨k', v'⟩ := e'
    unfold place at h
    split at h
    · simpa using h
    · split at h
      · rcases List.mem_cons.1 h with h | h
        · exact .inr (h ▸ List.mem_cons_self)
        · exact (ih h).imp id (List.mem_cons_of_mem _)
      · rcases List.mem_cons.1 h with h | h
        · exact .inl h
        · exact .inr (List.mem_cons_of_mem _ h)

/-- Names stay in increasing order. -/
theorem pairwise_place (k v : String) {es : List (String × String)}
    (h : es.Pairwise (fun a b => a.1 < b.1)) : (place k v es).Pairwise (fun a b => a.1 < b.1) := by
  induction es with
  | nil => simp [place]
  | cons e' es ih =>
    obtain ⟨k', v'⟩ := e'
    obtain ⟨hhead, htail⟩ := List.pairwise_cons.1 h
    unfold place
    split
    · rename_i lt
      refine List.pairwise_cons.2 ⟨fun e he => ?_, h⟩
      rcases List.mem_cons.1 he with rfl | he
      · exact lt
      · exact String.lt_trans lt (hhead e he)
    · rename_i not_lt
      split
      · rename_i gt
        refine List.pairwise_cons.2 ⟨fun e he => ?_, ih htail⟩
        rcases mem_place he with rfl | he
        · exact gt
        · exact hhead e he
      · rename_i not_gt
        have same : k = k' := String.le_antisymm (String.not_lt.1 not_gt) (String.not_lt.1 not_lt)
        subst same
        exact List.pairwise_cons.2 ⟨hhead, htail⟩

/-- Sets a label. -/
def set (ls : Labels) (k v : String) : Labels :=
  ⟨place k v ls.entries, pairwise_place k v ls.increasing⟩

/-- The labels of a list, of which the last counts for each name. -/
def ofList (es : List (String × String)) : Labels :=
  es.foldl (fun ls e => ls.set e.1 e.2) empty

end Labels

end Wiring
