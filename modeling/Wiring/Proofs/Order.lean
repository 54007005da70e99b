import Wiring.Graph

/-!
# The orders are lawful

Types, services, places and findings are put in order by comparisons that go through their parts one
after another. Each of these comparisons is a linear order, so a sorted list does not depend on the
order in which its entries arrived. The one exception is the severity of a finding, which is not
compared.
-/

namespace Wiring

/-! ## Comparing part after part -/

/-- A chain of two comparisons that go on to the second part when the first parts are equal. -/
theorem then_eq_lt_trans {o₁ o₂ o₃ x y z : Ordering} (hlt : o₁ = .lt → o₂ = .lt → o₃ = .lt)
    (heq₁ : o₁ = .eq → o₂ = o₃) (heq₂ : o₂ = .eq → o₁ = o₃)
    (hthen : x = .lt → y = .lt → z = .lt) (h₁ : o₁.then x = .lt) (h₂ : o₂.then y = .lt) :
    o₃.then z = .lt := by
  rw [Ordering.then_eq_lt] at h₁ h₂ ⊢
  rcases h₁ with h₁ | ⟨h₁, hx⟩
  · rcases h₂ with h₂ | ⟨h₂, -⟩
    · exact .inl (hlt h₁ h₂)
    · exact .inl (heq₂ h₂ ▸ h₁)
  · rcases h₂ with h₂ | ⟨h₂, hy⟩
    · exact .inl (heq₁ h₁ ▸ h₂)
    · exact .inr ⟨heq₁ h₁ ▸ h₂, hthen hx hy⟩

/-- The same where the first parts are names or numbers. -/
theorem compare_then_eq_lt_trans {α : Type} [Ord α] [Std.TransOrd α] [Std.LawfulEqOrd α]
    {a b c : α} {x y z : Ordering} (hthen : x = .lt → y = .lt → z = .lt)
    (h₁ : (compare a b).then x = .lt) (h₂ : (compare b c).then y = .lt) :
    (compare a c).then z = .lt := by
  refine then_eq_lt_trans Std.TransCmp.lt_trans (fun h => ?_) (fun h => ?_) hthen h₁ h₂
  · rw [Std.LawfulEqOrd.eq_of_compare h]
  · rw [Std.LawfulEqOrd.eq_of_compare h]

theorem isLE_total {α : Type} {cmp : α → α → Ordering} [Std.OrientedCmp cmp] (a b : α) :
    ((cmp a b).isLE || (cmp b a).isLE) = true := by
  have hswap : cmp b a = (cmp a b).swap := Std.OrientedCmp.eq_swap
  rw [hswap]
  cases cmp a b <;> rfl

/-- A list of which no two entries stand side by side is sorted in one way only. -/
theorem mergeSort_eq_of_perm {α : Type} {le : α → α → Bool}
    (htrans : ∀ a b c, le a b → le b c → le a c) (htotal : ∀ a b, (le a b || le b a) = true)
    {l l' : List α} (hanti : ∀ a ∈ l, ∀ b ∈ l, le a b → le b a → a = b) (h : l.Perm l') :
    l.mergeSort le = l'.mergeSort le := by
  have hperm : (l.mergeSort le).Perm (l'.mergeSort le) :=
    (List.mergeSort_perm l le).trans (h.trans (List.mergeSort_perm l' le).symm)
  refine List.Perm.eq_of_pairwise ?_ (List.pairwise_mergeSort htrans htotal l)
    (List.pairwise_mergeSort htrans htotal l') hperm
  intro a b ha hb
  rw [List.mem_mergeSort] at ha hb
  exact hanti a ha b (h.mem_iff.2 hb)

/-! ## Types -/

namespace TypeRef

mutual
theorem cmp_swap : ∀ a b : TypeRef, cmp a b = (cmp b a).swap
  | .closed n as, .closed m bs => by
    rw [cmp, cmp, Ordering.swap_then, ← cmpAll_swap as bs, ← Std.OrientedOrd.eq_swap]
  | .generic n k, .generic m l => by
    rw [cmp, cmp, Ordering.swap_then, ← Std.OrientedOrd.eq_swap, ← Std.OrientedOrd.eq_swap]
  | .param n, .param m => by
    rw [cmp, cmp, ← Std.OrientedOrd.eq_swap]
  | .closed _ _, .generic _ _ | .closed _ _, .param _ | .generic _ _, .closed _ _
  | .generic _ _, .param _ | .param _, .closed _ _ | .param _, .generic _ _ => by
    simp [cmp]

theorem cmpAll_swap : ∀ as bs : List TypeRef, cmpAll as bs = (cmpAll bs as).swap
  | [], [] | [], _ :: _ | _ :: _, [] => by
    simp [cmpAll]
  | a :: as, b :: bs => by
    rw [cmpAll, cmpAll, Ordering.swap_then, ← cmp_swap a b, ← cmpAll_swap as bs]
end

mutual
theorem eq_of_cmp : ∀ {a b : TypeRef}, cmp a b = .eq → a = b
  | .closed n as, .closed m bs, h => by
    rw [cmp, Ordering.then_eq_eq] at h
    rw [Std.LawfulEqOrd.eq_of_compare h.1, eq_of_cmpAll h.2]
  | .generic n k, .generic m l, h => by
    rw [cmp, Ordering.then_eq_eq] at h
    rw [Std.LawfulEqOrd.eq_of_compare h.1, Std.LawfulEqOrd.eq_of_compare h.2]
  | .param n, .param m, h => by
    rw [cmp] at h
    rw [Std.LawfulEqOrd.eq_of_compare h]
  | .closed _ _, .generic _ _, h | .closed _ _, .param _, h | .generic _ _, .closed _ _, h
  | .generic _ _, .param _, h | .param _, .closed _ _, h | .param _, .generic _ _, h => by
    simp [cmp] at h

theorem eq_of_cmpAll : ∀ {as bs : List TypeRef}, cmpAll as bs = .eq → as = bs
  | [], [], _ => rfl
  | [], _ :: _, h | _ :: _, [], h => by
    simp [cmpAll] at h
  | a :: as, b :: bs, h => by
    rw [cmpAll, Ordering.then_eq_eq] at h
    rw [eq_of_cmp h.1, eq_of_cmpAll h.2]
end

mutual
theorem cmp_lt_trans : ∀ {a b c : TypeRef}, cmp a b = .lt → cmp b c = .lt → cmp a c = .lt
  | .closed n as, .closed m bs, .closed k cs, h₁, h₂ => by
    rw [cmp] at h₁ h₂ ⊢
    exact compare_then_eq_lt_trans cmpAll_lt_trans h₁ h₂
  | .generic n k, .generic m l, .generic o j, h₁, h₂ => by
    rw [cmp] at h₁ h₂ ⊢
    exact compare_then_eq_lt_trans Std.TransCmp.lt_trans h₁ h₂
  | .param n, .param m, .param o, h₁, h₂ => by
    rw [cmp] at h₁ h₂ ⊢
    exact Std.TransCmp.lt_trans h₁ h₂
  -- the kinds come in order, so between different kinds nothing else is compared
  | .closed _ _, _, .generic _ _, _, _ | .closed _ _, _, .param _, _, _
  | .generic _ _, _, .param _, _, _ => by
    simp [cmp]
  | .closed _ _, .generic _ _, .closed _ _, _, h | .closed _ _, .param _, .closed _ _, _, h
  | .generic _ _, .param _, .generic _ _, _, h | .generic _ _, .generic _ _, .closed _ _, _, h
  | .generic _ _, .param _, .closed _ _, _, h | .param _, .param _, .closed _ _, _, h
  | .param _, .param _, .generic _ _, _, h => by
    simp [cmp] at h
  | .generic _ _, .closed _ _, _, h, _ | .param _, .closed _ _, _, h, _
  | .param _, .generic _ _, _, h, _ => by
    simp [cmp] at h

theorem cmpAll_lt_trans : ∀ {as bs cs : List TypeRef}, cmpAll as bs = .lt → cmpAll bs cs = .lt →
    cmpAll as cs = .lt
  | [], _ :: _, _ :: _, _, _ => by
    rw [cmpAll]
  | a :: as, b :: bs, c :: cs, h₁, h₂ => by
    rw [cmpAll] at h₁ h₂ ⊢
    refine then_eq_lt_trans cmp_lt_trans (fun h => ?_) (fun h => ?_) cmpAll_lt_trans h₁ h₂
    · rw [eq_of_cmp h]
    · rw [eq_of_cmp h]
  | [], [], _, h, _ | _ :: _, [], _, h, _ => by
    simp [cmpAll] at h
  | _, _ :: _, [], _, h => by
    simp [cmpAll] at h
end

instance : Std.TransCmp cmp where
  eq_swap := cmp_swap _ _
  isLE_trans {a b c} h₁ h₂ := by
    cases h : cmp a b with
    | lt =>
      cases h' : cmp b c with
      | lt => rw [cmp_lt_trans h h']; rfl
      | eq => rw [← eq_of_cmp h', h]; rfl
      | gt => rw [h'] at h₂; cases h₂
    | eq => rwa [eq_of_cmp h]
    | gt => rw [h] at h₁; cases h₁

instance : Std.TransOrd TypeRef :=
  inferInstanceAs (Std.TransCmp cmp)

end TypeRef

/-! ## Services -/

namespace ServiceIdentity

theorem cmpKey_eq_compare (a b : Option String) : cmpKey a b = compare a b := by
  cases a <;> cases b <;> rfl

theorem cmp_eq_compareLex :
    cmp = compareLex (compareOn ServiceIdentity.ty) (compareOn ServiceIdentity.key) := by
  funext a b
  rw [cmp, cmpKey_eq_compare]
  rfl

instance : Std.TransCmp cmp := by
  rw [cmp_eq_compareLex]
  infer_instance

instance : Std.TransOrd ServiceIdentity :=
  inferInstanceAs (Std.TransCmp cmp)

theorem eq_of_cmp {a b : ServiceIdentity} (h : cmp a b = .eq) : a = b := by
  rw [cmp, Ordering.then_eq_eq, cmpKey_eq_compare] at h
  cases a
  cases b
  rw [mk.injEq]
  exact ⟨TypeRef.eq_of_cmp h.1, Std.LawfulEqOrd.eq_of_compare h.2⟩

end ServiceIdentity

/-! ## Nodes -/

/-- The comparison behind `declaredBefore`. -/
def declaredOrder : Registration × List Registration → Registration × List Registration → Ordering :=
  compareLex (compareOn (fun e => e.1.insertionIndex)) (compareOn (fun e => e.1.service))

theorem declaredBefore_eq_isLE : declaredBefore = fun a b => (declaredOrder a b).isLE :=
  rfl

instance : Std.TransCmp declaredOrder := by
  unfold declaredOrder
  infer_instance

theorem Graph.pairwise_declaredBefore_effectiveGroups (rs : List Registration) :
    (effectiveGroups rs).Pairwise (fun a b => declaredBefore a b) := by
  rw [declaredBefore_eq_isLE]
  exact List.pairwise_mergeSort (fun _ _ _ => Std.TransCmp.isLE_trans) isLE_total _

/-! ## Places -/

namespace Location

theorem cmp_eq_compareLex : cmp = compareLex (compareOn file)
    (compareLex (compareOn line) (compareOn column)) :=
  rfl

instance : Std.TransCmp cmp := by
  rw [cmp_eq_compareLex]
  infer_instance

instance : Std.LawfulEqCmp cmp where
  eq_of_compare {a b} h := by
    simp only [cmp, Ordering.then_eq_eq] at h
    obtain ⟨hfile, hline, hcolumn⟩ := h
    cases a
    cases b
    rw [mk.injEq]
    exact ⟨Std.LawfulEqOrd.eq_of_compare hfile, Std.LawfulEqOrd.eq_of_compare hline,
      Std.LawfulEqOrd.eq_of_compare hcolumn⟩

theorem cmpAll_eq_compareLex : cmpAll = List.compareLex cmp := by
  funext as bs
  induction as generalizing bs with
  | nil => cases bs <;> rfl
  | cons a as ih =>
    cases bs with
    | nil => rfl
    | cons b bs =>
      rw [cmpAll, ih, List.compareLex_cons_cons]

instance : Std.TransOrd Location :=
  inferInstanceAs (Std.TransCmp cmp)

instance : Std.LawfulEqOrd Location :=
  inferInstanceAs (Std.LawfulEqCmp cmp)

end Location

/-! ## Findings -/

theorem Rule.getElem?_all_index (r : Rule) : Rule.all[r.index]? = some r := by
  cases r <;> rfl

theorem Rule.index_injective {r r' : Rule} (h : r.index = r'.index) : r = r' := by
  have hsome := Rule.getElem?_all_index r
  rw [h, Rule.getElem?_all_index] at hsome
  exact (Option.some.inj hsome).symm

namespace Diagnostic

/-- The finding with the severity of its rule. -/
def plain (d : Diagnostic) : Diagnostic :=
  .of d.rule d.message d.primary d.related

theorem cmp_eq_compareLex : cmp = compareLex
    (compareLex (compareOn primary) (compareLex (compareOn (fun d => d.rule.index))
      (compareOn message))) (compareOn related) := by
  funext a b
  rw [cmp, Location.cmpAll_eq_compareLex]
  rfl

instance : Std.TransCmp cmp := by
  rw [cmp_eq_compareLex]
  infer_instance

/-- Findings that compare equal differ in severity alone. -/
theorem plain_eq_of_cmp {a b : Diagnostic} (h : cmp a b = .eq) : a.plain = b.plain := by
  simp only [cmp, cmpBrief, Ordering.then_eq_eq, Location.cmpAll_eq_compareLex] at h
  obtain ⟨⟨hprimary, hrule, hmessage⟩, hrelated⟩ := h
  rw [plain, plain, Std.LawfulEqCmp.eq_of_compare hprimary,
    Rule.index_injective (Std.LawfulEqOrd.eq_of_compare hrule),
    Std.LawfulEqOrd.eq_of_compare hmessage, Std.LawfulEqCmp.eq_of_compare hrelated]

end Diagnostic

end Wiring
