import Wiring.Scope.Report

/-!
# Reachable blocks

A walk goes from block to block along successors, starting at the entry. The search of a procedure
lists exactly the blocks to which some walk leads, each of them once.

Results:
1. `Procedure.nodup_order`: no block is listed twice.
2. `Procedure.mem_order_iff`: a block is listed iff a walk leads to it.
-/

namespace Wiring

namespace Procedure

/-- `p.Walk bs b`: a way from the entry passes through the blocks `bs`, in this order, and then
stands before block `b`. -/
inductive Walk (p : Procedure) : List Nat → Nat → Prop
  | entry : 0 < p.blocks.length → Walk p [] 0
  | step {bs : List Nat} {b c : Nat} : Walk p bs b → c ∈ p.targets b → Walk p (bs ++ [b]) c

/-- Some walk leads to block `b`. -/
def Reachable (p : Procedure) (b : Nat) : Prop :=
  ∃ bs, p.Walk bs b

/-- Every successor is a block. -/
def InRange (p : Procedure) : Prop :=
  ∀ b, ∀ t ∈ p.targets b, t < p.blocks.length

theorem Reachable.step {p : Procedure} {b c : Nat} (h : p.Reachable b) (hc : c ∈ p.targets b) :
    p.Reachable c := by
  obtain ⟨bs, hw⟩ := h
  exact ⟨bs ++ [b], hw.step hc⟩

theorem inRange_of_malformed?_eq_none {p : Procedure} (h : p.malformed? = none) : p.InRange := by
  intro b t ht
  rw [targets] at ht
  split at ht
  · next block hb =>
    have hmem : (block, b) ∈ p.blocks.zipIdx := List.mem_zipIdx_iff_getElem?.2 hb
    have hnone := List.findSome?_eq_none_iff.1 h (block, b) hmem
    simp only [Option.map_eq_none_iff, List.find?_eq_none, decide_eq_true_eq] at hnone
    exact Nat.lt_of_not_le (hnone t ht)
  · exact absurd ht List.not_mem_nil

theorem malformed?_eq_none_of_inRange {p : Procedure} (hp : p.InRange) : p.malformed? = none := by
  refine List.findSome?_eq_none_iff.2 (fun ⟨block, b⟩ hmem => ?_)
  have htargets : p.targets b = block.targets := by
    unfold targets
    rw [List.mem_zipIdx_iff_getElem?.1 hmem]
  simp only [Option.map_eq_none_iff, List.find?_eq_none, decide_eq_true_eq]
  exact fun t ht => Nat.not_le_of_lt (hp b t (htargets ▸ ht))

theorem Walk.lt_length {p : Procedure} (hp : p.InRange) {bs : List Nat} {b : Nat}
    (h : p.Walk bs b) : b < p.blocks.length := by
  cases h with
  | entry h => exact h
  | step _ hc => exact hp _ _ hc

end Procedure

/-! ## The search -/

namespace Blocks

/-- What the search keeps true. Every block seen has been left or is on the stack; a block that has
been left has all its successors seen, and one on the stack all but those it still has to look at.
-/
structure Searching (p : Procedure) (seen : List Nat) (stack : List (Nat × List Nat))
    (left : List Nat) : Prop where
  nodup : (left ++ stack.map Prod.fst).Nodup
  seen_iff : ∀ b, b ∈ seen ↔ b ∈ left ++ stack.map Prod.fst
  entry : 0 ∈ seen
  reachable : ∀ b ∈ seen, p.Reachable b
  left_done : ∀ b ∈ left, ∀ t ∈ p.targets b, t ∈ seen
  todo : ∀ e ∈ stack, ∀ t ∈ e.2, t ∈ p.targets e.1
  stack_done : ∀ e ∈ stack, ∀ t ∈ p.targets e.1, t ∈ seen ∨ t ∈ e.2

namespace Searching

variable {p : Procedure} {seen : List Nat} {stack : List (Nat × List Nat)} {left : List Nat}
  {b s : Nat} {ss : List Nat}

theorem start (h : 0 < p.blocks.length) : Searching p [0] [(0, p.targets 0)] [] where
  nodup := by simp
  seen_iff b := by simp
  entry := by simp
  reachable b hb := by
    rw [List.mem_singleton] at hb
    exact hb ▸ ⟨[], .entry h⟩
  left_done b hb := absurd hb List.not_mem_nil
  todo e he t ht := by
    rw [List.mem_singleton] at he
    subst he
    exact ht
  stack_done e he t ht := by
    rw [List.mem_singleton] at he
    subst he
    exact Or.inr ht

/-- A block without successors left to look at is left. -/
theorem leave (h : Searching p seen ((b, []) :: stack) left) :
    Searching p seen stack (b :: left) where
  nodup := by
    have hn := h.nodup
    simp only [List.map_cons] at hn
    exact (List.perm_middle.nodup_iff).1 hn
  seen_iff c := by
    rw [h.seen_iff c]
    simp only [List.map_cons]
    exact List.perm_middle.mem_iff
  entry := h.entry
  reachable := h.reachable
  left_done c hc t ht := by
    rcases List.mem_cons.1 hc with rfl | hc
    · rcases h.stack_done (c, []) List.mem_cons_self t ht with ht | ht
      · exact ht
      · exact absurd ht List.not_mem_nil
    · exact h.left_done c hc t ht
  todo e he := h.todo e (List.mem_cons_of_mem _ he)
  stack_done e he := h.stack_done e (List.mem_cons_of_mem _ he)

/-- A successor that has not been seen is entered. -/
theorem enter (h : Searching p seen ((b, s :: ss) :: stack) left) (hs : s ∉ seen) :
    Searching p (s :: seen) ((s, p.targets s) :: (b, ss) :: stack) left where
  nodup := by
    have hn := h.nodup
    rw [h.seen_iff] at hs
    simp only [List.map_cons] at hn hs ⊢
    exact (List.perm_middle.nodup_iff).2 (List.nodup_cons.2 ⟨hs, hn⟩)
  seen_iff c := by
    rw [List.mem_cons, h.seen_iff c]
    exact (List.perm_middle.mem_iff.trans List.mem_cons).symm
  entry := List.mem_cons_of_mem _ h.entry
  reachable c hc := by
    rcases List.mem_cons.1 hc with rfl | hc
    · have hb : b ∈ seen := (h.seen_iff b).2 (by simp)
      exact (h.reachable b hb).step
        (h.todo (b, c :: ss) List.mem_cons_self c List.mem_cons_self)
    · exact h.reachable c hc
  left_done c hc t ht := List.mem_cons_of_mem _ (h.left_done c hc t ht)
  todo e he t ht := by
    rcases List.mem_cons.1 he with rfl | he
    · exact ht
    · rcases List.mem_cons.1 he with rfl | he
      · exact h.todo (b, s :: ss) List.mem_cons_self t (List.mem_cons_of_mem _ ht)
      · exact h.todo e (List.mem_cons_of_mem _ he) t ht
  stack_done e he t ht := by
    rcases List.mem_cons.1 he with rfl | he
    · exact Or.inr ht
    · rcases List.mem_cons.1 he with rfl | he
      · rcases h.stack_done (b, s :: ss) List.mem_cons_self t ht with ht | ht
        · exact Or.inl (List.mem_cons_of_mem _ ht)
        · rcases List.mem_cons.1 ht with rfl | ht
          · exact Or.inl List.mem_cons_self
          · exact Or.inr ht
      · exact (h.stack_done e (List.mem_cons_of_mem _ he) t ht).imp_left (List.mem_cons_of_mem _)

/-- A successor that has been seen is passed over. -/
theorem skip (h : Searching p seen ((b, s :: ss) :: stack) left) (hs : s ∈ seen) :
    Searching p seen ((b, ss) :: stack) left where
  nodup := h.nodup
  seen_iff := h.seen_iff
  entry := h.entry
  reachable := h.reachable
  left_done := h.left_done
  todo e he t ht := by
    rcases List.mem_cons.1 he with rfl | he
    · exact h.todo (b, s :: ss) List.mem_cons_self t (List.mem_cons_of_mem _ ht)
    · exact h.todo e (List.mem_cons_of_mem _ he) t ht
  stack_done e he t ht := by
    rcases List.mem_cons.1 he with rfl | he
    · rcases h.stack_done (b, s :: ss) List.mem_cons_self t ht with ht | ht
      · exact Or.inl ht
      · rcases List.mem_cons.1 ht with rfl | ht
        · exact Or.inl hs
        · exact Or.inr ht
    · exact h.stack_done e (List.mem_cons_of_mem _ he) t ht

/-- When the stack is empty, the blocks left are closed under successors. -/
theorem mem_left_iff (h : Searching p seen [] left) (b : Nat) : b ∈ left ↔ p.Reachable b := by
  have hseen : ∀ c, c ∈ seen ↔ c ∈ left := by
    intro c
    rw [h.seen_iff c, List.map_nil, List.append_nil]
  constructor
  · exact fun hb => h.reachable b ((hseen b).2 hb)
  · rintro ⟨bs, hw⟩
    induction hw with
    | entry _ => exact (hseen 0).1 h.entry
    | step _ hc ih => exact (hseen _).1 (h.left_done _ ih _ hc)

theorem search (hp : p.InRange) (h : Searching p seen stack left) :
    (Blocks.search p.blocks.length p.targets seen stack left).Nodup ∧
      ∀ b, b ∈ Blocks.search p.blocks.length p.targets seen stack left ↔ p.Reachable b := by
  -- the invariant is carried along the recursion of the search itself
  fun_induction Blocks.search p.blocks.length p.targets seen stack left with
  | case1 seen left =>
    have hn := h.nodup
    rw [List.map_nil, List.append_nil] at hn
    exact ⟨hn, h.mem_left_iff⟩
  | case2 seen left b stack ih => exact ih h.leave
  | case3 seen left b s ss stack hs ih =>
    have hs' : s ∉ seen := by
      intro hm
      have := hs.2
      rw [List.contains_iff_mem.2 hm] at this
      exact Bool.noConfusion this
    exact ih (h.enter hs')
  | case4 seen left b s ss stack hs ih =>
    have hlt : s < p.blocks.length :=
      hp b s (h.todo (b, s :: ss) List.mem_cons_self s List.mem_cons_self)
    have hs' : s ∈ seen := by
      rw [← List.contains_iff_mem]
      exact (Bool.not_eq_false _).mp (fun hf => hs ⟨hlt, hf⟩)
    exact ih (h.skip hs')

end Searching

end Blocks

/-! ## The order of blocks -/

namespace Procedure

theorem nodup_order {p : Procedure} (hp : p.InRange) : p.order.Nodup := by
  rw [order]
  split
  · exact List.nodup_nil
  · next h =>
    have hpos : 0 < p.blocks.length := List.length_pos_iff.2 (fun he => h (by rw [he]; rfl))
    exact ((Blocks.Searching.start hpos).search hp).1

theorem mem_order_iff {p : Procedure} (hp : p.InRange) {b : Nat} :
    b ∈ p.order ↔ p.Reachable b := by
  rw [order]
  split
  · next h =>
    have hlen : p.blocks.length = 0 := by rw [List.isEmpty_iff.1 h]; rfl
    constructor
    · exact fun hb => absurd hb List.not_mem_nil
    · rintro ⟨bs, hw⟩
      exact absurd (hw.lt_length hp) (by omega)
  · next h =>
    have hpos : 0 < p.blocks.length := List.length_pos_iff.2 (fun he => h (by rw [he]; rfl))
    exact ((Blocks.Searching.start hpos).search hp).2 b

end Procedure

end Wiring
