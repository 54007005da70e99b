import Wiring.Trace

/-!
# The order of blocks

The blocks that can be reached from the entry, each before the blocks that are first reached through
it: the order in which a depth-first search leaves them, backwards.
-/

namespace Wiring

namespace Procedure

/-- The blocks that may follow block `b`. -/
def targets (p : Procedure) (b : Nat) : List Nat :=
  match p.blocks[b]? with
  | some block => block.targets
  | none => []

end Procedure

namespace Blocks

/-- The number of blocks below `n` that have not been seen. -/
def unseen (n : Nat) (seen : List Nat) : Nat :=
  (List.range n).countP (fun b => !seen.contains b)

/-- The work left on the stack: the blocks on it and the successors they still have to look at. -/
def pending : List (Nat × List Nat) → Nat
  | [] => 0
  | (_, ss) :: stack => ss.length + 1 + pending stack

theorem countP_lt {p q : Nat → Bool} {xs : List Nat} {x : Nat} (hx : x ∈ xs)
    (hpq : ∀ y, p y → q y) (hq : q x) (hp : p x = false) : xs.countP p < xs.countP q := by
  induction xs with
  | nil => exact nomatch hx
  | cons y ys ih =>
    have hle : ys.countP p ≤ ys.countP q := List.countP_mono_left (fun z _ => hpq z)
    rw [List.countP_cons, List.countP_cons]
    rcases List.mem_cons.1 hx with rfl | hx
    · simp only [hq, hp, if_true]
      simp only [Bool.false_eq_true, if_false]
      omega
    · have := ih hx
      cases hpy : p y with
      | false =>
        simp only [Bool.false_eq_true, if_false]
        split <;> omega
      | true =>
        rw [hpq y hpy]
        simp only [if_true]
        omega

theorem unseen_lt {n b : Nat} {seen : List Nat} (hb : b < n) (hs : seen.contains b = false) :
    unseen n (b :: seen) < unseen n seen := by
  refine countP_lt (List.mem_range.2 hb) (fun y hy => ?_) ?_ ?_
  · simp only [List.contains_cons, Bool.not_or, Bool.and_eq_true] at hy
    exact hy.2
  · simp only [hs, Bool.not_false]
  · simp only [List.contains_cons, beq_self_eq_true, Bool.true_or, Bool.not_true]

/-- The search. The stack holds the blocks that have been entered and not left, each with the
successors it still has to look at; blocks that have been left are in `left`, the latest first. -/
def search (n : Nat) (targets : Nat → List Nat) (seen : List Nat)
    (stack : List (Nat × List Nat)) (left : List Nat) : List Nat :=
  match stack with
  | [] => left
  | (b, []) :: stack => search n targets seen stack (b :: left)
  | (b, s :: ss) :: stack =>
    if s < n ∧ seen.contains s = false then
      search n targets (s :: seen) ((s, targets s) :: (b, ss) :: stack) left
    else search n targets seen ((b, ss) :: stack) left
termination_by (unseen n seen, pending stack)
decreasing_by
  · apply Prod.Lex.right
    simp only [pending]
    omega
  · rename_i h
    exact Prod.Lex.left _ _ (unseen_lt h.1 h.2)
  · apply Prod.Lex.right
    simp only [pending, List.length_cons]
    omega

end Blocks

namespace Procedure

/-- The blocks that can be reached from block 0, in order. -/
def order (p : Procedure) : List Nat :=
  if p.blocks.isEmpty then []
  else Blocks.search p.blocks.length p.targets [0] [(0, p.targets 0)] []

end Procedure

end Wiring
