import Wiring.Proofs.Scope.Walks

/-!
# Rounds over the blocks

A round computes every block anew and overwrites what was there, yet from one round to the next the
states at the end of a block only grow. There are three of them for each block, so that a procedure
of `n` blocks has settled after `3 * n` rounds, whatever the handle.

Results:
1. `Flow.below_rounds`: later rounds have all the states of earlier ones.
2. `Flow.rounds_eq_solution`: after `3 * n` rounds the states are the solution.
-/

namespace Wiring

namespace Flow

theorem sweep_eq_self {f : Flow} {handle : String} {outs : List States} {bs : List Nat}
    (h : ∀ b ∈ bs, f.update handle outs b = outs) : f.sweep handle bs outs = outs := by
  induction bs with
  | nil => rfl
  | cons b bs ih =>
    obtain ⟨hb, hbs⟩ := List.forall_mem_cons.1 h
    rw [sweep, List.foldl_cons, hb]
    exact ih hbs

/-- A round changes nothing iff no block does. -/
theorem Growing.round_eq_self_iff {f : Flow} {handle : String} {outs : List States}
    (hg : f.Growing handle outs) :
    f.round handle outs = outs ↔ ∀ b ∈ f.order, f.update handle outs b = outs :=
  ⟨hg.update_eq_of_sweep_eq (fun _ h => h), sweep_eq_self⟩

/-- The states at the ends of the blocks after `k` rounds. -/
def rounds (f : Flow) (handle : String) : Nat → List States
  | 0 => List.replicate f.blocks.length .none
  | k + 1 => f.round handle (f.rounds handle k)

section Rounds

variable (f : Flow) (handle : String)

theorem growing_rounds (k : Nat) : f.Growing handle (f.rounds handle k) := by
  induction k with
  | zero => exact f.growing_replicate handle _
  | succ k ih => exact ih.round

theorem below_rounds_succ (k : Nat) : Below (f.rounds handle k) (f.rounds handle (k + 1)) :=
  (f.growing_rounds handle k).below_round

theorem below_rounds {k l : Nat} (h : k ≤ l) : Below (f.rounds handle k) (f.rounds handle l) := by
  induction h with
  | refl => exact Below.refl _
  | step _ ih => exact ih.trans (f.below_rounds_succ handle _)

theorem length_rounds (k : Nat) : (f.rounds handle k).length = f.blocks.length := by
  rw [← (f.below_rounds handle (Nat.zero_le k)).1, rounds, List.length_replicate]

/-- As long as the rounds have not settled, each of them adds a state. -/
theorem settled_or_le_weight (k : Nat) :
    (∃ j < k, f.round handle (f.rounds handle j) = f.rounds handle j) ∨
      k ≤ weight (f.rounds handle k) := by
  induction k with
  | zero => exact Or.inr (Nat.zero_le _)
  | succ k ih =>
    rcases ih with ⟨j, hj, hset⟩ | hle
    · exact Or.inl ⟨j, Nat.lt_succ_of_lt hj, hset⟩
    · by_cases hset : f.round handle (f.rounds handle k) = f.rounds handle k
      · exact Or.inl ⟨k, Nat.lt_succ_self k, hset⟩
      · refine Or.inr ?_
        have hbelow : Below (f.rounds handle k) (f.round handle (f.rounds handle k)) :=
          f.below_rounds_succ handle k
        have hweight := weight_le_of_below hbelow
        have hne : weight (f.rounds handle k) ≠ weight (f.round handle (f.rounds handle k)) :=
          fun h => hset (eq_of_below_of_weight hbelow h).symm
        rw [rounds]
        omega

theorem exists_settled :
    ∃ k ≤ 3 * f.blocks.length, f.round handle (f.rounds handle k) = f.rounds handle k := by
  have hbound := weight_le_length (f.rounds handle (3 * f.blocks.length + 1))
  rw [length_rounds] at hbound
  rcases f.settled_or_le_weight handle (3 * f.blocks.length + 1) with ⟨j, hj, hset⟩ | hle
  · exact ⟨j, Nat.le_of_lt_succ hj, hset⟩
  · exact absurd (Nat.le_trans hle hbound) (Nat.not_succ_le_self _)

/-- The solution is what some number of rounds leaves. -/
theorem exists_solution_eq_rounds : ∃ k, f.solution handle = f.rounds handle k := by
  have hround : ∀ outs, f.Growing handle outs → (∃ k, outs = f.rounds handle k) →
      ∃ k, f.round handle outs = f.rounds handle k := by
    rintro _ _ ⟨k, rfl⟩
    exact ⟨k + 1, rfl⟩
  exact f.settle_induction handle hround _ _ ⟨0, rfl⟩

variable {f handle}

/-- After a round that changes nothing no round changes anything. -/
theorem rounds_eq_of_settled {k : Nat}
    (hk : f.round handle (f.rounds handle k) = f.rounds handle k) {l : Nat} (hl : k ≤ l) :
    f.rounds handle l = f.rounds handle k := by
  induction hl with
  | refl => rfl
  | step _ ih => rw [rounds, ih, hk]

theorem rounds_eq_solution {l : Nat} (hl : 3 * f.blocks.length ≤ l) :
    f.rounds handle l = f.solution handle := by
  obtain ⟨j, hj, hset⟩ := f.exists_settled handle
  obtain ⟨k, hk⟩ := f.exists_solution_eq_rounds handle
  have hset' : f.round handle (f.rounds handle k) = f.rounds handle k := by
    rw [← hk]
    exact f.round_settle handle _ _
  -- both are what the rounds leave from some number on
  have hleft : f.rounds handle (max k l) = f.rounds handle l := by
    rw [rounds_eq_of_settled hset (Nat.le_trans hj (Nat.le_trans hl (Nat.le_max_right k l))),
      rounds_eq_of_settled hset (Nat.le_trans hj hl)]
  rw [← hleft, rounds_eq_of_settled hset' (Nat.le_max_left k l), hk]

end Rounds

end Flow

end Wiring
