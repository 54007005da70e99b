import Wiring.Scope.Blocks
import Wiring.Scope.States

/-!
# Flow of states

The states of one handle at the end of each block, as the least solution of the flow equations: a
block starts with the states that the blocks before it end with. The solution is reached in rounds
over the blocks. In each round a block's states are computed anew from those of the blocks before
it; as they never shrink and there are only three for each block, some round changes nothing.
-/

namespace Wiring

/-- The blocks of a procedure as states flow through them. -/
structure Flow where
  blocks : List Block
  /-- The blocks that can be reached, in order. -/
  order : List Nat
  /-- For each block, the reachable blocks that it may follow. -/
  preds : List (List Nat)
deriving Repr

namespace Flow

/-- The flow of a procedure. -/
def of (p : Procedure) : Flow :=
  ⟨p.blocks, p.order,
    (List.range p.blocks.length).map (fun b => p.order.filter (fun a => (p.targets a).contains b))⟩

/-- The events of block `b`. -/
def eventsOf (f : Flow) (b : Nat) : List Event :=
  match f.blocks[b]? with
  | some block => block.events
  | none => []

/-- The reachable blocks that block `b` may follow. -/
def predsOf (f : Flow) (b : Nat) : List Nat :=
  f.preds.getD b []

/-- The states at the end of block `b`. -/
def outOf (outs : List States) (b : Nat) : States :=
  outs.getD b .none

/-- The states at the start of block `b`. -/
def entry (f : Flow) (outs : List States) (b : Nat) : States :=
  (f.predsOf b).foldl (fun s a => s.union (outOf outs a)) .none

/-- The states at the end of block `b`, computed from the blocks before it. -/
def exit (f : Flow) (handle : String) (outs : List States) (b : Nat) : States :=
  States.run handle (f.entry outs b) (f.eventsOf b)

/-- The states of one block computed anew. -/
def update (f : Flow) (handle : String) (outs : List States) (b : Nat) : List States :=
  outs.set b (f.exit handle outs b)

/-- The states of the blocks computed anew, one after the other. -/
def sweep (f : Flow) (handle : String) (bs : List Nat) (outs : List States) : List States :=
  bs.foldl (f.update handle) outs

/-- A round over all blocks that can be reached. -/
def round (f : Flow) (handle : String) (outs : List States) : List States :=
  f.sweep handle f.order outs

/-- The number of states at the ends of all blocks. -/
def weight : List States → Nat
  | [] => 0
  | s :: outs => s.weight + weight outs

/-- Inclusion block by block. -/
def Below (a b : List States) : Prop :=
  a.length = b.length ∧ ∀ i, outOf a i ≤ outOf b i

/-- To compute a block anew takes nothing away. -/
def Growing (f : Flow) (handle : String) (outs : List States) : Prop :=
  ∀ b, b ∈ f.order → outOf outs b ≤ f.exit handle outs b

/-! ## Rounds only add states -/

theorem outOf_set (outs : List States) (b i : Nat) (s : States) :
    outOf (outs.set b s) i = if b = i ∧ i < outs.length then s else outOf outs i := by
  simp only [outOf, List.getD_eq_getElem?_getD, List.getElem?_set]
  by_cases hb : b = i
  · subst hb
    by_cases hl : b < outs.length <;> simp [hl]
  · simp [hb]

theorem Below.refl (a : List States) : Below a a :=
  ⟨rfl, fun _ => States.le_refl _⟩

theorem Below.trans {a b c : List States} (h : Below a b) (k : Below b c) : Below a c :=
  ⟨h.1.trans k.1, fun i => States.le_trans (h.2 i) (k.2 i)⟩

theorem entry_mono (f : Flow) {a b : List States} (h : Below a b) (i : Nat) :
    f.entry a i ≤ f.entry b i := by
  have go : ∀ (ps : List Nat) (s t : States), s ≤ t →
      ps.foldl (fun s p => s.union (outOf a p)) s ≤
        ps.foldl (fun s p => s.union (outOf b p)) t := by
    intro ps
    induction ps with
    | nil => exact fun _ _ h => h
    | cons p ps ih => exact fun s t hst => ih _ _ (States.union_le_union hst (h.2 p))
  exact go _ _ _ (States.le_refl _)

theorem exit_mono (f : Flow) (handle : String) {a b : List States} (h : Below a b) (i : Nat) :
    f.exit handle a i ≤ f.exit handle b i :=
  States.run_mono (f.entry_mono h i) _

theorem Growing.below_update {f : Flow} {handle : String} {outs : List States}
    (hg : f.Growing handle outs) {b : Nat} (hb : b ∈ f.order) :
    Below outs (f.update handle outs b) := by
  refine ⟨(List.length_set ..).symm, fun i => ?_⟩
  rw [update, outOf_set]
  split
  · rename_i hi
    rw [← hi.1]
    exact hg b hb
  · exact States.le_refl _

theorem Growing.update {f : Flow} {handle : String} {outs : List States}
    (hg : f.Growing handle outs) {b : Nat} (hb : b ∈ f.order) :
    f.Growing handle (f.update handle outs b) := by
  intro i hi
  have hm := f.exit_mono handle (hg.below_update hb) i
  refine States.le_trans ?_ hm
  rw [Flow.update, outOf_set]
  split
  · rename_i h
    rw [h.1]
    exact States.le_refl _
  · exact hg i hi

theorem Growing.sweep {f : Flow} {handle : String} {bs : List Nat} :
    ∀ {outs : List States}, f.Growing handle outs → (∀ b ∈ bs, b ∈ f.order) →
      f.Growing handle (f.sweep handle bs outs) ∧ Below outs (f.sweep handle bs outs) := by
  induction bs with
  | nil => exact fun hg _ => ⟨hg, Below.refl _⟩
  | cons b bs ih =>
    intro outs hg hbs
    have hb := hbs b List.mem_cons_self
    have h := ih (hg.update hb) (fun c hc => hbs c (List.mem_cons_of_mem _ hc))
    exact ⟨h.1, (hg.below_update hb).trans h.2⟩

theorem Growing.round {f : Flow} {handle : String} {outs : List States}
    (hg : f.Growing handle outs) : f.Growing handle (f.round handle outs) :=
  (hg.sweep (fun _ h => h)).1

theorem Growing.below_round {f : Flow} {handle : String} {outs : List States}
    (hg : f.Growing handle outs) : Below outs (f.round handle outs) :=
  (hg.sweep (fun _ h => h)).2

theorem below_cons {x y : States} {xs ys : List States} (h : Below (x :: xs) (y :: ys)) :
    x ≤ y ∧ Below xs ys :=
  ⟨h.2 0, Nat.succ.inj h.1, fun i => h.2 (i + 1)⟩

theorem weight_le_of_below : ∀ {a b : List States}, Below a b → weight a ≤ weight b
  | [], [], _ => Nat.le_refl _
  | [], _ :: _, h => nomatch h.1
  | _ :: _, [], h => nomatch h.1
  | x :: xs, y :: ys, h => by
    have hh := below_cons h
    have h1 := States.weight_mono hh.1
    have h2 := weight_le_of_below hh.2
    simp only [weight]
    omega

theorem eq_of_below_of_weight : ∀ {a b : List States}, Below a b → weight a = weight b → a = b
  | [], [], _, _ => rfl
  | [], _ :: _, h, _ => nomatch h.1
  | _ :: _, [], h, _ => nomatch h.1
  | x :: xs, y :: ys, h, hw => by
    have hh := below_cons h
    have h1 := States.weight_mono hh.1
    have h2 := weight_le_of_below hh.2
    simp only [weight] at hw
    rw [States.eq_of_weight_eq hh.1 (by omega), eq_of_below_of_weight hh.2 (by omega)]

theorem weight_le_length : ∀ a : List States, weight a ≤ 3 * a.length
  | [] => Nat.le_refl _
  | x :: xs => by
    have h1 := x.weight_le
    have h2 := weight_le_length xs
    simp only [weight, List.length_cons]
    omega

theorem outOf_replicate (n b : Nat) : outOf (List.replicate n .none) b = .none := by
  simp only [outOf, List.getD_eq_getElem?_getD, List.getElem?_replicate]
  split <;> rfl

theorem growing_replicate (f : Flow) (handle : String) (n : Nat) :
    f.Growing handle (List.replicate n .none) := by
  intro b _
  rw [outOf_replicate]
  exact States.none_le _

/-! ## The solution -/

/-- Rounds until one of them changes nothing. -/
def settle (f : Flow) (handle : String) (outs : List States) (hg : f.Growing handle outs) :
    List States :=
  if f.round handle outs = outs then outs
  else f.settle handle (f.round handle outs) hg.round
termination_by 3 * outs.length - weight outs
decreasing_by
  rename_i hne
  have hb := hg.below_round
  have h1 := weight_le_of_below hb
  have h2 := weight_le_length (f.round handle outs)
  have h3 : weight outs ≠ weight (f.round handle outs) :=
    fun h => hne (eq_of_below_of_weight hb h).symm
  rw [← hb.1] at h2 ⊢
  omega

/-- The states of a handle at the end of each block. -/
def solution (f : Flow) (handle : String) : List States :=
  f.settle handle (List.replicate f.blocks.length .none) (f.growing_replicate handle _)

end Flow

end Wiring
