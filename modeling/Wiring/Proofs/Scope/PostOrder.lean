import Mathlib.Data.List.Chain
import Mathlib.Logic.Relation
import Wiring.Proofs.Scope.Plan

/-!
# The order of blocks is depth first

The search leaves a block when it has looked at all its successors, and the order of blocks is that
in which they are left, backwards. While it goes on, the stack is a way from the entry: each block
on it is a successor of the one below. So a block that is left has the one below it still on the
stack, which is left later and therefore comes earlier in the order; and a successor that is still
on the stack when a block is left closes a cycle.

Results:
1. `Plan.Loop.after?_of_search?`: the search is a loop that ends, with a count of its turns.
2. `Blocks.DepthFirst.search`: what holds of the order when the stack is empty.
3. `Procedure.order_depthFirst`: the order starts with the entry, has a predecessor of each other
   block before it, and each block before its successors if there is no cycle.
-/

namespace Wiring

/-! ## Turns of the loop -/

namespace Plan

/-- What the search holds between two turns: a flag for each block, the blocks that have been
entered and not left, each with the number of the successor it looks at next, and the blocks that
have been left, the latest first. -/
structure Loop where
  visited : List Bool
  stack : List (Nat × Nat)
  left : List Nat

namespace Loop

/-- The entry is on the stack, and nothing else has been visited. -/
def start (p : Procedure) : Loop :=
  ⟨(List.replicate p.blocks.length false).set 0 true, [(0, 0)], []⟩

/-- One turn: the top of the stack is left if it has no more successors to look at, and else looks
at the next, which is entered unless it was visited. There is no turn without a top of the stack,
nor where a block or a flag is not there. -/
def turn? (p : Procedure) (l : Loop) : Option Loop :=
  match l.stack with
  | [] => none
  | (b, k) :: stack =>
    p.blocks[b]?.bind fun block =>
      match block.targets[k]? with
      | none => some ⟨l.visited, stack, b :: l.left⟩
      | some s =>
        l.visited[s]?.map fun seen =>
          if seen then ⟨l.visited, (b, k + 1) :: stack, l.left⟩
          else ⟨l.visited.set s true, (s, 0) :: (b, k + 1) :: stack, l.left⟩

/-- The loop after a number of turns, if there are so many. -/
def after? (p : Procedure) : Nat → Loop → Option Loop
  | 0, l => some l
  | n + 1, l => (turn? p l).bind (after? p n)

end Loop

/-- The turns that blocks take: one for each successor and one to leave the block. -/
def work (p : Procedure) : List Nat → Nat
  | [] => 0
  | b :: bs => (p.targets b).length + 1 + work p bs

/-- The successors that the blocks on the stack have looked at. -/
def looked : List (Nat × Nat) → Nat
  | [] => 0
  | (_, k) :: stack => k + looked stack

theorem Loop.after?_of_search? {p : Procedure} {visited : List Bool} {stack : List (Nat × Nat)}
    {left order : List Nat} (h : search? p visited stack left = some order)
    (hstack : ∀ e ∈ stack, e.2 ≤ (p.targets e.1).length) :
    ∃ turns visited', after? p turns ⟨visited, stack, left⟩ = some ⟨visited', [], order⟩ ∧
      turns + work p left + looked stack = work p order := by
  fun_induction search? p visited stack left with
  | case1 visited left =>
    obtain rfl := Option.some.inj h
    exact ⟨0, visited, rfl, Nat.zero_add _⟩
  | case2 visited left b k stack hb => cases h
  | case3 visited left b k stack block hb hk ih =>
    obtain ⟨hle, hrest⟩ := List.forall_mem_cons.1 hstack
    obtain ⟨turns, visited', hafter, hcount⟩ := ih h hrest
    refine ⟨turns + 1, visited', ?_, ?_⟩
    · simpa [after?, turn?, hb, hk] using hafter
    · have hge := List.getElem?_eq_none_iff.1 hk
      rw [← p.targets_of_getElem? hb] at hge
      simp only [work, looked] at hcount hle ⊢
      omega
  | case4 visited left b k stack block hb s hk hs => cases h
  | case5 visited left b k stack block hb s hk hs ih =>
    obtain ⟨-, hrest⟩ := List.forall_mem_cons.1 hstack
    have hlt := (List.getElem?_eq_some_iff.1 hk).1
    rw [← p.targets_of_getElem? hb] at hlt
    obtain ⟨turns, visited', hafter, hcount⟩ := ih h (List.forall_mem_cons.2 ⟨hlt, hrest⟩)
    refine ⟨turns + 1, visited', ?_, ?_⟩
    · simpa [after?, turn?, hb, hk, hs] using hafter
    · simp only [looked] at hcount ⊢
      omega
  | case6 visited left b k stack block hb s hk hs ih =>
    obtain ⟨-, hrest⟩ := List.forall_mem_cons.1 hstack
    have hlt := (List.getElem?_eq_some_iff.1 hk).1
    rw [← p.targets_of_getElem? hb] at hlt
    obtain ⟨turns, visited', hafter, hcount⟩ := ih h
      (List.forall_mem_cons.2 ⟨Nat.zero_le _, List.forall_mem_cons.2 ⟨hlt, hrest⟩⟩)
    refine ⟨turns + 1, visited', ?_, ?_⟩
    · simpa [after?, turn?, hb, hk, hs] using hafter
    · simp only [looked] at hcount ⊢
      omega

end Plan

/-! ## The stack is a way from the entry -/

namespace Procedure

/-- The one block may follow the other. -/
def Follows (p : Procedure) (a b : Nat) : Prop :=
  b ∈ p.targets a

/-- No block that can be reached leads back to itself. -/
def Acyclic (p : Procedure) : Prop :=
  ∀ b, p.Reachable b → ¬ Relation.TransGen p.Follows b b

end Procedure

namespace Blocks

open Relation (ReflTransGen)

/-- What the search keeps true beside `Searching`. The entry is at the bottom of the stack until it
is left, and each block on the stack follows the one below. Every block that has been left, but for
the entry, has a predecessor on the stack or before it among those left, and comes before its own
successors unless these lead back to it. -/
structure DepthFirst (p : Procedure) (seen : List Nat) (stack : List (Nat × List Nat))
    (left : List Nat) : Prop extends Searching p seen stack left where
  bottom : (left.reverse ++ stack.map Prod.fst).getLast? = some 0
  chain : (stack.map Prod.fst).IsChain (fun b a => p.Follows a b)
  parent : ∀ b ∈ left, b ≠ 0 →
    ∃ a, p.Follows a b ∧ (a ∈ stack.map Prod.fst ∨ [a, b].Sublist left)
  forward : ∀ a ∈ left, ∀ b, p.Follows a b →
    [a, b].Sublist left ∨ ReflTransGen p.Follows b a

namespace DepthFirst

variable {p : Procedure} {seen : List Nat} {stack : List (Nat × List Nat)} {left : List Nat}
  {b s : Nat} {ss : List Nat}

theorem start (h : 0 < p.blocks.length) : DepthFirst p [0] [(0, p.targets 0)] [] where
  toSearching := .start h
  bottom := rfl
  chain := .singleton 0
  parent _ hb := absurd hb List.not_mem_nil
  forward _ ha := absurd ha List.not_mem_nil

/-- From every block on a way there is a way to the last. -/
theorem reflTransGen_of_mem {bs : List Nat} {a b : Nat}
    (h : (b :: bs).IsChain (fun b a => p.Follows a b)) (ha : a ∈ b :: bs) :
    ReflTransGen p.Follows a b := by
  induction bs generalizing b with
  | nil =>
    rw [List.mem_singleton.1 ha]
  | cons c bs ih =>
    obtain ⟨hcb, hchain⟩ := List.isChain_cons_cons.1 h
    rcases List.mem_cons.1 ha with rfl | ha
    · exact .refl
    · exact (ih hchain ha).tail hcb

/-- The block below the top of the stack is a predecessor of the top; only the entry has none. -/
theorem exists_below (h : DepthFirst p seen ((b, []) :: stack) left) (hb : b ≠ 0) :
    ∃ a ∈ stack.map Prod.fst, p.Follows a b := by
  have hbottom := h.bottom
  have hchain := h.chain
  rw [List.map_cons] at hbottom hchain
  cases hstack : stack.map Prod.fst with
  | nil =>
    rw [hstack, List.getLast?_concat] at hbottom
    exact absurd (Option.some.inj hbottom) hb
  | cons a as =>
    rw [hstack] at hchain
    exact ⟨a, List.mem_cons_self, (List.isChain_cons_cons.1 hchain).1⟩

theorem leave (h : DepthFirst p seen ((b, []) :: stack) left) :
    DepthFirst p seen stack (b :: left) where
  toSearching := h.toSearching.leave
  bottom := by
    rw [List.reverse_cons, List.append_assoc]
    exact h.bottom
  chain := h.chain.tail
  parent c hc hne := by
    rcases List.mem_cons.1 hc with rfl | hleft
    · obtain ⟨a, ha, hac⟩ := h.exists_below hne
      exact ⟨a, hac, .inl ha⟩
    · obtain ⟨a, hac, ha⟩ := h.parent c hleft hne
      refine ⟨a, hac, ?_⟩
      rcases ha with ha | ha
      · rcases List.mem_cons.1 ha with rfl | ha
        · exact .inr ((List.singleton_sublist.2 hleft).cons_cons a)
        · exact .inl ha
      · exact .inr (ha.cons b)
  forward a ha t hat := by
    rcases List.mem_cons.1 ha with rfl | ha
    · have hseen : t ∈ seen := by
        rcases h.stack_done (a, []) List.mem_cons_self t hat with ht | ht
        · exact ht
        · exact absurd ht List.not_mem_nil
      rw [h.seen_iff, List.mem_append] at hseen
      rcases hseen with ht | ht
      · exact .inl ((List.singleton_sublist.2 ht).cons_cons a)
      · exact .inr (reflTransGen_of_mem h.chain ht)
    · exact (h.forward a ha t hat).imp_left (fun hlt => hlt.cons b)

theorem enter (h : DepthFirst p seen ((b, s :: ss) :: stack) left) (hs : s ∉ seen) :
    DepthFirst p (s :: seen) ((s, p.targets s) :: (b, ss) :: stack) left where
  toSearching := h.toSearching.enter hs
  bottom := by
    have hbottom := h.bottom
    simp only [List.map_cons, List.getLast?_append, List.getLast?_cons_cons] at hbottom ⊢
    exact hbottom
  chain := by
    have hbs : p.Follows b s := h.todo (b, s :: ss) List.mem_cons_self s List.mem_cons_self
    exact List.isChain_cons_cons.2 ⟨hbs, h.chain⟩
  parent c hc hne := by
    obtain ⟨a, hac, ha⟩ := h.parent c hc hne
    exact ⟨a, hac, ha.imp_left (List.mem_cons_of_mem s)⟩
  forward := h.forward

theorem skip (h : DepthFirst p seen ((b, s :: ss) :: stack) left) (hs : s ∈ seen) :
    DepthFirst p seen ((b, ss) :: stack) left where
  toSearching := h.toSearching.skip hs
  bottom := h.bottom
  chain := h.chain
  parent := h.parent
  forward := h.forward

/-- The search ends with the same true of its result. -/
theorem search (hp : p.InRange) (h : DepthFirst p seen stack left) :
    ∃ seen', DepthFirst p seen' []
      (Blocks.search p.blocks.length p.targets seen stack left) := by
  fun_induction Blocks.search p.blocks.length p.targets seen stack left with
  | case1 seen left => exact ⟨seen, h⟩
  | case2 seen left b stack ih => exact ih h.leave
  | case3 seen left b s ss stack hs ih =>
    refine ih (h.enter (fun hm => ?_))
    exact absurd (List.contains_iff_mem.2 hm) (by rw [hs.2]; exact Bool.false_ne_true)
  | case4 seen left b s ss stack hs ih =>
    have hlt : s < p.blocks.length :=
      hp b s (h.todo (b, s :: ss) List.mem_cons_self s List.mem_cons_self)
    refine ih (h.skip ?_)
    rw [← List.contains_iff_mem]
    exact (Bool.not_eq_false _).mp (fun hf => hs ⟨hlt, hf⟩)

end DepthFirst

end Blocks

/-! ## The order -/

namespace Procedure

variable {p : Procedure}

theorem exists_depthFirst (hne : p.blocks ≠ []) (hp : p.InRange) :
    ∃ seen, Blocks.DepthFirst p seen [] p.order := by
  have hempty : ¬ p.blocks.isEmpty = true := fun h => hne (List.isEmpty_iff.1 h)
  unfold order
  rw [if_neg hempty]
  exact (Blocks.DepthFirst.start (List.length_pos_iff.2 hne)).search hp

/-- The loop comes to its end after as many turns as the blocks in the order take. -/
theorem exists_after? (hne : p.blocks ≠ []) (hp : p.InRange) :
    ∃ visited, Plan.Loop.after? p (Plan.work p p.order) (.start p) =
      some ⟨visited, [], p.order⟩ := by
  have hpos : 0 < p.blocks.length := List.length_pos_iff.2 hne
  have hsearch : Plan.search? p (Plan.Loop.start p).visited [(0, 0)] [] = some p.order := by
    have h := Plan.order?_eq hp
    unfold Plan.order? at h
    rw [if_neg (fun h => hne (List.isEmpty_iff.1 h))] at h
    simpa [Plan.Loop.start, hpos] using h
  obtain ⟨turns, visited, hafter, hcount⟩ := Plan.Loop.after?_of_search? hsearch (by simp)
  refine ⟨visited, ?_⟩
  rw [← hcount]
  exact hafter

/-- The search of a procedure with at least one block, of which every successor is a block, ends and
gives its order. The order lists the blocks that can be reached, each once. It starts with the
entry, some predecessor of each other block stands before it, and if there is no cycle, every block
stands before all its successors. -/
theorem order_depthFirst (hne : p.blocks ≠ []) (hp : p.InRange) :
    (∃ l, Plan.Loop.after? p (Plan.work p p.order) (.start p) = some l ∧ l.stack = [] ∧
      l.left = p.order) ∧
    p.order.Nodup ∧ (∀ b, b ∈ p.order ↔ p.Reachable b) ∧ p.order.head? = some 0 ∧
    (∀ b ∈ p.order, b ≠ 0 → ∃ a, b ∈ p.targets a ∧ [a, b].Sublist p.order) ∧
    (p.Acyclic → ∀ a ∈ p.order, ∀ b ∈ p.targets a, [a, b].Sublist p.order) := by
  obtain ⟨visited, hafter⟩ := exists_after? hne hp
  obtain ⟨seen, h⟩ := exists_depthFirst hne hp
  refine ⟨⟨_, hafter, rfl, rfl⟩, nodup_order hp, fun b => mem_order_iff hp, ?_, ?_, ?_⟩
  · have hbottom := h.bottom
    rwa [List.map_nil, List.append_nil, List.getLast?_reverse] at hbottom
  · intro b hb hzero
    obtain ⟨a, hab, ha⟩ := h.parent b hb hzero
    exact ⟨a, hab, ha.resolve_left List.not_mem_nil⟩
  · intro hacyclic a ha b hab
    refine (h.forward a ha b hab).resolve_right (fun hback => ?_)
    exact hacyclic a ((mem_order_iff hp).1 ha) (Relation.TransGen.head' hab hback)

/-- The blocks below a number that has no successors beyond it are all that can be reached. -/
theorem Reachable.lt {n b : Nat} (hb : p.Reachable b) (hn : 0 < n)
    (h : ∀ a < n, ∀ t ∈ p.targets a, t < n) : b < n := by
  obtain ⟨bs, hw⟩ := hb
  induction hw with
  | entry _ => exact hn
  | step _ hc ih => exact h _ ih _ hc

/-- Blocks that are numbered along the successors, from the entry on, make no cycle. -/
theorem acyclic_of_increasing {n : Nat} (hn : 0 < n)
    (h : ∀ a < n, ∀ t ∈ p.targets a, a < t ∧ t < n) : p.Acyclic := by
  intro b hb hcycle
  have hbound : b < n := hb.lt hn (fun a ha t ht => (h a ha t ht).2)
  have hlt : ∀ c, Relation.TransGen p.Follows b c → b < c ∧ c < n := by
    intro c hc
    induction hc with
    | single hbc => exact h b hbound _ hbc
    | tail _ hcd ih =>
      obtain ⟨hlt, hbound⟩ := h _ ih.2 _ hcd
      exact ⟨Nat.lt_trans ih.1 hlt, hbound⟩
  exact Nat.lt_irrefl b (hlt b hcycle).1

/-- Two branches that meet again, beside a block that is never reached and may repeat itself. -/
def branching : Procedure :=
  ⟨"Run", false, [⟨[], [1, 2]⟩, ⟨[], [3]⟩, ⟨[], [3]⟩, ⟨[], []⟩, ⟨[], [4, 0]⟩]⟩

/-- The block where the branches meet comes after both. -/
theorem branching_order :
    branching.blocks ≠ [] ∧ branching.InRange ∧ branching.Acyclic ∧
      branching.order.head? = some 0 ∧ 4 ∉ branching.order ∧
      [1, 3].Sublist branching.order ∧ [2, 3].Sublist branching.order := by
  have hne : branching.blocks ≠ [] := List.cons_ne_nil _ _
  have hp : branching.InRange := inRange_of_malformed?_eq_none (by decide)
  have hacyclic : branching.Acyclic := acyclic_of_increasing (n := 4) (by decide) (by decide)
  obtain ⟨-, -, hmem, hhead, -, hbefore⟩ := order_depthFirst hne hp
  have hentry : branching.Reachable 0 := ⟨[], .entry (by decide)⟩
  have hone : 1 ∈ branching.order := (hmem 1).2 (hentry.step (by decide))
  have htwo : 2 ∈ branching.order := (hmem 2).2 (hentry.step (by decide))
  have hfour : 4 ∉ branching.order := fun h =>
    absurd (((hmem 4).1 h).lt (n := 4) (by decide) (by decide)) (by decide)
  exact ⟨hne, hp, hacyclic, hhead, hfour, hbefore hacyclic 1 hone 3 (by decide),
    hbefore hacyclic 2 htwo 3 (by decide)⟩

end Procedure

end Wiring
