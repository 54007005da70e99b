import Wiring.Proofs.Scope.Reachable

/-!
# States along walks

A walk leaves a handle in the states that the events of its blocks put it in, one after the other.
The flow equations join states where walks meet. Nothing is lost or made up by that: before each
event of a block that can be reached, the solution holds exactly the states that single walks
leave.

Results:
1. `Flow.outOf_solution`: the solution satisfies the flow equations.
2. `Flow.has_run_entry_iff`: a state is possible at a point of a block iff some walk to that point
   leaves the handle in it.
-/

namespace Wiring

/-- One of the states that a handle may be in. -/
inductive Phase where
  | created
  | disposed
  | escaped
deriving DecidableEq, Repr

namespace States

/-- Whether the state is in the set. -/
def has (s : States) : Phase → Bool
  | .created => s.created
  | .disposed => s.disposed
  | .escaped => s.escaped

@[simp] theorem has_created (s : States) : s.has .created = s.created := rfl

@[simp] theorem has_disposed (s : States) : s.has .disposed = s.disposed := rfl

@[simp] theorem has_escaped (s : States) : s.has .escaped = s.escaped := rfl

@[simp] theorem has_none (x : Phase) : States.none.has x = false := by
  cases x <;> rfl

@[simp] theorem has_union (a b : States) (x : Phase) :
    (a.union b).has x = (a.has x || b.has x) := by
  cases x <;> rfl

theorem le_iff_has {a b : States} : a ≤ b ↔ ∀ x, a.has x → b.has x := by
  constructor
  · rintro ⟨hc, hd, he⟩ x
    cases x with
    | created => exact hc
    | disposed => exact hd
    | escaped => exact he
  · exact fun h => ⟨h .created, h .disposed, h .escaped⟩

theorem union_none (s : States) : s.union none = s := by
  cases s
  simp [union, none]

theorem eq_of_has_iff {a b : States} (h : ∀ x, a.has x ↔ b.has x) : a = b := by
  cases a with
  | mk c d e =>
    cases b with
    | mk c' d' e' =>
      obtain rfl : c = c' := Bool.eq_iff_iff.2 (h .created)
      obtain rfl : d = d' := Bool.eq_iff_iff.2 (h .disposed)
      obtain rfl : e = e' := Bool.eq_iff_iff.2 (h .escaped)
      rfl

section Family

variable {ι : Type} [Nonempty ι] {handle : String}

/-- An event makes no state out of several sets that it does not make out of one of them. The family
must not be empty, since disposal makes a state out of none. -/
theorem has_after_of_family {s : States} {F : ι → States}
    (h : ∀ x, s.has x → ∃ i, (F i).has x) (e : Event) (x : Phase)
    (hx : (after handle s e).has x) : ∃ i, (after handle (F i) e).has x := by
  obtain ⟨i⟩ := ‹Nonempty ι›
  cases e with
  | create n _ _ _ _ =>
    simp only [after] at hx ⊢
    split at hx
    · next hn => exact ⟨i, by rw [if_pos hn]; exact hx⟩
    · next hn => simpa only [if_neg hn] using h x hx
  | dispose n _ =>
    simp only [after] at hx ⊢
    split at hx
    · next hn =>
      simp only [if_pos hn]
      -- disposal makes its state of any member, and of the rest keeps what one of them has
      cases x with
      | created => exact Bool.noConfusion hx
      | disposed => exact ⟨i, rfl⟩
      | escaped => exact h .escaped hx
    · next hn => simpa only [if_neg hn] using h x hx
  | resolve _ _ _ => exact h x hx
  | escape v _ _ =>
    simp only [after] at hx ⊢
    split at hx
    · next hv => exact ⟨i, by rw [if_pos hv]; exact hx⟩
    · next hv => simpa only [if_neg hv] using h x hx
  | use _ _ => exact h x hx

theorem has_run_of_family {s : States} {F : ι → States}
    (h : ∀ x, s.has x → ∃ i, (F i).has x) (es : List Event) (x : Phase)
    (hx : (run handle s es).has x) : ∃ i, (run handle (F i) es).has x := by
  induction es generalizing s F with
  | nil => exact h x hx
  | cons e es ih => exact ih (has_after_of_family h e) hx

end Family

theorem run_append (handle : String) (s : States) (es es' : List Event) :
    run handle s (es ++ es') = run handle (run handle s es) es' :=
  List.foldl_append

end States

namespace Procedure

/-- The events of block `b`. -/
def eventsIn (p : Procedure) (b : Nat) : List Event :=
  (Flow.of p).eventsOf b

/-- The events of the blocks in turn. -/
def eventsAlong (p : Procedure) (bs : List Nat) : List Event :=
  bs.flatMap p.eventsIn

theorem eventsAlong_concat (p : Procedure) (bs : List Nat) (b : Nat) :
    p.eventsAlong (bs ++ [b]) = p.eventsAlong bs ++ p.eventsIn b := by
  rw [eventsAlong, List.flatMap_append, List.flatMap_singleton]
  rfl

end Procedure

/-! ## The solution satisfies the flow equations -/

namespace Flow

theorem Below.antisymm {a b : List States} (h : Below a b) (k : Below b a) : a = b :=
  eq_of_below_of_weight h (Nat.le_antisymm (weight_le_of_below h) (weight_le_of_below k))

/-- A sweep that ends where it began has changed nothing on the way. -/
theorem Growing.update_eq_of_sweep_eq {f : Flow} {handle : String} {bs : List Nat} :
    ∀ {outs : List States}, f.Growing handle outs → (∀ b ∈ bs, b ∈ f.order) →
      f.sweep handle bs outs = outs → ∀ b ∈ bs, f.update handle outs b = outs := by
  induction bs with
  | nil => exact fun _ _ _ b hb => absurd hb List.not_mem_nil
  | cons a bs ih =>
    intro outs hg hbs heq b hb
    have ha := hbs a List.mem_cons_self
    have hbs' : ∀ b ∈ bs, b ∈ f.order := fun b hb => hbs b (List.mem_cons_of_mem _ hb)
    -- the first update only adds states, and the rest of the sweep cannot take them back
    have hup : Below outs (f.update handle outs a) := hg.below_update ha
    have hback : Below (f.update handle outs a) outs := by
      have := ((hg.update ha).sweep hbs').2
      rwa [show f.sweep handle bs (f.update handle outs a) = outs from heq] at this
    have hsame : f.update handle outs a = outs := hback.antisymm hup
    rcases List.mem_cons.1 hb with rfl | hb
    · exact hsame
    · refine ih hg hbs' ?_ b hb
      have : f.sweep handle bs (f.update handle outs a) = outs := heq
      rwa [hsame] at this

theorem round_settle (f : Flow) (handle : String) (outs : List States)
    (hg : f.Growing handle outs) :
    f.round handle (f.settle handle outs hg) = f.settle handle outs hg := by
  fun_induction settle f handle outs hg with
  | case1 outs hg heq => exact heq
  | case2 outs hg hne ih => exact ih

/-- What holds at first and is kept by every round holds of the settled states. -/
theorem settle_induction (f : Flow) (handle : String) {P : List States → Prop}
    (hround : ∀ outs, f.Growing handle outs → P outs → P (f.round handle outs))
    (outs : List States) (hg : f.Growing handle outs) (h : P outs) :
    P (f.settle handle outs hg) := by
  fun_induction settle f handle outs hg with
  | case1 outs hg heq => exact h
  | case2 outs hg hne ih => exact ih (hround outs hg h)

theorem growing_solution (f : Flow) (handle : String) :
    f.Growing handle (f.solution handle) :=
  f.settle_induction handle (fun _ hg _ => hg.round) _ _ (f.growing_replicate handle _)

theorem length_solution (f : Flow) (handle : String) :
    (f.solution handle).length = f.blocks.length :=
  f.settle_induction handle (fun _ hg h => hg.below_round.1.symm.trans h) _ _
    List.length_replicate

/-- The states at the end of a block are what its events make of those at its start. -/
theorem outOf_solution {f : Flow} {handle : String} {b : Nat} (hb : b ∈ f.order)
    (hlt : b < f.blocks.length) :
    outOf (f.solution handle) b = f.exit handle (f.solution handle) b := by
  have hsame : f.update handle (f.solution handle) b = f.solution handle :=
    (f.growing_solution handle).update_eq_of_sweep_eq (fun _ h => h)
      (f.round_settle handle _ _) b hb
  calc
    outOf (f.solution handle) b = outOf (f.update handle (f.solution handle) b) b := by rw [hsame]
    _ = f.exit handle (f.solution handle) b := by
      rw [update, outOf_set, if_pos ⟨rfl, by rw [length_solution]; exact hlt⟩]

theorem has_foldl_union_iff (outs : List States) (as : List Nat) (s : States) (x : Phase) :
    (as.foldl (fun s a => s.union (outOf outs a)) s).has x ↔
      s.has x ∨ ∃ a ∈ as, (outOf outs a).has x := by
  induction as generalizing s with
  | nil => simp
  | cons a as ih =>
    rw [List.foldl_cons, ih, States.has_union]
    simp [or_assoc]

theorem has_entry_iff (f : Flow) (outs : List States) (b : Nat) (x : Phase) :
    (f.entry outs b).has x ↔ ∃ a ∈ f.predsOf b, (outOf outs a).has x := by
  rw [entry, has_foldl_union_iff]
  simp

theorem mem_predsOf {p : Procedure} {a b : Nat} (hb : b < p.blocks.length) :
    a ∈ (Flow.of p).predsOf b ↔ a ∈ p.order ∧ b ∈ p.targets a := by
  have hget : (Flow.of p).predsOf b = p.order.filter (fun a => (p.targets a).contains b) := by
    simp [predsOf, Flow.of, hb]
  rw [hget, List.mem_filter, List.contains_iff_mem]

/-! ## The solution and walks -/

section Walks

variable {p : Procedure} {handle : String}

/-- Whatever a walk does is in the solution. -/
theorem run_walk_le_entry (hp : p.InRange) {bs : List Nat} {b : Nat} (h : p.Walk bs b) :
    States.run handle .none (p.eventsAlong bs) ≤
      (Flow.of p).entry ((Flow.of p).solution handle) b := by
  induction h with
  | entry _ => exact States.none_le _
  | @step bs b c hw hc ih =>
    have hb : b ∈ p.order := (p.mem_order_iff hp).2 ⟨bs, hw⟩
    have hexit : States.run handle .none (p.eventsAlong (bs ++ [b])) ≤
        outOf ((Flow.of p).solution handle) b := by
      rw [p.eventsAlong_concat, States.run_append, outOf_solution hb (hw.lt_length hp)]
      exact States.run_mono ih _
    refine States.le_trans hexit (States.le_iff_has.2 (fun x hx => ?_))
    rw [has_entry_iff]
    exact ⟨b, (mem_predsOf (hp _ _ hc)).2 ⟨hb, hc⟩, hx⟩

/-- Every state at the end of a block is left by some walk through it. -/
def Witnessed (p : Procedure) (handle : String) (outs : List States) : Prop :=
  ∀ b x, (outOf outs b).has x →
    ∃ bs, p.Walk bs b ∧ (States.run handle .none (p.eventsAlong (bs ++ [b]))).has x

theorem Witnessed.entry {outs : List States} (h : Witnessed p handle outs) {b : Nat}
    (hlt : b < p.blocks.length) {x : Phase} (hx : ((Flow.of p).entry outs b).has x) :
    ∃ bs, p.Walk bs b ∧ (States.run handle .none (p.eventsAlong bs)).has x := by
  rw [has_entry_iff] at hx
  obtain ⟨a, ha, hx⟩ := hx
  rw [mem_predsOf hlt] at ha
  obtain ⟨bs, hw, hrun⟩ := h a x hx
  exact ⟨bs ++ [a], hw.step ha.2, hrun⟩

/-- From the start of a block to a point in it: a state there comes from one of the walks. -/
theorem exists_walk_of_has_run {s : States} {b : Nat} (hr : p.Reachable b)
    (h : ∀ x, s.has x →
      ∃ bs, p.Walk bs b ∧ (States.run handle .none (p.eventsAlong bs)).has x)
    (es : List Event) (x : Phase) (hx : (States.run handle s es).has x) :
    ∃ bs, p.Walk bs b ∧ (States.run handle .none (p.eventsAlong bs ++ es)).has x := by
  -- the family is that of all walks to the block, which is not empty as the block is reachable
  obtain ⟨bs₀, hw₀⟩ := hr
  have : Nonempty {bs // p.Walk bs b} := ⟨⟨bs₀, hw₀⟩⟩
  obtain ⟨⟨bs, hw⟩, hrun⟩ := States.has_run_of_family
    (F := fun bs : {bs // p.Walk bs b} => States.run handle .none (p.eventsAlong bs.1))
    (fun y hy => by
      obtain ⟨bs, hw, hb⟩ := h y hy
      exact ⟨⟨bs, hw⟩, hb⟩) es x hx
  exact ⟨bs, hw, by rw [States.run_append]; exact hrun⟩

theorem Witnessed.update (hp : p.InRange) {outs : List States} (h : Witnessed p handle outs)
    {b : Nat} (hb : b ∈ p.order) : Witnessed p handle ((Flow.of p).update handle outs b) := by
  intro c x hx
  rw [Flow.update, outOf_set] at hx
  split at hx
  · next hc =>
    obtain ⟨rfl, -⟩ := hc
    have hr := (p.mem_order_iff hp).1 hb
    have hlt : b < p.blocks.length := hr.elim (fun _ hw => hw.lt_length hp)
    obtain ⟨bs, hw, hrun⟩ := exists_walk_of_has_run hr (fun y => h.entry hlt) _ x hx
    exact ⟨bs, hw, by rw [p.eventsAlong_concat]; exact hrun⟩
  · exact h c x hx

theorem Witnessed.sweep (hp : p.InRange) {bs : List Nat} (hbs : ∀ b ∈ bs, b ∈ p.order) :
    ∀ {outs : List States}, Witnessed p handle outs →
      Witnessed p handle ((Flow.of p).sweep handle bs outs) := by
  induction bs with
  | nil => exact fun h => h
  | cons b bs ih =>
    intro outs h
    exact ih (fun c hc => hbs c (List.mem_cons_of_mem _ hc))
      (h.update hp (hbs b List.mem_cons_self))

theorem witnessed_solution (hp : p.InRange) :
    Witnessed p handle ((Flow.of p).solution handle) := by
  refine settle_induction _ handle (fun outs _ h => h.sweep hp (fun _ hb => hb)) _ _ ?_
  intro b x hx
  rw [outOf_replicate, States.has_none] at hx
  exact Bool.noConfusion hx

/-- The meet over all walks: before the events that follow `es` in block `b`, the joined states are
those that single walks leave. -/
theorem has_run_entry_iff (hp : p.InRange) {b : Nat} (hr : p.Reachable b) (es : List Event)
    (x : Phase) :
    (States.run handle ((Flow.of p).entry ((Flow.of p).solution handle) b) es).has x ↔
      ∃ bs, p.Walk bs b ∧ (States.run handle .none (p.eventsAlong bs ++ es)).has x := by
  constructor
  · have hlt : b < p.blocks.length := hr.elim (fun _ hw => hw.lt_length hp)
    exact exists_walk_of_has_run hr (fun y => (witnessed_solution hp).entry hlt) es x
  · rintro ⟨bs, hw, hx⟩
    rw [States.run_append] at hx
    exact States.le_iff_has.1 (States.run_mono (run_walk_le_entry hp hw) es) x hx

end Walks

end Flow

end Wiring
