import Mathlib.Data.List.Forall2
import Mathlib.Data.Nat.Find
import Wiring.Proofs.Scope.Tables

/-!
# Where the rounds stop

From the table without rows the rounds go on as long as they change something. In each of them the
rows of the blocks are overwritten, but with states that include the ones before, so that the rounds
stop after three for each block and one more. Where they stop, the states at the start of a block
are those that the walks to it leave.

Results:
1. `rounds_settle`: the rounds stop, and no state is lost on the way.
2. `entry_iff_walk`: the states at the start of a block are the meet over all walks.
-/

namespace Wiring

open Scope

/-- Every block that has a row keeps it, with all its states. -/
def Table.Below (outs outs' : Table) : Prop :=
  List.Forall₂ (fun out out' => ∀ row, out = some row →
    ∃ row', out' = some row' ∧ List.Forall₂ (· ≤ ·) row row') outs outs'

namespace Plan

theorem below_tableAt (p : Procedure) (k : Nat) : (tableAt p k).Below (tableAt p (k + 1)) := by
  have hdone : ∀ b, doneAt p k b = true → doneAt p (k + 1) b = true := by
    intro b hb
    rw [← markAll_doneAt, markAll, hb, Bool.true_or]
  unfold Table.Below tableAt tableOf
  rw [List.forall₂_map_left_iff, List.forall₂_map_right_iff, List.forall₂_same]
  intro b _ row hrow
  split at hrow
  · next hb =>
    refine ⟨_, if_pos (hdone b hb), ?_⟩
    rw [← Option.some.inj hrow, List.forall₂_map_left_iff, List.forall₂_map_right_iff,
      List.forall₂_same]
    exact fun c _ => ((Flow.of p).below_rounds_succ c.name k).2 b
  · cases hrow

theorem Settles.unique {m : Plan} {outs last last' : Table} (h : m.Settles outs last)
    (h' : m.Settles outs last') : last = last' := by
  induction h with
  | stop hstop =>
    cases h' with
    | stop hstop' =>
      rw [hstop] at hstop'
      cases hstop'
      rfl
    | again hround _ =>
      rw [hstop] at hround
      cases hround
  | again hround _ ih =>
    cases h' with
    | stop hstop =>
      rw [hround] at hstop
      cases hstop
    | again hround' hlast =>
      rw [hround] at hround'
      cases hround'
      exact ih hlast

/-- The rounds settle for the first time after `n` of them. -/
structure SettlesAt (p : Procedure) (n : Nat) : Prop where
  settled : Settled p n
  first : ∀ k < n, ¬ Settled p k

theorem exists_settlesAt (p : Procedure) : ∃ n ≤ 3 * p.blocks.length + 1, SettlesAt p n := by
  classical
  have h : ∃ n, Settled p n := ⟨3 * p.blocks.length + 1, settled_of_lt (Nat.lt_succ_self _)⟩
  exact ⟨Nat.find h, Nat.find_min' h (settled_of_lt (Nat.lt_succ_self _)), Nat.find_spec h,
    fun k hk => Nat.find_min h hk⟩

/-- A trace without fault has its plan, and its rounds settle. -/
theorem exists_settling {p : Procedure} (h : p.fault? = none) :
    p.InRange ∧ ∃ m n, of? p = some m ∧ m.For p ∧ n ≤ 3 * p.blocks.length + 1 ∧
      SettlesAt p n := by
  obtain ⟨m, hof, hm⟩ := exists_plan h
  obtain ⟨n, hle, hn⟩ := exists_settlesAt p
  exact ⟨(Procedure.fault?_eq_none_iff.1 h).1, m, n, hof, hm, hle, hn⟩

theorem SettlesAt.rounds_eq_solution {p : Procedure} {n : Nat} (hn : SettlesAt p n) {c : Handle}
    (hc : c ∈ p.handles) : (Flow.of p).rounds c.name n = (Flow.of p).solution c.name := by
  rw [← Flow.rounds_eq_solution (Nat.le_max_right n (3 * p.blocks.length))]
  exact (Flow.rounds_eq_of_settled (hn.settled.2 c hc) (Nat.le_max_left _ _)).symm

section Stop

variable {m : Plan} {p : Procedure} (hm : m.For p) (hp : p.InRange) {n : Nat}
  (hn : SettlesAt p n)

include hm in
theorem For.start_eq : m.start = tableAt p 0 := by
  simp [start, hm.procedure, tableAt, tableOf, doneAt, List.map_const']

include hm hp hn

theorem For.round?_before {k : Nat} (hk : k < n) :
    m.round? (tableAt p k) = some (tableAt p (k + 1), true) := by
  obtain ⟨changed, hround, hiff⟩ := hm.round?_tableAt hp k
  rw [hround]
  cases changed with
  | true => rfl
  | false => exact absurd (hiff.1 rfl) (hn.first k hk)

theorem For.round?_last : m.round? (tableAt p n) = some (tableAt p n, false) := by
  obtain ⟨changed, hround, hiff⟩ := hm.round?_tableAt hp n
  rw [hround, hiff.2 hn.settled, hn.settled.tableAt_succ]

theorem For.settles_tableAt {k : Nat} (hk : k ≤ n) : m.Settles (tableAt p k) (tableAt p n) := by
  induction hk using Nat.decreasingInduction with
  | self => exact .stop (hm.round?_last hp hn)
  | of_succ k hk ih => exact .again (hm.round?_before hp hn hk) ih

theorem For.settles : m.Settles m.start (tableAt p n) := by
  rw [hm.start_eq]
  exact hm.settles_tableAt hp hn (Nat.zero_le n)

theorem For.startRow?_settled {b : Nat} (hb : b < p.blocks.length) :
    m.startRow? (tableAt p n) b =
      some (p.handles.map (fun c => (Flow.of p).entry ((Flow.of p).solution c.name) b)) := by
  rw [tableAt, hm.startRow?_eq hp (fits_rounds p n) hb]
  refine congrArg some (List.map_congr_left (fun c hc => ?_))
  rw [hn.rounds_eq_solution hc]

end Stop

end Plan

/-- Of a trace that is accepted: the rounds from the table without rows go on for at most three for
each block and one more. Each of them has a result and loses no state of any handle at any block;
the last one changes nothing, and to go on until then is a function. The tables hold what the
rounds of the single handles give, and the last one the solution. -/
theorem rounds_settle {p : Procedure} {ds : List Diagnostic} (h : p.analyze = .ok ds) :
    ∃ m, Plan.of? p = some m ∧ ∃ (n : Nat) (tables : Nat → Table),
      n ≤ 3 * p.blocks.length + 1 ∧
      tables 0 = m.start ∧
      (∀ k < n, m.round? (tables k) = some (tables (k + 1), true) ∧
        (tables k).Below (tables (k + 1))) ∧
      m.round? (tables n) = some (tables n, false) ∧
      (∀ outs, m.Settles m.start outs ↔ outs = tables n) ∧
      (∀ k, ∀ b < p.blocks.length, (tables k)[b]? = some (if 0 < k ∧ b ∈ p.order then
        some (p.handles.map (fun c => Flow.outOf ((Flow.of p).rounds c.name k) b)) else none)) ∧
      ∀ c ∈ p.handles, (Flow.of p).rounds c.name n = (Flow.of p).solution c.name := by
  obtain ⟨hp, m, n, hof, hm, hle, hn⟩ :=
    Plan.exists_settling (Procedure.analyze_eq_ok_iff.1 h).1
  refine ⟨m, hof, n, Plan.tableAt p, hle, hm.start_eq.symm, fun k hk => ?_,
    hm.round?_last hp hn, fun outs => ?_, fun k b hb => Plan.getElem?_tableAt hb k,
    fun c hc => hn.rounds_eq_solution hc⟩
  · exact ⟨hm.round?_before hp hn hk, Plan.below_tableAt p k⟩
  · constructor
    · exact fun hs => hs.unique (hm.settles hp hn)
    · rintro rfl
      exact hm.settles hp hn

/-- A scope that is created and disposed in two loops, one of them through the entry, with
successors named twice. -/
def spinning : Procedure :=
  ⟨"Run", false,
    [⟨[.create "scope" .scope false .manual ⟨"a", 1, 0⟩], [1, 1]⟩,
      ⟨[.dispose "scope" ⟨"a", 2, 0⟩], [1, 0, 2, 0]⟩,
      ⟨[], []⟩]⟩

theorem spinning_settles : spinning.analyze = .ok spinning.findings ∧
    ∃ m, Plan.of? spinning = some m ∧ ∃ outs, m.Settles m.start outs := by
  have hok : spinning.analyze = .ok spinning.findings :=
    Procedure.analyze_eq_ok_iff.2 ⟨by decide, rfl⟩
  obtain ⟨m, hof, n, tables, -, -, -, -, hsettles, -⟩ := rounds_settle hok
  exact ⟨hok, m, hof, tables n, (hsettles _).2 rfl⟩

/-- Of a trace that is accepted, where the rounds stop: at the start of a block that can be reached
each handle may be in a state iff some walk from the entry to the block, whose events begin with no
handle in any state, leaves the handle in it. -/
theorem entry_iff_walk {p : Procedure} {ds : List Diagnostic} (h : p.analyze = .ok ds) {b : Nat}
    (hr : p.Reachable b) :
    ∃ states : Handle → States,
      tracked (Flow.of p) (p.handles.map (fun c => (c, (Flow.of p).solution c.name))) b =
        p.handles.map (fun c => (c, states c)) ∧
      (∃ m outs, Plan.of? p = some m ∧ m.Settles m.start outs ∧
        m.startRow? outs b = some (p.handles.map states)) ∧
      ∀ c ∈ p.handles, ∀ x : Phase, (states c).has x ↔
        ∃ bs s, p.Walk bs b ∧
          (c, s) ∈ (p.eventsAlong bs).foldl Tracked.after
            (p.handles.map (fun c => (c, States.none))) ∧ s.has x := by
  obtain ⟨hp, m, n, hof, hm, -, hn⟩ :=
    Plan.exists_settling (Procedure.analyze_eq_ok_iff.1 h).1
  have hb : b < p.blocks.length := hr.elim (fun _ hw => hw.lt_length hp)
  refine ⟨fun c => (Flow.of p).entry ((Flow.of p).solution c.name) b, ?_,
    ⟨m, _, hof, hm.settles hp hn, hm.startRow?_settled hp hn hb⟩, fun c hc x => ?_⟩
  · rw [tracked, List.map_map]
    rfl
  · refine (Flow.has_run_entry_iff hp hr [] x).trans ?_
    simp only [List.append_nil, Tracked.foldl_after, List.map_map, List.mem_map,
      Function.comp_apply, Prod.mk.injEq]
    constructor
    · rintro ⟨bs, hw, hx⟩
      exact ⟨bs, _, hw, ⟨c, hc, rfl, rfl⟩, hx⟩
    · rintro ⟨bs, _, hw, ⟨_, -, rfl, rfl⟩, hx⟩
      exact ⟨bs, hw, hx⟩

theorem spinning_entry :
    spinning.analyze = .ok spinning.findings ∧ spinning.Reachable 1 ∧
    ∃ s, (⟨"scope", .scope, false, .manual, ⟨"a", 1, 0⟩⟩, s) ∈ tracked (Flow.of spinning)
        (spinning.handles.map (fun c => (c, (Flow.of spinning).solution c.name))) 1 ∧
      s.has .created ∧ s.has .disposed := by
  have hok : spinning.analyze = .ok spinning.findings :=
    Procedure.analyze_eq_ok_iff.2 ⟨by decide, rfl⟩
  have honce : spinning.Walk [0] 1 := .step (.entry (by decide)) (by decide)
  have htwice : spinning.Walk [0, 1] 1 := honce.step (by decide)
  obtain ⟨states, htracked, -, hiff⟩ := entry_iff_walk hok ⟨_, honce⟩
  have hmem : ⟨"scope", .scope, false, .manual, ⟨"a", 1, 0⟩⟩ ∈ spinning.handles := by decide
  refine ⟨hok, ⟨_, honce⟩, _, htracked ▸ List.mem_map_of_mem hmem, ?_, ?_⟩
  · exact (hiff _ hmem .created).2 ⟨[0], .onlyCreated, honce, by decide, rfl⟩
  · exact (hiff _ hmem .disposed).2 ⟨[0, 1], .onlyDisposed, htwice, by decide, rfl⟩

end Wiring
