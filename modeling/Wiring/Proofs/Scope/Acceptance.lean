import Wiring.Proofs.Scope.Settled
import Wiring.Proofs.Scope.Undisposed

/-!
# Which traces are accepted

A trace is refused for a successor that is no block or for a handle that is needed and never
created, and in that order: the first such successor is named in block order, and only if there is
none the first such handle, in block then event order. All other traces have their findings, and
these come out by numbers as well, so that no number lies outside its list.

Results:
1. `Procedure.malformed?_eq_some_iff`, `Procedure.dangling?_eq_some_iff`: what is named.
2. `Plan.For.report?_eq`: the findings by numbers.
3. `Procedure.analyze_eq_iff`: the answer to any trace.
-/

namespace Wiring

open Scope

/-! ## The first fault -/

theorem findSome?_zipIdx_eq_some_iff {α β : Type} {f : α × Nat → Option β} {xs : List α} {k : Nat}
    {y : β} : (xs.zipIdx k).findSome? f = some y ↔
      ∃ i x, xs[i]? = some x ∧ f (x, k + i) = some y ∧
        ∀ j < i, ∀ z, xs[j]? = some z → f (z, k + j) = none := by
  induction xs generalizing k with
  | nil => simp
  | cons x xs ih =>
    rw [List.zipIdx_cons, List.findSome?_cons]
    cases hx : f (x, k) with
    | some y' =>
      simp only [Option.some.injEq]
      constructor
      · rintro rfl
        exact ⟨0, x, rfl, hx, fun j hj => absurd hj (Nat.not_lt_zero j)⟩
      · rintro ⟨i, z, hz, hy, hfirst⟩
        cases i with
        | zero =>
          obtain rfl : x = z := Option.some.inj hz
          exact Option.some.inj (hx.symm.trans hy)
        | succ i =>
          have hnone := hfirst 0 (Nat.zero_lt_succ i) x rfl
          exact absurd (hx.symm.trans hnone) (Option.some_ne_none y')
    | none =>
      have hshift : ∀ i, k + 1 + i = k + (i + 1) := fun i => Nat.add_right_comm k 1 i
      simp only [ih, hshift]
      constructor
      · rintro ⟨i, z, hz, hy, hfirst⟩
        refine ⟨i + 1, z, hz, hy, fun j hj w hw => ?_⟩
        cases j with
        | zero =>
          obtain rfl : x = w := Option.some.inj hw
          exact hx
        | succ j => exact hfirst j (Nat.lt_of_succ_lt_succ hj) w hw
      · rintro ⟨i, z, hz, hy, hfirst⟩
        cases i with
        | zero =>
          obtain rfl : x = z := Option.some.inj hz
          exact absurd (hy.symm.trans hx) (Option.some_ne_none y)
        | succ i =>
          exact ⟨i, z, hz, hy, fun j hj w hw => hfirst (j + 1) (Nat.succ_lt_succ hj) w hw⟩

namespace Procedure

/-- No block before `b` has a successor that is no block, and `s` is the first of those of `b`. -/
structure FirstStray (p : Procedure) (b s : Nat) : Prop where
  before : ∀ a < b, ∀ t ∈ p.targets a, t < p.blocks.length
  split : ∃ ts us, p.targets b = ts ++ s :: us ∧ ∀ t ∈ ts, t < p.blocks.length
  outside : p.blocks.length ≤ s

/-- No event creates a handle of the name; some event needs it, and the events before that one need
none but handles that some event creates. -/
structure FirstDangling (p : Procedure) (name : String) : Prop where
  missing : name ∉ Handle.namesIn p.events
  split : ∃ es e es', p.events = es ++ e :: es' ∧ e.needs? = some name ∧
    ∀ e' ∈ es, ∀ other, e'.needs? = some other → other ∈ Handle.namesIn p.events

theorem malformed?_eq_some_iff {p : Procedure} {b s : Nat} :
    p.malformed? = some (b, s) ↔ p.FirstStray b s := by
  have hnone : ∀ block : Block, block.targets.find? (fun t => p.blocks.length ≤ t) = none ↔
      ∀ t ∈ block.targets, t < p.blocks.length := by
    intro block
    simp [List.find?_eq_none]
  rw [malformed?, findSome?_zipIdx_eq_some_iff]
  simp only [Nat.zero_add, Option.map_eq_some_iff, Prod.mk.injEq, Option.map_eq_none_iff, hnone]
  constructor
  · rintro ⟨i, block, hb, ⟨t, ht, rfl, rfl⟩, hfirst⟩
    obtain ⟨hout, ts, us, hsplit, hts⟩ := List.find?_eq_some_iff_append.1 ht
    refine ⟨fun a ha u hu => ?_, ⟨ts, us, p.targets_of_getElem? hb ▸ hsplit, ?_⟩,
      by simpa using hout⟩
    · rw [targets] at hu
      split at hu
      · next block' ha' => exact hfirst a ha block' ha' u hu
      · exact absurd hu List.not_mem_nil
    · intro u hu
      simpa using hts u hu
  · rintro ⟨hbefore, ⟨ts, us, hsplit, hts⟩, hout⟩
    cases hb : p.blocks[b]? with
    | none =>
      rw [targets, hb] at hsplit
      cases ts <;> cases hsplit
    | some block =>
      rw [p.targets_of_getElem? hb] at hsplit
      refine ⟨b, block, hb, ⟨s, ?_, rfl, rfl⟩, fun a ha block' ha' => ?_⟩
      · refine List.find?_eq_some_iff_append.2 ⟨by simpa using hout, ts, us, hsplit, fun u hu => ?_⟩
        simpa using hts u hu
      · exact p.targets_of_getElem? ha' ▸ hbefore a ha

theorem exists_firstStray_iff {p : Procedure} : (∃ b s, p.FirstStray b s) ↔ ¬ p.InRange := by
  constructor
  · rintro ⟨b, s, -, ⟨ts, us, hsplit, -⟩, hout⟩ hp
    exact Nat.not_lt_of_le hout (hp b s (by simp [hsplit]))
  · intro hp
    cases hm : p.malformed? with
    | none => exact absurd (inRange_of_malformed?_eq_none hm) hp
    | some r => exact ⟨r.1, r.2, malformed?_eq_some_iff.1 hm⟩

theorem isNone_find?_handles_iff {p : Procedure} {name : String} :
    (Handle.find? p.handles name).isNone ↔ name ∉ Handle.namesIn p.events := by
  rw [find?_handles, Option.isNone_iff_eq_none, firstCreation?_eq_none_iff]

theorem dangling?_eq_some_iff {p : Procedure} {name : String} :
    p.dangling? = some name ↔ p.FirstDangling name := by
  have hknown : ∀ other, (!(Handle.find? p.handles other).isNone) = true ↔
      other ∈ Handle.namesIn p.events := by
    intro other
    rw [Bool.not_eq_true', ← Bool.not_eq_true, isNone_find?_handles_iff, Classical.not_not]
  rw [dangling?, List.find?_eq_some_iff_append, isNone_find?_handles_iff]
  simp only [hknown]
  constructor
  · rintro ⟨hmissing, names, names', hsplit, hnames⟩
    obtain ⟨es, rest, hevents, rfl, hrest⟩ := List.filterMap_eq_append_iff.1 hsplit
    obtain ⟨es₁, e, es₂, rfl, hnone, he, -⟩ := List.filterMap_eq_cons_iff.1 hrest
    refine ⟨hmissing, es ++ es₁, e, es₂, by rw [hevents, List.append_assoc], he, ?_⟩
    intro e' he' other hother
    rcases List.mem_append.1 he' with he' | he'
    · exact hnames other (List.mem_filterMap.2 ⟨e', he', hother⟩)
    · rw [hnone e' he'] at hother
      cases hother
  · rintro ⟨hmissing, es, e, es', hevents, he, hes⟩
    refine ⟨hmissing, es.filterMap Event.needs?, es'.filterMap Event.needs?, ?_, ?_⟩
    · rw [hevents, List.filterMap_append, List.filterMap_cons, he]
    · intro other hother
      obtain ⟨e', he', hneeds⟩ := List.mem_filterMap.1 hother
      exact hes e' he' other hneeds

/-- Every handle that an event needs is created by some event. -/
def Covered (p : Procedure) : Prop :=
  ∀ e ∈ p.events, ∀ name, e.needs? = some name → name ∈ Handle.namesIn p.events

theorem dangling?_eq_none_iff {p : Procedure} : p.dangling? = none ↔ p.Covered := by
  rw [dangling?, List.find?_eq_none]
  simp only [isNone_find?_handles_iff, Classical.not_not, List.mem_filterMap]
  constructor
  · exact fun h e he name hname => h name ⟨e, he, hname⟩
  · rintro h name ⟨e, he, hname⟩
    exact h e he name hname

end Procedure

/-! ## The findings by numbers -/

namespace Plan

/-- Of the handles those that the row leaves undisposed, without the numbers reported before. -/
def late? (row : Row) (reported : List Nat) : List (Handle × Nat) → Option (List (Handle × Nat))
  | [] => some []
  | (h, i) :: hs => do
    let s ← row[i]?
    let rest ← late? row reported hs
    if h.acquisition.isGuarded || !s.created || reported.contains i then some rest
    else some ((h, i) :: rest)

/-- The handles that the block leaves undisposed, if it leaves the procedure. -/
def leftOpen? (m : Plan) (block : Block) (row : Row) (reported : List Nat) :
    Option (List (Handle × Nat)) :=
  if block.isExit then late? row reported m.handles.zipIdx else some []

/-- The findings of the blocks in order; a handle is reported as undisposed once. -/
def report? (m : Plan) (outs : Table) : List Nat → List Nat → Option (List Diagnostic)
  | [], _ => some []
  | b :: bs, reported => do
    let r ← m.compute? outs b
    let block ← m.procedure.blocks[b]?
    let late ← m.leftOpen? block r.1 reported
    let rest ← m.report? outs bs (reported ++ late.map Prod.snd)
    some (r.2 ++ late.map (fun l => undisposed m.procedure l.1) ++ rest)

theorem late?_eq {row : Row} (g : Handle → States) {hs : List (Handle × Nat)}
    (hrow : ∀ l ∈ hs, row[l.2]? = some (g l.1)) (reported : List Nat) :
    late? row reported hs = some (hs.filter (fun l =>
      !l.1.acquisition.isGuarded && (g l.1).created && !reported.contains l.2)) := by
  induction hs with
  | nil => rfl
  | cons l hs ih =>
    obtain ⟨hl, hhs⟩ := List.forall_mem_cons.1 hrow
    obtain ⟨h, i⟩ := l
    rw [late?, hl, ih hhs, List.filter_cons]
    simp only [Option.bind_eq_bind, Option.bind_some]
    cases h.acquisition.isGuarded <;> cases (g h).created <;> cases reported.contains i <;> rfl

/-- A number has been reported iff its handle has. -/
def SameReported (hs : List Handle) (reported : List Nat) (handles : List Handle) : Prop :=
  ∀ i h, hs[i]? = some h → (i ∈ reported ↔ h ∈ handles)

section Report

variable {hs : List Handle} (hnodup : hs.Nodup) {reported : List Nat} {handles : List Handle}
  (hsame : SameReported hs reported handles) (q : Handle → Bool)

include hsame in
/-- The handles of the numbers not reported before are the handles not reported before. -/
theorem map_fst_filter_zipIdx :
    (hs.zipIdx.filter (fun l => q l.1 && !reported.contains l.2)).map Prod.fst =
      (hs.filter q).filter (fun h => !handles.contains h) := by
  have hcongr : hs.zipIdx.filter (fun l => q l.1 && !reported.contains l.2) =
      hs.zipIdx.filter ((fun h => q h && !handles.contains h) ∘ Prod.fst) := by
    refine List.filter_congr (fun l hl => ?_)
    have hiff := hsame l.2 l.1 (List.mem_zipIdx_iff_getElem?.1 hl)
    simp only [Function.comp_apply, List.contains_eq_mem, hiff]
  rw [hcongr, ← List.filter_map, List.zipIdx_map_fst, List.filter_filter]
  refine List.filter_congr (fun h _ => Bool.and_comm _ _)

include hnodup hsame in
theorem SameReported.append {late : List (Handle × Nat)} (hlate : late ⊆ hs.zipIdx) :
    SameReported hs (reported ++ late.map Prod.snd) (handles ++ late.map Prod.fst) := by
  intro i h hi
  rw [List.mem_append, List.mem_append, hsame i h hi]
  refine or_congr_right ?_
  rw [List.mem_map, List.mem_map]
  constructor
  · rintro ⟨⟨h', j⟩, hl, rfl⟩
    have hj : hs[j]? = some h' := List.mem_zipIdx_iff_getElem?.1 (hlate hl)
    rw [hj] at hi
    exact ⟨_, hl, Option.some.inj hi⟩
  · rintro ⟨⟨h', j⟩, hl, rfl⟩
    have hj : hs[j]? = some h' := List.mem_zipIdx_iff_getElem?.1 (hlate hl)
    -- a handle stands at one place only
    have hlt : i < hs.length := (List.getElem?_eq_some_iff.1 hi).1
    exact ⟨_, hl, ((List.getElem?_inj hlt hnodup).1 (hi.trans hj.symm)).symm⟩

end Report

section Findings

variable {m : Plan} {p : Procedure} (hm : m.For p) (hp : p.InRange) {n : Nat}
  (hn : SettlesAt p n)

include hm hp hn

theorem For.compute?_settled {b : Nat} (hb : b < p.blocks.length) :
    m.compute? (tableAt p n) b =
      some (p.handles.map (fun c => States.run c.name
          ((Flow.of p).entry ((Flow.of p).solution c.name) b) (p.eventsIn b)),
        findingsIn p (statesAt p b []) (p.eventsIn b)) := by
  have hentry : p.handles.map (fun c => (c, (Flow.of p).entry ((Flow.of p).rounds c.name n) b)) =
      statesAt p b [] := by
    refine List.map_congr_left (fun c hc => ?_)
    rw [hn.rounds_eq_solution hc]
    rfl
  rw [tableAt, hm.compute?_eq hp (fits_rounds p n) hb, hentry]
  refine congrArg (fun row => some (row, _)) (List.map_congr_left (fun c hc => ?_))
  rw [hn.rounds_eq_solution hc]
  rfl

omit hp hn in
/-- The handles that block `b` leaves open, with their numbers, without those reported before. -/
theorem For.exists_late {b : Nat} {block : Block} (hblock : p.blocks[b]? = some block)
    {reported : List Nat} {handles : List Handle}
    (hsame : SameReported p.handles reported handles) :
    ∃ late : List (Handle × Nat), late ⊆ p.handles.zipIdx ∧
      late.map Prod.fst = (openAfter p (Flow.of p)
        (p.handles.map (fun c => (c, (Flow.of p).solution c.name))) b).filter
          (fun h => !handles.contains h) ∧
      m.leftOpen? block (p.handles.map (fun c => States.run c.name
        ((Flow.of p).entry ((Flow.of p).solution c.name) b) (p.eventsIn b))) reported =
          some late := by
  have hexit : block.isExit = (p.targets b).isEmpty := by
    rw [p.targets_of_getElem? hblock, Block.targets, List.isEmpty_map]
    rfl
  let states := fun c : Handle => States.run c.name
    ((Flow.of p).entry ((Flow.of p).solution c.name) b) (p.eventsIn b)
  have hrow : ∀ l ∈ p.handles.zipIdx, (p.handles.map states)[l.2]? = some (states l.1) := by
    intro l hl
    rw [List.getElem?_map, List.mem_zipIdx_iff_getElem?.1 hl]
    rfl
  rw [leftOpen?, hexit, hm.handles, openAfter_eq_filter]
  cases (p.targets b).isEmpty with
  | true =>
    exact ⟨_, List.filter_subset_self _, map_fst_filter_zipIdx hsame _, late?_eq states hrow _⟩
  | false => exact ⟨[], List.nil_subset _, rfl, rfl⟩

theorem For.report?_eq {bs : List Nat} (hbs : ∀ b ∈ bs, b < p.blocks.length)
    {reported : List Nat} {handles : List Handle}
    (hsame : SameReported p.handles reported handles) :
    m.report? (tableAt p n) bs reported =
      some (findingsOf p (Flow.of p)
        (p.handles.map (fun c => (c, (Flow.of p).solution c.name))) bs handles) := by
  induction bs generalizing reported handles with
  | nil => rfl
  | cons b bs ih =>
    obtain ⟨hb, hbs⟩ := List.forall_mem_cons.1 hbs
    have hblock : p.blocks[b]? = some p.blocks[b] := List.getElem?_eq_getElem hb
    obtain ⟨late, hsub, hfst, hlate⟩ := hm.exists_late hblock hsame
    have hrest := ih hbs (hsame.append p.nodup_handles hsub)
    rw [report?, hm.compute?_settled hp hn hb, hm.procedure, hblock, findingsOf_cons, ← hfst,
      tracked_solution]
    simp only [Option.bind_eq_bind, Option.bind_some, hlate, hrest, List.map_map]
    rfl

end Findings

/-- Of a trace without fault the findings by numbers are there, and are its findings. -/
theorem report?_eq_some_iff {p : Procedure} (h : p.fault? = none) {ds : List Diagnostic} :
    (∃ m outs, of? p = some m ∧ m.Settles m.start outs ∧ m.report? outs m.order [] = some ds) ↔
      p.findings = ds := by
  obtain ⟨hp, m, n, hof, hm, -, hn⟩ := exists_settling h
  have hnone : SameReported p.handles [] [] := fun _ _ _ =>
    iff_of_false List.not_mem_nil List.not_mem_nil
  have hreport : m.report? (tableAt p n) m.order [] = some p.findings := by
    rw [hm.order]
    exact hm.report?_eq hp hn (fun b => lt_length_of_mem_order hp) hnone
  constructor
  · rintro ⟨m', outs, hof', hsettles, hds⟩
    obtain rfl : m = m' := Option.some.inj (hof.symm.trans hof')
    rw [hsettles.unique (hm.settles hp hn), hreport] at hds
    exact Option.some.inj hds
  · rintro rfl
    exact ⟨m, _, hof, hm.settles hp hn, hreport⟩

end Plan

namespace Procedure

theorem exists_firstDangling_iff {p : Procedure} :
    (∃ name, p.FirstDangling name) ↔ ¬ p.Covered := by
  rw [← dangling?_eq_none_iff, ← ne_eq, Option.ne_none_iff_exists']
  exact exists_congr (fun _ => dangling?_eq_some_iff.symm)

theorem analyze_of_firstStray {p : Procedure} {b s : Nat} (h : p.FirstStray b s) :
    p.analyze = .error (.malformedTrace p.name b s p.blocks.length) := by
  rw [analyze, fault?, malformed?_eq_some_iff.2 h]

theorem analyze_of_firstDangling {p : Procedure} (hp : p.InRange) {name : String}
    (h : p.FirstDangling name) : p.analyze = .error (.danglingHandle name p.name) := by
  rw [analyze, fault?, malformed?_eq_none_of_inRange hp, dangling?_eq_some_iff.2 h]
  rfl

/-- The answer to any trace. Some block has a successor that is no block: the first such block and
its first such successor are named, whatever else is wrong. Else some event needs a handle that no
event of the trace creates: the first such event's handle is named. Else the findings are given, and
they are there by numbers: nothing that is read while blocks are put in order, while rounds are made
and while findings are collected lies outside its list. -/
theorem analyze_eq_iff (p : Procedure) :
    ((∃ b s, p.FirstStray b s) ↔ ¬ p.InRange) ∧
    ((∃ name, p.FirstDangling name) ↔ ¬ p.Covered) ∧
    ∀ r, p.analyze = r ↔
      (∃ b s, p.FirstStray b s ∧ r = .error (.malformedTrace p.name b s p.blocks.length)) ∨
      (p.InRange ∧ ∃ name, p.FirstDangling name ∧ r = .error (.danglingHandle name p.name)) ∨
      (p.InRange ∧ p.Covered ∧ ∃ m outs ds, Plan.of? p = some m ∧ m.Settles m.start outs ∧
        m.report? outs m.order [] = some ds ∧ r = .ok ds) := by
  refine ⟨exists_firstStray_iff, exists_firstDangling_iff, fun r => ?_⟩
  constructor
  · rintro rfl
    by_cases hp : p.InRange
    · by_cases hc : p.Covered
      · have hfault := fault?_eq_none_iff.2 ⟨hp, dangling?_eq_none_iff.2 hc⟩
        obtain ⟨m, outs, hof, hsettles, hds⟩ := (Plan.report?_eq_some_iff hfault).2 rfl
        exact Or.inr (Or.inr ⟨hp, hc, m, outs, _, hof, hsettles, hds,
          analyze_eq_ok_iff.2 ⟨hfault, rfl⟩⟩)
      · obtain ⟨name, hname⟩ := exists_firstDangling_iff.2 hc
        exact Or.inr (Or.inl ⟨hp, name, hname, analyze_of_firstDangling hp hname⟩)
    · obtain ⟨b, s, hs⟩ := exists_firstStray_iff.2 hp
      exact Or.inl ⟨b, s, hs, analyze_of_firstStray hs⟩
  · rintro (⟨b, s, hs, rfl⟩ | ⟨hp, name, hname, rfl⟩ |
      ⟨hp, hc, m, outs, ds, hof, hsettles, hds, rfl⟩)
    · exact analyze_of_firstStray hs
    · exact analyze_of_firstDangling hp hname
    · have hfault := fault?_eq_none_iff.2 ⟨hp, dangling?_eq_none_iff.2 hc⟩
      exact analyze_eq_ok_iff.2
        ⟨hfault, (Plan.report?_eq_some_iff hfault).1 ⟨m, outs, hof, hsettles, hds⟩⟩

/-- A trace with two bad blocks and two handles that are not there. -/
example : (⟨"Run", false, [⟨[.dispose "a" ⟨"f", 1, 0⟩], [1]⟩, ⟨[], [0, 7, 5]⟩,
    ⟨[.resolve "b" "x" ⟨"f", 2, 0⟩], [9]⟩]⟩ : Procedure).analyze =
      .error (.malformedTrace "Run" 1 7 3) := by
  decide

end Procedure

end Wiring
