import Wiring.Proofs.Scope.Tracked

/-!
# Handles that are left undisposed

A handle that is released by hand is reported exactly when some way out of the procedure leaves it
created. However many ways out do so, it is reported once.
-/

namespace Wiring

/-- Some way out of the procedure leaves the handle created. -/
def Procedure.LeavesOpen (p : Procedure) (name : String) : Prop :=
  ∃ bs b, p.Walk bs b ∧ p.targets b = [] ∧ LeavesCreated name (p.eventsAlong (bs ++ [b]))

namespace Scope

/-! ## What is reported, block by block -/

theorem mem_leftOpen_iff {ts : Tracked} {c : Handle} :
    c ∈ leftOpen ts ↔ c.acquisition = .manual ∧ ∃ s, (c, s) ∈ ts ∧ s.created := by
  have hguard : ∀ a : Acquisition, (!a.isGuarded) = true ↔ a = .manual := by
    intro a
    cases a <;> decide
  simp only [leftOpen, List.mem_map, List.mem_filter, Bool.and_eq_true, hguard]
  constructor
  · rintro ⟨⟨c, s⟩, ⟨hm, ha, hs⟩, rfl⟩
    exact ⟨ha, s, hm, hs⟩
  · rintro ⟨ha, s, hm, hs⟩
    exact ⟨(c, s), ⟨hm, ha, hs⟩, rfl⟩

theorem nodup_leftOpen {ts : Tracked} (h : (ts.map Prod.fst).Nodup) : (leftOpen ts).Nodup :=
  (List.filter_sublist.map Prod.fst).nodup h

/-- The handles that block `b` leaves open, if it leaves the procedure. -/
def openAfter (p : Procedure) (f : Flow) (outs : List (Handle × List States)) (b : Nat) :
    List Handle :=
  if (p.targets b).isEmpty then
    leftOpen ((f.eventsOf b).foldl Tracked.after (tracked f outs b))
  else []

/-- The handles that the blocks leave open, each at the first block that does so, without those
reported before. -/
def firstOpenAfter (p : Procedure) (f : Flow) (outs : List (Handle × List States)) :
    List Nat → List Handle → List Handle
  | [], _ => []
  | b :: bs, reported =>
    let late := (openAfter p f outs b).filter (fun h => !reported.contains h)
    late ++ firstOpenAfter p f outs bs (reported ++ late)

section Reported

variable (p : Procedure) (f : Flow) (outs : List (Handle × List States))

theorem findingsOf_cons (b : Nat) (bs : List Nat) (reported : List Handle) :
    findingsOf p f outs (b :: bs) reported =
      let late := (openAfter p f outs b).filter (fun h => !reported.contains h)
      findingsIn p (tracked f outs b) (f.eventsOf b) ++ late.map (undisposed p) ++
        findingsOf p f outs bs (reported ++ late) := by
  rw [findingsOf, openAfter]
  split <;> rfl

theorem filter_isUndisposed_findingsOf (bs : List Nat) (reported : List Handle) :
    (findingsOf p f outs bs reported).filter (fun d => d.rule.isUndisposed) =
      (firstOpenAfter p f outs bs reported).map (undisposed p) := by
  induction bs generalizing reported with
  | nil => rfl
  | cons b bs ih =>
    have hvalues : (findingsIn p (tracked f outs b) (f.eventsOf b)).filter
        (fun d => d.rule.isUndisposed) = [] := by
      refine List.filter_eq_nil_iff.2 (fun d hd => ?_)
      rw [not_isUndisposed_of_isMisuse (isMisuse_of_mem_findingsIn hd)]
      exact Bool.false_ne_true
    have hhandles : ∀ hs : List Handle, (hs.map (undisposed p)).filter
        (fun d => d.rule.isUndisposed) = hs.map (undisposed p) := by
      refine fun hs => List.filter_eq_self.2 (fun d hd => ?_)
      obtain ⟨h, -, rfl⟩ := List.mem_map.1 hd
      exact (isUndisposed_undisposed p h).1
    rw [findingsOf_cons, List.filter_append, List.filter_append, hvalues, List.nil_append, hhandles,
      ih, firstOpenAfter, List.map_append]

theorem mem_firstOpenAfter_iff (bs : List Nat) (reported : List Handle) (c : Handle) :
    c ∈ firstOpenAfter p f outs bs reported ↔
      c ∉ reported ∧ ∃ b ∈ bs, c ∈ openAfter p f outs b := by
  induction bs generalizing reported with
  | nil => simp [firstOpenAfter]
  | cons b bs ih =>
    rw [firstOpenAfter, List.mem_append, ih]
    simp only [List.mem_append, List.mem_filter, Bool.not_eq_true', List.contains_eq_mem,
      decide_eq_false_iff_not, List.mem_cons, exists_eq_or_imp]
    -- the first block accounts for what it leaves open, the others for the rest
    by_cases hr : c ∈ reported <;> by_cases hb : c ∈ openAfter p f outs b <;> simp [hr, hb]

theorem nodup_firstOpenAfter (hn : (outs.map Prod.fst).Nodup) (bs : List Nat)
    (reported : List Handle) : (firstOpenAfter p f outs bs reported).Nodup := by
  induction bs generalizing reported with
  | nil => exact List.nodup_nil
  | cons b bs ih =>
    have hopen : (openAfter p f outs b).Nodup := by
      rw [openAfter]
      split
      · refine nodup_leftOpen ?_
        rw [Tracked.foldl_after, List.map_map, tracked, List.map_map]
        exact hn
      · exact List.nodup_nil
    refine List.nodup_append.2 ⟨hopen.filter _, ih _, fun c hc c' hc' heq => ?_⟩
    subst heq
    exact ((mem_firstOpenAfter_iff p f outs _ _ _).1 hc').1 (List.mem_append_right _ hc)

end Reported

/-- Two procedures have the same findings if they do so block by block. -/
theorem findingsOf_congr {p q : Procedure} {f g : Flow} {outs outs' : List (Handle × List States)}
    (hsay : undisposed p = undisposed q) {bs : List Nat}
    (hvalues : ∀ b ∈ bs, findingsIn p (tracked f outs b) (f.eventsOf b) =
      findingsIn q (tracked g outs' b) (g.eventsOf b))
    (hopen : ∀ b ∈ bs, openAfter p f outs b = openAfter q g outs' b) (reported : List Handle) :
    findingsOf p f outs bs reported = findingsOf q g outs' bs reported := by
  induction bs generalizing reported with
  | nil => rfl
  | cons b bs ih =>
    have hrest := ih (fun c hc => hvalues c (List.mem_cons_of_mem _ hc))
      (fun c hc => hopen c (List.mem_cons_of_mem _ hc))
    rw [findingsOf_cons, findingsOf_cons, hvalues b List.mem_cons_self,
      hopen b List.mem_cons_self, hsay]
    simp only [hrest]

/-- The handles that block `b` leaves open are in the order of the handles. -/
theorem openAfter_eq_filter (p : Procedure) (b : Nat) :
    openAfter p (Flow.of p) (p.handles.map (fun h => (h, (Flow.of p).solution h.name))) b =
      if (p.targets b).isEmpty then
        p.handles.filter (fun h => !h.acquisition.isGuarded &&
          (States.run h.name ((Flow.of p).entry ((Flow.of p).solution h.name) b)
            (p.eventsIn b)).created)
      else [] := by
  unfold openAfter
  rw [tracked_solution, foldl_after_statesAt, statesAt, leftOpen, List.filter_map, List.map_map]
  have hfst : ∀ g : Handle → States, Prod.fst ∘ (fun h => (h, g h)) = id := fun _ => rfl
  rw [hfst, List.map_id]
  rfl

/-! ## Which handles are reported -/

/-- The message names the handle. -/
theorem name_eq_of_undisposed_eq {p : Procedure} {c c' : Handle}
    (h : undisposed p c = undisposed p c') : c.name = c'.name := by
  have hrule := congrArg Diagnostic.rule h
  have hmessage := congrArg (fun d => d.message.toList) h
  rw [rule_undisposed, rule_undisposed] at hrule
  have hkind : c.kind = c'.kind := by
    cases hk : c.kind <;> cases hk' : c'.kind <;> rw [hk, hk'] at hrule <;>
      first | rfl | exact Rule.noConfusion hrule
  cases hk : c'.kind with
  | scope | rootProvider =>
    simp only [undisposed, hkind, hk, Diagnostic.of, String.toList_append, List.append_assoc,
      List.append_cancel_left_eq, List.append_cancel_right_eq] at hmessage
    exact String.toList_inj.1 hmessage

/-- A finding stands for one handle: the message has the name, and the name one first creation. -/
theorem eq_of_undisposed_eq {p : Procedure} {c c' : Handle} (hc : p.firstCreation? c.name = some c)
    (hc' : p.firstCreation? c'.name = some c') (h : undisposed p c = undisposed p c') : c = c' := by
  rw [name_eq_of_undisposed_eq h, hc'] at hc
  exact (Option.some.inj hc).symm

theorem primary_undisposed (p : Procedure) (c : Handle) :
    (undisposed p c).primary = c.createdAt := by
  rw [undisposed]
  cases c.kind <;> rfl

/-- A block that leaves the procedure leaves open what some walk through it leaves created. -/
theorem mem_openAfter_iff {p : Procedure} (hp : p.InRange) {b : Nat} (hr : p.Reachable b)
    {c : Handle} :
    c ∈ openAfter p (Flow.of p) (p.handles.map (fun h => (h, (Flow.of p).solution h.name))) b ↔
      c ∈ p.handles ∧ c.acquisition = .manual ∧ p.targets b = [] ∧
        ∃ bs, p.Walk bs b ∧ LeavesCreated c.name (p.eventsAlong (bs ++ [b])) := by
  have hwalks : (States.run c.name ((Flow.of p).entry ((Flow.of p).solution c.name) b)
      (p.eventsIn b)).created ↔
        ∃ bs, p.Walk bs b ∧ LeavesCreated c.name (p.eventsAlong (bs ++ [b])) := by
    rw [← States.has_created, Flow.has_run_entry_iff hp hr]
    simp only [States.has_created, States.created_run_iff, p.eventsAlong_concat]
  rw [← hwalks, openAfter]
  split
  · next hexit =>
    rw [tracked_solution, foldl_after_statesAt, List.nil_append, mem_leftOpen_iff]
    simp only [statesAt, List.mem_map, Prod.mk.injEq, List.isEmpty_iff.1 hexit, true_and]
    constructor
    · rintro ⟨ha, s, ⟨h, hm, rfl, rfl⟩, hs⟩
      exact ⟨hm, ha, hs⟩
    · rintro ⟨hm, ha, hs⟩
      exact ⟨ha, _, ⟨c, hm, rfl, rfl⟩, hs⟩
  · next hexit =>
    have hne : p.targets b ≠ [] := fun he => hexit (List.isEmpty_iff.2 he)
    simp [hne]

/-- The handles that are reported as undisposed, each once. -/
theorem exists_leaks {p : Procedure} (hp : p.InRange) :
    ∃ leaks : List Handle,
      p.findings.filter (fun d => d.rule.isUndisposed) = leaks.map (undisposed p) ∧
      (leaks.map (undisposed p)).Nodup ∧
      ∀ c, c ∈ leaks ↔
        p.firstCreation? c.name = some c ∧ c.acquisition = .manual ∧ p.LeavesOpen c.name := by
  let outs := p.handles.map (fun h => (h, (Flow.of p).solution h.name))
  let leaks := firstOpenAfter p (Flow.of p) outs p.order []
  have hmem : ∀ c, c ∈ leaks ↔
      p.firstCreation? c.name = some c ∧ c.acquisition = .manual ∧ p.LeavesOpen c.name := by
    intro c
    rw [mem_firstOpenAfter_iff, ← Procedure.mem_handles_iff]
    constructor
    · rintro ⟨-, b, hb, hc⟩
      obtain ⟨hm, ha, hexit, bs, hw, hl⟩ := (mem_openAfter_iff hp ((p.mem_order_iff hp).1 hb)).1 hc
      exact ⟨hm, ha, bs, b, hw, hexit, hl⟩
    · rintro ⟨hm, ha, bs, b, hw, hexit, hl⟩
      have hr : p.Reachable b := ⟨bs, hw⟩
      exact ⟨List.not_mem_nil, b, (p.mem_order_iff hp).2 hr,
        (mem_openAfter_iff hp hr).2 ⟨hm, ha, hexit, bs, hw, hl⟩⟩
  have hhandles : (outs.map Prod.fst).Nodup := by
    rw [List.map_map]
    show (p.handles.map id).Nodup
    rw [List.map_id]
    exact p.nodup_handles
  have hleaks : leaks.Nodup := nodup_firstOpenAfter p _ outs hhandles _ _
  refine ⟨leaks, filter_isUndisposed_findingsOf p _ _ _ _, ?_, hmem⟩
  refine List.pairwise_map.2 (hleaks.imp_of_mem (fun hc hc' hne heq => hne ?_))
  exact eq_of_undisposed_eq ((hmem _).1 hc).1 ((hmem _).1 hc').1 heq

end Scope

open Scope

/-- Of a trace that is accepted: the finding about a handle bears the place and the kind of its
first creation; it is among the findings iff that creation is released by hand and some walk to a
block without successors leaves the handle created; it is there at most once; and no other finding
says that a handle is undisposed. -/
theorem undisposed_iff_leavesOpen {p : Procedure} {ds : List Diagnostic} (h : p.analyze = .ok ds)
    {name : String} {c : Handle} (hc : p.firstCreation? name = some c) :
    (undisposed p c).primary = c.createdAt ∧
    (undisposed p c).rule = (match c.kind with
      | .scope => .undisposedScope
      | .rootProvider => .rootProviderNotDisposed) ∧
    (undisposed p c ∈ ds ↔ c.acquisition = .manual ∧ p.LeavesOpen name) ∧
    ds.count (undisposed p c) ≤ 1 ∧
    ∀ d ∈ ds, d.rule = .undisposedScope ∨ d.rule = .rootProviderNotDisposed →
      ∃ c', p.firstCreation? c'.name = some c' ∧ d = undisposed p c' := by
  obtain ⟨hp, rfl⟩ := Procedure.analyze_eq_ok h
  obtain rfl := Procedure.name_of_firstCreation? hc
  obtain ⟨leaks, hfilter, honce, hmem⟩ := exists_leaks hp
  have hmemFilter : ∀ d : Diagnostic, d.rule.isUndisposed = true →
      (d ∈ p.findings ↔ d ∈ leaks.map (undisposed p)) := by
    intro d hd
    rw [← hfilter, List.mem_filter]
    exact (and_iff_left hd).symm
  refine ⟨primary_undisposed p c, rule_undisposed p c, ?_, ?_, ?_⟩
  · rw [hmemFilter _ (isUndisposed_undisposed p c).1, List.mem_map]
    constructor
    · rintro ⟨c', hc', heq⟩
      have hleak := (hmem c').1 hc'
      obtain rfl := eq_of_undisposed_eq hleak.1 hc heq
      exact hleak.2
    · exact fun hleak => ⟨c, (hmem c).2 ⟨hc, hleak⟩, rfl⟩
  · have hcount : (p.findings.filter (fun d => d.rule.isUndisposed)).count (undisposed p c) =
        p.findings.count (undisposed p c) :=
      List.count_filter (p := fun d : Diagnostic => d.rule.isUndisposed)
        (isUndisposed_undisposed p c).1
    rw [← hcount, hfilter]
    exact List.nodup_iff_count.1 honce _
  · intro d hd hrule
    have hd' : d.rule.isUndisposed = true := by
      rcases hrule with hr | hr <;> rw [hr] <;> rfl
    obtain ⟨c', hc', rfl⟩ := List.mem_map.1 ((hmemFilter d hd').1 hd)
    exact ⟨c', ((hmem c').1 hc').1, rfl⟩

/-- A scope that a loop may dispose, but need not. -/
def forked : Procedure :=
  ⟨"Run", false,
    [⟨[.create "scope" .scope false .manual ⟨"a", 1, 0⟩], [1, 2]⟩,
      ⟨[.dispose "scope" ⟨"a", 2, 0⟩], [2]⟩, ⟨[], [3, 1]⟩, ⟨[], []⟩]⟩

theorem forked_undisposed_once :
    forked.analyze = .ok forked.findings ∧
    forked.firstCreation? "scope" = some ⟨"scope", .scope, false, .manual, ⟨"a", 1, 0⟩⟩ ∧
    forked.findings.count
      (undisposed forked ⟨"scope", .scope, false, .manual, ⟨"a", 1, 0⟩⟩) = 1 := by
  have hok : forked.analyze = .ok forked.findings := by
    rw [Procedure.analyze, show forked.fault? = none by decide]
  have hfirst : forked.firstCreation? "scope" =
      some ⟨"scope", .scope, false, .manual, ⟨"a", 1, 0⟩⟩ := by decide
  have hwalk : forked.Walk [0, 2] 3 :=
    .step (.step (.entry (by decide)) (by decide)) (by decide)
  obtain ⟨-, -, hiff, honce, -⟩ := undisposed_iff_leavesOpen hok hfirst
  have hmem := hiff.2 ⟨rfl, [0, 2], 3, hwalk, by decide,
    .create "scope" .scope false .manual ⟨"a", 1, 0⟩, by decide, rfl⟩
  exact ⟨hok, hfirst, Nat.le_antisymm honce (List.count_pos_iff.2 hmem)⟩

end Wiring
