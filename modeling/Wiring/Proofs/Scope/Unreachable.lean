import Mathlib.Data.List.Permutation
import Wiring.Proofs.Scope.Misuse
import Wiring.Proofs.Scope.Undisposed

/-!
# Blocks that cannot be reached

No walk leads to such a block, so its events leave no handle in any state. Yet they are read: a
handle is described by its first creation and a value belongs to the handle it was last resolved
from, and both are looked for in all blocks. A procedure whose reachable blocks say these things
themselves has the same findings without the events of the others.

Results:
1. `Procedure.analyze_pruned`: the findings of such a procedure do not depend on its unreachable
   blocks.
2. `shielded_pruned`: the findings of other procedures may.
-/

namespace Wiring

namespace Procedure

/-- The procedure without the events of the blocks that cannot be reached. -/
def pruned (p : Procedure) : Procedure :=
  { p with
    blocks := p.blocks.mapIdx (fun b block =>
      if p.order.contains b then block else { block with events := [] }) }

/-! ## What is left unchanged -/

section Pruned

variable {p : Procedure}

theorem length_blocks_pruned : p.pruned.blocks.length = p.blocks.length :=
  List.length_mapIdx

theorem targets_pruned : p.pruned.targets = p.targets := by
  funext b
  unfold targets
  rw [show p.pruned.blocks[b]? = _ from List.getElem?_mapIdx]
  cases p.blocks[b]? with
  | none => rfl
  | some block =>
    simp only [Option.map_some]
    split <;> rfl

theorem eventsIn_pruned (b : Nat) :
    p.pruned.eventsIn b = if p.order.contains b then p.eventsIn b else [] := by
  simp only [eventsIn, Flow.eventsOf, Flow.of]
  rw [show p.pruned.blocks[b]? = _ from List.getElem?_mapIdx]
  cases p.blocks[b]? with
  | none => simp
  | some block =>
    simp only [Option.map_some]
    split <;> rfl

theorem order_pruned : p.pruned.order = p.order := by
  have hempty : p.pruned.blocks.isEmpty = p.blocks.isEmpty := by
    rw [Bool.eq_iff_iff, List.isEmpty_iff, List.isEmpty_iff, ← List.length_eq_zero_iff,
      ← List.length_eq_zero_iff, length_blocks_pruned]
  unfold order
  rw [hempty, length_blocks_pruned, targets_pruned]

theorem inRange_pruned (hp : p.InRange) : p.pruned.InRange := by
  unfold InRange
  rw [targets_pruned, length_blocks_pruned]
  exact hp

theorem Walk.of_targets {q : Procedure} (hlength : p.blocks.length = q.blocks.length)
    (htargets : p.targets = q.targets) {bs : List Nat} {b : Nat} (h : p.Walk bs b) :
    q.Walk bs b := by
  induction h with
  | entry h => exact .entry (hlength ▸ h)
  | step _ hc ih => exact ih.step (htargets ▸ hc)

theorem walk_pruned {bs : List Nat} {b : Nat} : p.pruned.Walk bs b ↔ p.Walk bs b :=
  ⟨Walk.of_targets length_blocks_pruned targets_pruned,
    Walk.of_targets length_blocks_pruned.symm targets_pruned.symm⟩

theorem reachable_pruned {b : Nat} : p.pruned.Reachable b ↔ p.Reachable b :=
  exists_congr (fun _ => walk_pruned)

theorem Walk.reachable_of_mem {bs : List Nat} {b : Nat} (h : p.Walk bs b) :
    ∀ a ∈ bs, p.Reachable a := by
  induction h with
  | entry _ => exact fun a ha => absurd ha List.not_mem_nil
  | @step bs b c hw _ ih =>
    intro a ha
    rcases List.mem_append.1 ha with ha | ha
    · exact ih a ha
    · exact List.mem_singleton.1 ha ▸ ⟨bs, hw⟩

section Reachable

variable (hp : p.InRange)

include hp

theorem eventsIn_pruned_of_reachable {b : Nat} (hr : p.Reachable b) :
    p.pruned.eventsIn b = p.eventsIn b := by
  rw [eventsIn_pruned, if_pos (List.contains_iff_mem.2 ((p.mem_order_iff hp).2 hr))]

theorem eventsIn_pruned_of_not_reachable {b : Nat} (hr : ¬ p.Reachable b) :
    p.pruned.eventsIn b = [] := by
  rw [eventsIn_pruned, if_neg (fun h => hr ((p.mem_order_iff hp).1 (List.contains_iff_mem.1 h)))]

theorem mem_eventsIn_pruned {b : Nat} {e : Event} :
    e ∈ p.pruned.eventsIn b ↔ p.Reachable b ∧ e ∈ p.eventsIn b := by
  by_cases hr : p.Reachable b
  · rw [eventsIn_pruned_of_reachable hp hr]
    exact (and_iff_right hr).symm
  · rw [eventsIn_pruned_of_not_reachable hp hr]
    exact iff_of_false List.not_mem_nil (fun h => hr h.1)

theorem eventsAlong_pruned {bs : List Nat} {b : Nat} (hw : p.Walk bs b) :
    p.pruned.eventsAlong bs = p.eventsAlong bs := by
  unfold eventsAlong
  rw [List.flatMap_def, List.flatMap_def]
  exact congrArg List.flatten
    (List.map_congr_left (fun a ha => eventsIn_pruned_of_reachable hp (hw.reachable_of_mem a ha)))

end Reachable

end Pruned

end Procedure

/-! ## Where handles and values are described -/

/-- The handle or value that the event is about. -/
def Event.subject : Event → String
  | .create h _ _ _ _ => h
  | .dispose h _ => h
  | .resolve h _ _ => h
  | .escape v _ _ => v
  | .use v _ => v

theorem Event.subject_eq_of_touches {handle : String} {e : Event} (h : e.touches handle) :
    e.subject = handle := by
  cases e with
  | create _ _ _ _ _ | dispose _ _ | escape _ _ _ => exact eq_of_beq h
  | resolve _ _ _ | use _ _ => cases h

namespace Procedure

/-- An event that can be reached is about the handle or value. -/
def Names (p : Procedure) (name : String) : Prop :=
  ∃ b, p.Reachable b ∧ ∃ e ∈ p.eventsIn b, e.subject = name

theorem names_of_leavesCreated {p : Procedure} {bs : List Nat} {b : Nat} {name : String}
    (hw : p.Walk bs b) (h : LeavesCreated name (p.eventsAlong bs ++ p.eventsIn b)) :
    p.Names name := by
  obtain ⟨e, hlast, -⟩ := h
  obtain ⟨hmem, htouches⟩ := List.mem_filter.1 (List.mem_of_getLast? hlast)
  have hsubject := Event.subject_eq_of_touches htouches
  rcases List.mem_append.1 hmem with hmem | hmem
  · obtain ⟨a, ha, he⟩ := List.mem_flatMap.1 hmem
    exact ⟨a, hw.reachable_of_mem a ha, e, he, hsubject⟩
  · exact ⟨b, ⟨bs, hw⟩, e, hmem, hsubject⟩

/-- The first creation of the handle in block `b`. -/
def creationIn? (p : Procedure) (name : String) (b : Nat) : Option Handle :=
  ((p.eventsIn b).filterMap Event.created?).find? (fun h => h.name == name)

/-- The handle of the last event in block `b` that resolves the value. -/
def sourceIn? (p : Procedure) (value : String) (b : Nat) : Option String :=
  ((p.eventsIn b).filterMap (Event.resolvedFrom? value)).getLast?

/-- What reachable blocks are about is described there: no handle is created in an unreachable block
before it is created in a reachable one, and no value is resolved in an unreachable block after it
was resolved in a reachable one. -/
structure SelfContained (p : Procedure) : Prop where
  created : ∀ name b, p.Names name → (p.creationIn? name b).isSome →
    ∃ a ≤ b, p.Reachable a ∧ (p.creationIn? name a).isSome
  resolved : ∀ value b, p.Names value → p.firstCreation? value = none →
    (p.sourceIn? value b).isSome → ∃ c ≥ b, p.Reachable c ∧ (p.sourceIn? value c).isSome

theorem firstCreation?_eq_findSome? (p : Procedure) (name : String) :
    p.firstCreation? name = (List.range p.blocks.length).findSome? (p.creationIn? name) := by
  unfold firstCreation?
  rw [events_eq_flatMap, List.filterMap_flatMap, List.find?_flatMap]
  rfl

theorem lastSource?_eq_findSome? (p : Procedure) (value : String) :
    p.lastSource? value =
      (List.range p.blocks.length).reverse.findSome? (p.sourceIn? value) := by
  unfold lastSource?
  rw [events_eq_flatMap, List.filterMap_flatMap, List.getLast?_flatMap]
  rfl

end Procedure

/-- The first answer along a list stays when answers are taken away of which each one has another
that is kept before it. -/
theorem findSome?_eq_of_kept {α : Type} {r : Nat → Nat → Prop} (hr : ∀ a b, r a b → ¬ r b a)
    {kept : Nat → Prop} {F F' : Nat → Option α} (hkept : ∀ b, kept b → F' b = F b)
    (hgone : ∀ b, ¬ kept b → F' b = none) {l : List Nat} (hl : l.Pairwise r)
    (h : ∀ b ∈ l, (F b).isSome → ∃ a ∈ l, (a = b ∨ r a b) ∧ kept a ∧ (F a).isSome) :
    l.findSome? F' = l.findSome? F := by
  induction l with
  | nil => rfl
  | cons b l ih =>
    obtain ⟨hb, hl⟩ := List.pairwise_cons.1 hl
    have hhead : F' b = F b := by
      by_cases hk : kept b
      · exact hkept b hk
      · -- an answer at the head has none before it
        have hnone : F b = none := by
          refine Option.not_isSome_iff_eq_none.1 (fun hsome => ?_)
          obtain ⟨a, ha, hab, hka, -⟩ := h b List.mem_cons_self hsome
          rcases hab with rfl | hab
          · exact hk hka
          · rcases List.mem_cons.1 ha with rfl | ha
            · exact hk hka
            · exact hr a b hab (hb a ha)
        rw [hgone b hk, hnone]
    rw [List.findSome?_cons, List.findSome?_cons, hhead]
    cases hF : F b with
    | some x => rfl
    | none =>
      refine ih hl (fun c hc hsome => ?_)
      obtain ⟨a, ha, hac, hka, hsome⟩ := h c (List.mem_cons_of_mem _ hc) hsome
      rcases List.mem_cons.1 ha with rfl | ha
      · rw [hF] at hsome
        cases hsome
      · exact ⟨a, ha, hac, hka, hsome⟩

namespace Procedure

section SelfContained

variable {p : Procedure} (hp : p.InRange)

include hp

theorem names_of_lastSource?_pruned {value source : String}
    (h : p.pruned.lastSource? value = some source) : p.Names source := by
  rw [lastSource?_eq_findSome?] at h
  obtain ⟨b, -, hb⟩ := List.exists_of_findSome?_eq_some h
  obtain ⟨e, he, hfrom⟩ := List.mem_filterMap.1 (List.mem_of_getLast? hb)
  obtain ⟨hr, he⟩ := (mem_eventsIn_pruned hp).1 he
  refine ⟨b, hr, e, he, ?_⟩
  cases e with
  | resolve h r _ =>
    simp only [Event.resolvedFrom?] at hfrom
    split at hfrom
    · exact Option.some.inj hfrom
    · cases hfrom
  | create _ _ _ _ _ | dispose _ _ | escape _ _ _ | use _ _ => cases hfrom

variable (hs : p.SelfContained)

include hs

theorem firstCreation?_pruned {name : String} (hname : p.Names name) :
    p.pruned.firstCreation? name = p.firstCreation? name := by
  rw [firstCreation?_eq_findSome?, firstCreation?_eq_findSome?, length_blocks_pruned]
  refine findSome?_eq_of_kept (r := (· < ·)) (fun a b => Nat.lt_asymm)
    (fun b (hr : p.Reachable b) => ?_) (fun b hr => ?_) List.pairwise_lt_range
    (fun b hb hsome => ?_)
  · unfold creationIn?
    rw [eventsIn_pruned_of_reachable hp hr]
  · unfold creationIn?
    rw [eventsIn_pruned_of_not_reachable hp hr]
    rfl
  · obtain ⟨a, hle, hr, hsome⟩ := hs.created name b hname hsome
    have ha : a < p.blocks.length := Nat.lt_of_le_of_lt hle (List.mem_range.1 hb)
    exact ⟨a, List.mem_range.2 ha, Nat.eq_or_lt_of_le hle, hr, hsome⟩

theorem lastSource?_pruned {value : String} (hname : p.Names value)
    (hvalue : p.firstCreation? value = none) :
    p.pruned.lastSource? value = p.lastSource? value := by
  rw [lastSource?_eq_findSome?, lastSource?_eq_findSome?, length_blocks_pruned]
  refine findSome?_eq_of_kept (r := (· > ·)) (fun a b => Nat.lt_asymm)
    (fun b (hr : p.Reachable b) => ?_) (fun b hr => ?_)
    (List.pairwise_reverse.2 List.pairwise_lt_range) (fun b _ hsome => ?_)
  · unfold sourceIn?
    rw [eventsIn_pruned_of_reachable hp hr]
  · unfold sourceIn?
    rw [eventsIn_pruned_of_not_reachable hp hr]
    rfl
  · obtain ⟨c, hle, hr, hsome⟩ := hs.resolved value b hname hvalue hsome
    have hc : c < p.blocks.length := hr.elim (fun _ hw => hw.lt_length hp)
    exact ⟨c, List.mem_reverse.2 (List.mem_range.2 hc), (Nat.eq_or_lt_of_le hle).imp_left Eq.symm,
      hr, hsome⟩

/-- A value that is no handle belongs to the same handle. -/
theorem owner_pruned {value : String} (hname : p.Names value)
    (hvalue : p.firstCreation? value = none) :
    (p.pruned.lastSource? value).bind p.pruned.firstCreation? =
      (p.lastSource? value).bind p.firstCreation? := by
  rw [← lastSource?_pruned hp hs hname hvalue]
  cases hsource : p.pruned.lastSource? value with
  | none => rfl
  | some source => exact firstCreation?_pruned hp hs (names_of_lastSource?_pruned hp hsource)

theorem concerned?_pruned {b : Nat} (hr : p.Reachable b) {e : Event} (he : e ∈ p.eventsIn b) :
    p.pruned.concerned? e = p.concerned? e := by
  have hname : p.Names e.subject := ⟨b, hr, e, he, rfl⟩
  have hfirst := firstCreation?_pruned hp hs hname
  cases e with
  | create _ _ _ _ _ | dispose _ _ => rfl
  | resolve h _ _ => exact hfirst
  | use v _ =>
    simp only [Event.subject] at hname hfirst
    simp only [concerned?, hfirst]
    cases hv : p.firstCreation? v with
    | some c => rfl
    | none => rw [owner_pruned hp hs hname hv]
  | escape v _ _ =>
    simp only [Event.subject] at hname hfirst
    simp only [concerned?, hfirst]
    cases hv : p.firstCreation? v with
    | some c => rfl
    | none => exact owner_pruned hp hs hname hv

end SelfContained

end Procedure

/-! ## Handles in order -/

namespace Handle

/-- Of the known names only those of handles that are kept matter. -/
theorem filter_createdBy_congr {q : Handle → Bool} {es : List Event} {known known' : List String}
    (h : ∀ c : Handle, q c → (c.name ∈ known ↔ c.name ∈ known')) :
    (createdBy known es).filter q = (createdBy known' es).filter q := by
  induction es generalizing known known' with
  | nil => rfl
  | cons e es ih =>
    unfold createdBy
    cases e.created? with
    | none => exact ih h
    | some c =>
      simp only [List.contains_eq_mem, decide_eq_true_eq]
      by_cases hk : c.name ∈ known <;> by_cases hk' : c.name ∈ known'
      · rw [if_pos hk, if_pos hk']
        exact ih h
      · -- a name that only one side knows is not kept, and both know it from here on
        have hq : ¬ q c := fun hq => hk' ((h c hq).1 hk)
        rw [if_pos hk, if_neg hk', List.filter_cons_of_neg hq]
        refine ih (fun d hd => ?_)
        rw [List.mem_cons, h d hd]
        exact ⟨Or.inr, fun hm => hm.elim (fun heq => (h d hd).1 (heq ▸ hk)) id⟩
      · have hq : ¬ q c := fun hq => hk ((h c hq).2 hk')
        rw [if_neg hk, if_pos hk', List.filter_cons_of_neg hq]
        refine ih (fun d hd => ?_)
        rw [List.mem_cons, ← h d hd]
        exact ⟨fun hm => hm.elim (fun heq => (h d hd).2 (heq ▸ hk')) id, Or.inr⟩
      · rw [if_neg hk, if_neg hk', List.filter_cons, List.filter_cons]
        have hrest : (createdBy (c.name :: known) es).filter q =
            (createdBy (c.name :: known') es).filter q := by
          refine ih (fun d hd => ?_)
          rw [List.mem_cons, List.mem_cons, h d hd]
        rw [hrest]

theorem createdBy_congr {es : List Event} {known known' : List String}
    (h : ∀ name, name ∈ known ↔ name ∈ known') : createdBy known es = createdBy known' es := by
  have hall : ∀ known, (createdBy known es).filter (fun _ => true) = createdBy known es :=
    fun _ => List.filter_eq_self.2 (fun _ _ => rfl)
  rw [← hall known, ← hall known']
  exact filter_createdBy_congr (fun c _ => h c.name)

theorem createdBy_append (known : List String) (es es' : List Event) :
    createdBy known (es ++ es') = createdBy known es ++ createdBy (known ++ namesIn es) es' := by
  induction es generalizing known with
  | nil => simp [createdBy, namesIn]
  | cons e es ih =>
    rw [List.cons_append, createdBy, createdBy, namesIn, List.filterMap_cons]
    cases e.created? with
    | none => exact ih known
    | some c =>
      simp only [List.contains_eq_mem, decide_eq_true_eq, List.map_cons]
      split
      · next hk =>
        rw [ih]
        refine congrArg _ (createdBy_congr (fun name => ?_))
        simp only [List.mem_append, List.mem_cons, namesIn]
        constructor
        · exact Or.imp_right Or.inr
        · rintro (hm | rfl | hm)
          · exact Or.inl hm
          · exact Or.inl hk
          · exact Or.inr hm
      · rw [ih, List.cons_append]
        refine congrArg _ (congrArg _ (createdBy_congr (fun name => ?_)))
        simp only [List.mem_append, List.mem_cons, namesIn, or_left_comm]

end Handle

namespace Procedure

/-- The handles that block `b` is the first to create. -/
def handlesIn (p : Procedure) (b : Nat) : List Handle :=
  Handle.createdBy (Handle.namesIn (p.eventsAlong (List.range b))) (p.eventsIn b)

theorem handles_eq_flatMap (p : Procedure) :
    p.handles = (List.range p.blocks.length).flatMap p.handlesIn := by
  have hprefix : ∀ n, Handle.createdBy [] (p.eventsAlong (List.range n)) =
      (List.range n).flatMap p.handlesIn := by
    intro n
    induction n with
    | zero => rfl
    | succ n ih =>
      rw [List.range_succ, eventsAlong_concat, Handle.createdBy_append, ih, List.flatMap_append,
        List.flatMap_singleton]
      rfl
  rw [← hprefix, handles, events_eq_flatMap]
  rfl

theorem isSome_creationIn?_iff {p : Procedure} {name : String} {b : Nat} :
    (p.creationIn? name b).isSome ↔ name ∈ Handle.namesIn (p.eventsIn b) := by
  rw [creationIn?, List.find?_isSome, Handle.namesIn, List.mem_map]
  simp only [beq_iff_eq]

theorem mem_namesIn_range_iff {p : Procedure} {name : String} {b : Nat} :
    name ∈ Handle.namesIn (p.eventsAlong (List.range b)) ↔
      ∃ a < b, (p.creationIn? name a).isSome := by
  simp only [isSome_creationIn?_iff, Handle.namesIn, eventsAlong, List.filterMap_flatMap,
    List.map_flatMap, List.mem_flatMap, List.mem_range]

theorem isSome_creationIn?_pruned {p : Procedure} (hp : p.InRange) {name : String} {b : Nat} :
    (p.pruned.creationIn? name b).isSome ↔ p.Reachable b ∧ (p.creationIn? name b).isSome := by
  simp only [isSome_creationIn?_iff, Handle.namesIn, List.mem_map, List.mem_filterMap,
    mem_eventsIn_pruned hp]
  constructor
  · rintro ⟨c, ⟨e, ⟨hr, he⟩, hc⟩, hname⟩
    exact ⟨hr, c, ⟨e, he, hc⟩, hname⟩
  · rintro ⟨hr, c, ⟨e, he, hc⟩, hname⟩
    exact ⟨c, ⟨e, ⟨hr, he⟩, hc⟩, hname⟩

theorem filter_handles_pruned {p : Procedure} (hp : p.InRange) (hs : p.SelfContained)
    {q : Handle → Bool} (hq : ∀ c, q c → p.Names c.name) :
    p.pruned.handles.filter q = p.handles.filter q := by
  rw [handles_eq_flatMap, handles_eq_flatMap, length_blocks_pruned, List.filter_flatMap,
    List.filter_flatMap, List.flatMap_def, List.flatMap_def]
  refine congrArg List.flatten (List.map_congr_left (fun b _ => ?_))
  unfold handlesIn
  by_cases hr : p.Reachable b
  · rw [eventsIn_pruned_of_reachable hp hr]
    refine Handle.filter_createdBy_congr (fun c hc => ?_)
    rw [mem_namesIn_range_iff, mem_namesIn_range_iff]
    constructor
    · rintro ⟨a, hlt, hsome⟩
      exact ⟨a, hlt, ((isSome_creationIn?_pruned hp).1 hsome).2⟩
    · rintro ⟨a, hlt, hsome⟩
      obtain ⟨a', hle, ha', hsome⟩ := hs.created c.name a (hq c hc) hsome
      exact ⟨a', Nat.lt_of_le_of_lt hle hlt, (isSome_creationIn?_pruned hp).2 ⟨ha', hsome⟩⟩
  · -- what is kept of an unreachable block was created before it
    rw [eventsIn_pruned_of_not_reachable hp hr]
    refine (List.filter_eq_nil_iff.2 (fun c hc hqc => ?_)).symm
    obtain ⟨hnew, hfirst⟩ := Handle.mem_createdBy_iff.1 hc
    obtain ⟨a, hle, ha, hsome⟩ := hs.created c.name b (hq c hqc) (Option.isSome_of_eq_some hfirst)
    rcases Nat.eq_or_lt_of_le hle with rfl | hlt
    · exact hr ha
    · exact hnew (mem_namesIn_range_iff.2 ⟨a, hlt, hsome⟩)

end Procedure

/-! ## Findings -/

namespace Scope

section Pruned

variable {p : Procedure} (hp : p.InRange) {b : Nat}

include hp

theorem eventsBefore_pruned {bs : List Nat} (hw : p.Walk bs b) (i : Nat) :
    p.pruned.eventsBefore bs b i = p.eventsBefore bs b i := by
  unfold Procedure.eventsBefore
  rw [Procedure.eventsAlong_pruned hp hw, Procedure.eventsIn_pruned_of_reachable hp ⟨bs, hw⟩]

theorem exists_walk_pruned (i : Nat) (Q : List Event → Prop) :
    (∃ bs, p.pruned.Walk bs b ∧ Q (p.pruned.eventsBefore bs b i)) ↔
      ∃ bs, p.Walk bs b ∧ Q (p.eventsBefore bs b i) := by
  refine exists_congr (fun bs => ?_)
  rw [Procedure.walk_pruned]
  refine and_congr_right (fun hw => ?_)
  rw [eventsBefore_pruned hp hw]

theorem forall_walk_pruned (i : Nat) (Q : List Event → Prop) :
    (∀ bs, p.pruned.Walk bs b → Q (p.pruned.eventsBefore bs b i)) ↔
      ∀ bs, p.Walk bs b → Q (p.eventsBefore bs b i) := by
  refine forall_congr' (fun bs => ?_)
  rw [Procedure.walk_pruned]
  refine imp_congr_right (fun hw => ?_)
  rw [eventsBefore_pruned hp hw]

theorem surelyDisposed_pruned {i : Nat} {handle : String} :
    p.pruned.SurelyDisposed b i handle ↔ p.SurelyDisposed b i handle :=
  and_congr
    (forall_walk_pruned hp i (fun es => ¬ LeavesCreated handle es ∧ ¬ LeavesEscaped handle es))
    (exists_walk_pruned hp i (LeavesDisposed handle))

theorem surelyAlive_pruned {i : Nat} {handle : String} :
    p.pruned.SurelyAlive b i handle ↔ p.SurelyAlive b i handle :=
  and_congr
    (forall_walk_pruned hp i (fun es => Untouched handle es ∨ LeavesCreated handle es))
    (exists_walk_pruned hp i (LeavesCreated handle))

variable (hs : p.SelfContained) (hr : p.Reachable b)

include hs hr

theorem misuse_pruned {i : Nat} {e : Event} (he : e ∈ p.eventsIn b) {d : Diagnostic} :
    Misuse p.pruned b i e d ↔ Misuse p b i e d := by
  have hconcerned := Procedure.concerned?_pruned hp hs hr he
  constructor
  · intro h
    cases h with
    | resolve hc hk hd => exact .resolve (hconcerned ▸ hc) hk ((surelyDisposed_pruned hp).1 hd)
    | use hc hk hd => exact .use (hconcerned ▸ hc) hk ((surelyDisposed_pruned hp).1 hd)
    | escape hc hk ha => exact .escape (hconcerned ▸ hc) hk ((surelyAlive_pruned hp).1 ha)
  · intro h
    cases h with
    | resolve hc hk hd => exact .resolve (hconcerned ▸ hc) hk ((surelyDisposed_pruned hp).2 hd)
    | use hc hk hd => exact .use (hconcerned ▸ hc) hk ((surelyDisposed_pruned hp).2 hd)
    | escape hc hk ha => exact .escape (hconcerned ▸ hc) hk ((surelyAlive_pruned hp).2 ha)

theorem findingAt_pruned (i : Nat) : findingAt p.pruned b i = findingAt p b i := by
  unfold findingAt
  rw [Procedure.eventsIn_pruned_of_reachable hp hr]
  cases he : (p.eventsIn b)[i]? with
  | none => rfl
  | some e =>
    have hmem : e ∈ p.eventsIn b := List.mem_of_getElem? he
    refine Option.ext (fun d => ?_)
    have hpruned := finding?_eq_some_iff (Procedure.inRange_pruned hp)
      (Procedure.reachable_pruned.2 hr) i e d
    rw [Procedure.eventsIn_pruned_of_reachable hp hr] at hpruned
    exact (hpruned.trans (misuse_pruned hp hs hr hmem)).trans
      (finding?_eq_some_iff hp hr i e d).symm

omit hs in
theorem created_run_pruned (name : String) :
    (States.run name ((Flow.of p.pruned).entry ((Flow.of p.pruned).solution name) b)
      (p.pruned.eventsIn b)).created =
        (States.run name ((Flow.of p).entry ((Flow.of p).solution name) b)
          (p.eventsIn b)).created := by
  rw [Bool.eq_iff_iff, ← States.has_created, ← States.has_created,
    Flow.has_run_entry_iff (Procedure.inRange_pruned hp) (Procedure.reachable_pruned.2 hr),
    Flow.has_run_entry_iff hp hr]
  refine exists_congr (fun bs => ?_)
  rw [Procedure.walk_pruned]
  refine and_congr_right (fun hw => ?_)
  rw [Procedure.eventsAlong_pruned hp hw, Procedure.eventsIn_pruned_of_reachable hp hr]

theorem openAfter_pruned :
    openAfter p.pruned (Flow.of p.pruned)
        (p.pruned.handles.map (fun h => (h, (Flow.of p.pruned).solution h.name))) b =
      openAfter p (Flow.of p) (p.handles.map (fun h => (h, (Flow.of p).solution h.name))) b := by
  rw [openAfter_eq_filter, openAfter_eq_filter, Procedure.targets_pruned]
  simp only [created_run_pruned hp hr]
  split
  · refine Procedure.filter_handles_pruned hp hs (fun c hc => ?_)
    -- what is left open has been created on a walk
    rw [Bool.and_eq_true, ← States.has_created, Flow.has_run_entry_iff hp hr] at hc
    obtain ⟨-, bs, hw, hcreated⟩ := hc
    exact Procedure.names_of_leavesCreated hw ((States.created_run_iff _ _).1 hcreated)
  · rfl

end Pruned

end Scope

namespace Procedure

open Scope

section Accepted

variable {p : Procedure} (hp : p.InRange) (hs : p.SelfContained)

include hp hs

theorem findings_pruned : p.pruned.findings = p.findings := by
  unfold findings
  simp only [show (Flow.of p.pruned).order = (Flow.of p).order from order_pruned]
  have hsay : undisposed p.pruned = undisposed p := rfl
  refine findingsOf_congr hsay (fun b hb => ?_) (fun b hb => ?_) []
  · have hr : p.Reachable b := (p.mem_order_iff hp).1 hb
    have hblock : ∀ q : Procedure, findingsIn q (statesAt q b []) (q.eventsIn b) =
        (List.range' 0 (q.eventsIn b).length).filterMap (findingAt q b) :=
      fun q => findingsIn_eq_filterMap [] _ rfl
    show findingsIn _ _ (p.pruned.eventsIn b) = findingsIn _ _ (p.eventsIn b)
    rw [tracked_solution, tracked_solution, hblock, hblock, eventsIn_pruned_of_reachable hp hr,
      funext (findingAt_pruned hp hs hr)]
  · exact openAfter_pruned hp hs ((p.mem_order_iff hp).1 hb)

theorem dangling?_pruned (h : p.dangling? = none) : p.pruned.dangling? = none := by
  unfold dangling? at h ⊢
  simp only [List.find?_eq_none, find?_handles] at h ⊢
  intro name hname
  obtain ⟨e, he, hneeds⟩ := List.mem_filterMap.1 hname
  obtain ⟨b, he⟩ := mem_events_iff.1 he
  obtain ⟨hr, he⟩ := (mem_eventsIn_pruned hp).1 he
  have hsubject : e.subject = name := by
    cases e with
    | dispose _ _ | resolve _ _ _ => exact Option.some.inj hneeds
    | create _ _ _ _ _ | escape _ _ _ | use _ _ => cases hneeds
  rw [firstCreation?_pruned hp hs ⟨b, hr, e, he, hsubject⟩]
  exact h name (List.mem_filterMap.2 ⟨e, mem_events_iff.2 ⟨b, he⟩, hneeds⟩)

end Accepted

/-- What cannot be reached has no part in the findings, as long as the reachable blocks describe
what they are about: a trace that is accepted is accepted without the events of its unreachable
blocks, and has the same findings in the same order. -/
theorem analyze_pruned {p : Procedure} {ds : List Diagnostic} (h : p.analyze = .ok ds)
    (hs : p.SelfContained) : p.pruned.analyze = .ok ds := by
  obtain ⟨hfault, rfl⟩ := analyze_eq_ok_iff.1 h
  obtain ⟨hp, hdangling⟩ := fault?_eq_none_iff.1 hfault
  have hfault' : p.pruned.fault? = none :=
    fault?_eq_none_iff.2 ⟨inRange_pruned hp, dangling?_pruned hp hs hdangling⟩
  exact analyze_eq_ok_iff.2 ⟨hfault', findings_pruned hp hs⟩

end Procedure

/-- A block that cannot be reached creates the scope again, and resolves the value in between. -/
def detached : Procedure :=
  ⟨"Run", false,
    [⟨[.create "scope" .scope false .manual ⟨"a", 1, 0⟩, .resolve "scope" "repo" ⟨"a", 2, 0⟩], [2]⟩,
      ⟨[.create "scope" .scope false .usingStatement ⟨"a", 3, 0⟩,
        .create "spare" .scope false .manual ⟨"a", 4, 0⟩,
        .resolve "spare" "repo" ⟨"a", 5, 0⟩], [2]⟩,
      ⟨[.resolve "scope" "repo" ⟨"a", 6, 0⟩, .dispose "scope" ⟨"a", 7, 0⟩,
        .use "repo" ⟨"a", 8, 0⟩], []⟩]⟩

theorem selfContained_detached : detached.SelfContained := by
  have hp : detached.InRange := Procedure.inRange_of_malformed?_eq_none (by decide)
  have horder : detached.order = [0, 2] := by cbv
  have hreach : ∀ b, detached.Reachable b ↔ b = 0 ∨ b = 2 := by
    intro b
    rw [← detached.mem_order_iff hp, horder]
    simp
  have hnames : ∀ name, detached.Names name → name = "scope" ∨ name = "repo" := by
    rintro name ⟨b, hr, e, he, rfl⟩
    rcases (hreach b).1 hr with rfl | rfl
    · have hall : ∀ e ∈ detached.eventsIn 0, e.subject = "scope" ∨ e.subject = "repo" := by decide
      exact hall e he
    · have hall : ∀ e ∈ detached.eventsIn 2, e.subject = "scope" ∨ e.subject = "repo" := by decide
      exact hall e he
  constructor
  · intro name b hname hsome
    rcases hnames name hname with rfl | rfl
    · exact ⟨0, Nat.zero_le b, (hreach 0).2 (.inl rfl), by decide⟩
    · -- the value is no handle
      have hvalue : ∀ c ∈ detached.events.filterMap Event.created?, c.name ≠ "repo" := by decide
      obtain ⟨c, hc, hrepo⟩ := List.find?_isSome.1 hsome
      obtain ⟨e, he, hcreated⟩ := List.mem_filterMap.1 hc
      have hmem : e ∈ detached.events := Procedure.mem_events_iff.2 ⟨b, he⟩
      exact absurd (eq_of_beq hrepo) (hvalue c (List.mem_filterMap.2 ⟨e, hmem, hcreated⟩))
  · intro value b hname hvalue hsome
    rcases hnames value hname with rfl | rfl
    · exact absurd hvalue (by decide)
    · obtain ⟨source, hsource⟩ := Option.isSome_iff_exists.1 hsome
      obtain ⟨e, he, -⟩ := List.mem_filterMap.1 (List.mem_of_getLast? hsource)
      have hlt : b < 3 := Procedure.lt_length_of_mem_eventsIn he
      exact ⟨2, Nat.le_of_lt_succ hlt, (hreach 2).2 (.inr rfl), by decide⟩

theorem detached_pruned :
    detached.analyze = .ok [Scope.useAfterDispose ⟨"scope", .scope, false, .manual, ⟨"a", 1, 0⟩⟩
      "repo" ⟨"a", 8, 0⟩] ∧
    detached.SelfContained ∧
    detached.pruned.analyze = .ok [Scope.useAfterDispose
      ⟨"scope", .scope, false, .manual, ⟨"a", 1, 0⟩⟩ "repo" ⟨"a", 8, 0⟩] := by
  have hok : detached.analyze = .ok [Scope.useAfterDispose
      ⟨"scope", .scope, false, .manual, ⟨"a", 1, 0⟩⟩ "repo" ⟨"a", 8, 0⟩] :=
    Procedure.analyze_eq_ok_iff.2 ⟨by decide, by cbv⟩
  exact ⟨hok, selfContained_detached, Procedure.analyze_pruned hok selfContained_detached⟩

/-- An unreachable block creates a scope in a statement that releases it, before a reachable block
creates it by hand. -/
def shielded : Procedure :=
  ⟨"Run", false,
    [⟨[], [2]⟩,
      ⟨[.create "scope" .scope false .usingStatement ⟨"a", 1, 0⟩], [2]⟩,
      ⟨[.create "scope" .scope false .manual ⟨"a", 2, 0⟩], []⟩]⟩

theorem shielded_pruned :
    shielded.analyze = .ok [] ∧
    shielded.pruned.analyze =
      .ok [Scope.undisposed shielded ⟨"scope", .scope, false, .manual, ⟨"a", 2, 0⟩⟩] := by
  have hpruned : shielded.pruned =
      { shielded with blocks := shielded.blocks.set 1 ⟨[], [2]⟩ } := by cbv
  rw [hpruned, Procedure.analyze_eq_ok_iff, Procedure.analyze_eq_ok_iff]
  exact ⟨⟨by decide, by cbv⟩, by decide, by cbv⟩

/-- An unreachable block resolves a value from another scope than the reachable one. -/
def misled : Procedure :=
  ⟨"Run", false,
    [⟨[.create "first" .scope false .usingStatement ⟨"a", 1, 0⟩,
        .create "second" .scope false .usingStatement ⟨"a", 2, 0⟩,
        .resolve "first" "repo" ⟨"a", 3, 0⟩, .dispose "first" ⟨"a", 4, 0⟩,
        .use "repo" ⟨"a", 5, 0⟩], []⟩,
      ⟨[.resolve "second" "repo" ⟨"a", 6, 0⟩], []⟩]⟩

theorem misled_pruned :
    misled.analyze = .ok [] ∧
    misled.pruned.analyze = .ok [Scope.useAfterDispose
      ⟨"first", .scope, false, .usingStatement, ⟨"a", 1, 0⟩⟩ "repo" ⟨"a", 5, 0⟩] := by
  have hpruned : misled.pruned = { misled with blocks := misled.blocks.set 1 ⟨[], []⟩ } := by cbv
  rw [hpruned, Procedure.analyze_eq_ok_iff, Procedure.analyze_eq_ok_iff]
  exact ⟨⟨by decide, by cbv⟩, by decide, by cbv⟩

end Wiring
