import Mathlib.Data.List.Induction
import Wiring.Proofs.Graph
import Wiring.Proofs.Scope.Walks

/-!
# Handles and the events that act on them

A handle is described by its first creation, in block then event order. The states in which a list
of events leaves it can be read off the events themselves: the last event that acts on the handle
says whether it is created or disposed, and it is escaped if it escapes after its last creation.

Results:
1. `States.created_run_iff`, `States.disposed_run_iff`, `States.escaped_run_iff`: the states that
   events leave.
2. `Procedure.mem_handles_iff`: the handles are the first creations.
3. `Procedure.derivedFrom?_eq`: a value belongs to the handle that it was last resolved from.
-/

namespace Wiring

namespace Event

/-- Whether the event acts on the handle itself. -/
def touches (handle : String) : Event → Bool
  | .create h _ _ _ _ => h == handle
  | .dispose h _ => h == handle
  | .escape v _ _ => v == handle
  | _ => false

/-- Whether the event creates a handle. -/
def isCreate : Event → Bool
  | .create _ _ _ _ _ => true
  | _ => false

/-- Whether the event disposes a handle. -/
def isDispose : Event → Bool
  | .dispose _ _ => true
  | _ => false

/-- Whether the event lets a value leave the procedure. -/
def isEscape : Event → Bool
  | .escape _ _ _ => true
  | _ => false

/-- The handle that the event resolves the value from. -/
def resolvedFrom? (value : String) : Event → Option String
  | .resolve h r _ => if r = value then some h else none
  | _ => none

end Event

/-! ## Where events leave a handle -/

/-- Nothing happens to the handle. -/
def Untouched (handle : String) (es : List Event) : Prop :=
  es.filter (Event.touches handle) = []

/-- The last thing that happens to the handle is its creation. -/
def LeavesCreated (handle : String) (es : List Event) : Prop :=
  ∃ e, (es.filter (Event.touches handle)).getLast? = some e ∧ e.isCreate

/-- The last thing that happens to the handle is its disposal. -/
def LeavesDisposed (handle : String) (es : List Event) : Prop :=
  ∃ e, (es.filter (Event.touches handle)).getLast? = some e ∧ e.isDispose

/-- The handle escapes after its last creation; disposal does not undo that. -/
def LeavesEscaped (handle : String) (es : List Event) : Prop :=
  ∃ e, (es.filter (fun e => e.touches handle && !e.isDispose)).getLast? = some e ∧ e.isEscape

/-- The last event of a kind, when one more event comes. -/
theorem getLast?_filter_concat (q : Event → Bool) (es : List Event) (e : Event) :
    ((es ++ [e]).filter q).getLast? = if q e then some e else (es.filter q).getLast? := by
  rw [List.filter_append, List.getLast?_append]
  cases hq : q e with
  | true => simp [hq]
  | false => simp [hq]

namespace States

theorem run_concat (handle : String) (s : States) (es : List Event) (e : Event) :
    run handle s (es ++ [e]) = after handle (run handle s es) e := by
  rw [run_append]
  rfl

theorem after_of_touches_eq_false {handle : String} {e : Event} (h : e.touches handle = false)
    (s : States) : after handle s e = s := by
  cases e with
  | create n _ _ _ _ | dispose n _ | escape n _ _ =>
    have hn : n ≠ handle := fun heq => by simp [Event.touches, heq] at h
    simp only [after, if_neg hn]
  | resolve _ _ _ | use _ _ => rfl

theorem after_of_touches {handle : String} {e : Event} (h : e.touches handle) (s : States) :
    after handle s e = ⟨e.isCreate, e.isDispose, e.isEscape || (e.isDispose && s.escaped)⟩ := by
  cases e with
  | create n _ _ _ _ | dispose n _ | escape n _ _ =>
    have hn : n = handle := by simpa [Event.touches] using h
    simp only [after, if_pos hn, Event.isCreate, Event.isDispose, Event.isEscape, onlyCreated,
      onlyEscaped, Bool.false_or, Bool.true_and, Bool.false_and, Bool.or_false]
  | resolve _ _ _ | use _ _ => exact Bool.noConfusion h

/-- A part of the states that some events set and the others keep tells which of these events came
last. -/
theorem run_iff_getLast? {handle : String} {part : States → Bool} {sets gives : Event → Bool}
    (hnone : part none = false)
    (hafter : ∀ s e, part (after handle s e) = if sets e then gives e else part s)
    (es : List Event) :
    part (run handle none es) ↔ ∃ e, (es.filter sets).getLast? = some e ∧ gives e := by
  induction es using List.reverseRecOn with
  | nil =>
    rw [show run handle none [] = none from rfl, hnone]
    simp
  | append_singleton es e ih =>
    rw [run_concat, hafter, getLast?_filter_concat]
    cases sets e with
    | true => simp
    | false => exact ih

section Run

variable (handle : String) (es : List Event)

theorem created_run_iff : (run handle .none es).created ↔ LeavesCreated handle es := by
  refine run_iff_getLast? rfl (fun s e => ?_) es
  cases he : e.touches handle with
  | true => rw [after_of_touches he, if_pos rfl]
  | false => rw [after_of_touches_eq_false he, if_neg Bool.false_ne_true]

theorem disposed_run_iff : (run handle .none es).disposed ↔ LeavesDisposed handle es := by
  refine run_iff_getLast? rfl (fun s e => ?_) es
  cases he : e.touches handle with
  | true => rw [after_of_touches he, if_pos rfl]
  | false => rw [after_of_touches_eq_false he, if_neg Bool.false_ne_true]

theorem escaped_run_iff : (run handle .none es).escaped ↔ LeavesEscaped handle es := by
  refine run_iff_getLast? rfl (fun s e => ?_) es
  cases he : e.touches handle with
  | true =>
    rw [after_of_touches he]
    cases e with
    | create _ _ _ _ _ | dispose _ _ | escape _ _ _ =>
      simp [Event.isDispose, Event.isEscape]
    | resolve _ _ _ | use _ _ => exact Bool.noConfusion he
  | false => rw [after_of_touches_eq_false he, Bool.false_and, if_neg Bool.false_ne_true]

/-- Untouched or created is the same as neither disposed nor escaped. -/
theorem untouched_or_created_iff :
    Untouched handle es ∨ LeavesCreated handle es ↔
      ¬ LeavesDisposed handle es ∧ ¬ LeavesEscaped handle es := by
  rw [← created_run_iff, ← disposed_run_iff, ← escaped_run_iff]
  induction es using List.reverseRecOn with
  | nil => simp [Untouched, run, none]
  | append_singleton es e ih =>
    rw [run_concat, Untouched, List.filter_append]
    cases he : e.touches handle with
    | true =>
      rw [after_of_touches he]
      cases e with
      | create _ _ _ _ _ | dispose _ _ | escape _ _ _ =>
        simp [he, Event.isCreate, Event.isDispose, Event.isEscape]
      | resolve _ _ _ | use _ _ => exact Bool.noConfusion he
    | false => simpa [after_of_touches_eq_false he, Untouched, he] using ih

end Run

end States

/-! ## First creations -/

namespace Handle

/-- The names that events create. -/
def namesIn (es : List Event) : List String :=
  (es.filterMap Event.created?).map Handle.name

theorem mem_createdBy_iff {c : Handle} {known : List String} {es : List Event} :
    c ∈ createdBy known es ↔ c.name ∉ known ∧
      (es.filterMap Event.created?).find? (fun h => h.name == c.name) = some c := by
  induction es generalizing known with
  | nil => simp [createdBy]
  | cons e es ih =>
    rw [createdBy, List.filterMap_cons]
    cases he : e.created? with
    | none => exact ih
    | some h =>
      simp only [List.find?_cons]
      split
      · next hk =>
        -- a name that is known already: neither side takes this creation
        have hk : h.name ∈ known := List.contains_iff_mem.1 hk
        rw [ih]
        cases hn : h.name == c.name with
        | true =>
          have hc : c.name ∈ known := eq_of_beq hn ▸ hk
          exact ⟨fun hm => absurd hc hm.1, fun hm => absurd hc hm.1⟩
        | false => rfl
      · next hk =>
        -- a new name: this creation is the first of its name, and known from here on
        have hk : h.name ∉ known := fun hm => hk (List.contains_iff_mem.2 hm)
        rw [List.mem_cons, ih]
        cases hn : h.name == c.name with
        | true =>
          have heq : h.name = c.name := eq_of_beq hn
          constructor
          · rintro (rfl | ⟨hm, -⟩)
            · exact ⟨hk, rfl⟩
            · exact absurd (heq ▸ List.mem_cons_self) hm
          · rintro ⟨-, hm⟩
            exact Or.inl (Option.some.inj hm).symm
        | false =>
          have hne : h.name ≠ c.name := ne_of_beq_false hn
          constructor
          · rintro (rfl | ⟨hm, hf⟩)
            · exact absurd rfl hne
            · exact ⟨fun hm' => hm (List.mem_cons_of_mem _ hm'), hf⟩
          · rintro ⟨hm, hf⟩
            refine Or.inr ⟨fun hm' => ?_, hf⟩
            rcases List.mem_cons.1 hm' with hm' | hm'
            · exact hne hm'.symm
            · exact hm hm'

theorem nodup_names_createdBy (known : List String) (es : List Event) :
    ((createdBy known es).map Handle.name).Nodup := by
  induction es generalizing known with
  | nil => exact List.nodup_nil
  | cons e es ih =>
    rw [createdBy]
    cases e.created? with
    | none => exact ih known
    | some h =>
      simp only
      split
      · exact ih known
      · rw [List.map_cons, List.nodup_cons]
        refine ⟨fun hm => ?_, ih _⟩
        obtain ⟨c, hc, hn⟩ := List.mem_map.1 hm
        exact (mem_createdBy_iff.1 hc).1 (hn ▸ List.mem_cons_self)

end Handle

namespace Procedure

theorem events_eq_flatMap (p : Procedure) :
    p.events = (List.range p.blocks.length).flatMap p.eventsIn := by
  unfold events
  rw [List.flatMap_def, List.flatMap_def]
  refine congrArg List.flatten (List.ext_getElem (by simp) (fun b hb hb' => ?_))
  have hlt : b < p.blocks.length := by simpa using hb
  simp [eventsIn, Flow.eventsOf, Flow.of, hlt]

theorem lt_length_of_mem_eventsIn {p : Procedure} {b : Nat} {e : Event} (h : e ∈ p.eventsIn b) :
    b < p.blocks.length := by
  by_contra hb
  simp [eventsIn, Flow.eventsOf, Flow.of, List.getElem?_eq_none (Nat.le_of_not_lt hb)] at h

theorem mem_events_iff {p : Procedure} {e : Event} : e ∈ p.events ↔ ∃ b, e ∈ p.eventsIn b := by
  rw [events_eq_flatMap, List.mem_flatMap]
  constructor
  · rintro ⟨b, -, he⟩
    exact ⟨b, he⟩
  · rintro ⟨b, he⟩
    exact ⟨b, List.mem_range.2 (lt_length_of_mem_eventsIn he), he⟩

/-- The first creation of a handle, in block then event order. -/
def firstCreation? (p : Procedure) (name : String) : Option Handle :=
  (p.events.filterMap Event.created?).find? (fun h => h.name == name)

/-- The handle of the last event that resolves the value, in block then event order. -/
def lastSource? (p : Procedure) (value : String) : Option String :=
  (p.events.filterMap (Event.resolvedFrom? value)).getLast?

theorem nodup_names (p : Procedure) : (p.handles.map Handle.name).Nodup :=
  Handle.nodup_names_createdBy [] p.events

theorem nodup_handles (p : Procedure) : p.handles.Nodup :=
  List.Pairwise.of_map Handle.name (fun _ _ hne heq => hne (congrArg _ heq)) p.nodup_names

theorem name_of_firstCreation? {p : Procedure} {name : String} {c : Handle}
    (h : p.firstCreation? name = some c) : c.name = name := by
  simpa using List.find?_some h

theorem mem_handles_iff {p : Procedure} {c : Handle} :
    c ∈ p.handles ↔ p.firstCreation? c.name = some c := by
  rw [handles, Handle.mem_createdBy_iff]
  exact and_iff_right List.not_mem_nil

theorem find?_handles (p : Procedure) (name : String) :
    Handle.find? p.handles name = p.firstCreation? name := by
  refine Option.ext (fun c => ?_)
  rw [Handle.find?, find?_eq_some_iff_of_nodup p.nodup_names, mem_handles_iff]
  constructor
  · rintro ⟨h, rfl⟩
    exact h
  · intro h
    obtain rfl := name_of_firstCreation? h
    exact ⟨h, rfl⟩

theorem firstCreation?_eq_none_iff {p : Procedure} {name : String} :
    p.firstCreation? name = none ↔ name ∉ Handle.namesIn p.events := by
  rw [firstCreation?, List.find?_eq_none, Handle.namesIn, List.mem_map]
  simp

theorem derivedFrom?_cons (value : String) (e : Event) (es : List Event) :
    derivedFrom? value (e :: es) = (derivedFrom? value es).or (e.resolvedFrom? value) := by
  cases e <;> simp only [derivedFrom?] <;> cases derivedFrom? value es <;> rfl

theorem derivedFrom?_eq (value : String) (es : List Event) :
    derivedFrom? value es = (es.filterMap (Event.resolvedFrom? value)).getLast? := by
  induction es with
  | nil => rfl
  | cons e es ih =>
    rw [derivedFrom?_cons, ih, List.filterMap_cons]
    cases e.resolvedFrom? value with
    | none => exact Option.or_none
    | some h =>
      rw [List.getLast?_cons]
      cases (es.filterMap (Event.resolvedFrom? value)).getLast? <;> rfl

end Procedure

end Wiring
