import Wiring.Trace

/-!
# States of a handle

At each point of a procedure a handle may be in several states, as different ways lead there.
Where ways meet the sets of states are joined. Events act on sets as they do on single states, and
a larger set before an event gives a larger one after it.
-/

namespace Wiring

/-- The set of states that a handle may be in; empty as long as nothing has happened to it. -/
structure States where
  created : Bool
  disposed : Bool
  escaped : Bool
deriving DecidableEq, Repr, Inhabited

namespace States

/-- Nothing has happened. -/
def none : States :=
  ⟨false, false, false⟩

/-- Created, and nothing else. -/
def onlyCreated : States :=
  ⟨true, false, false⟩

/-- Disposed, and nothing else. -/
def onlyDisposed : States :=
  ⟨false, true, false⟩

/-- Escaped, and nothing else. -/
def onlyEscaped : States :=
  ⟨false, false, true⟩

/-- The states of either set. -/
def union (a b : States) : States :=
  ⟨a.created || b.created, a.disposed || b.disposed, a.escaped || b.escaped⟩

/-- The number of states in the set. -/
def weight (s : States) : Nat :=
  s.created.toNat + s.disposed.toNat + s.escaped.toNat

/-- Inclusion of sets. -/
protected def le (a b : States) : Prop :=
  (a.created → b.created) ∧ (a.disposed → b.disposed) ∧ (a.escaped → b.escaped)

instance : LE States := ⟨States.le⟩

/-- What an event does to the handle: creation starts over, disposal keeps an escape, and an escape
of the handle itself hands it on. -/
def after (handle : String) (s : States) : Event → States
  | .create h _ _ _ _ => if h = handle then onlyCreated else s
  | .dispose h _ => if h = handle then ⟨false, true, s.escaped⟩ else s
  | .resolve _ _ _ => s
  | .escape v _ _ => if v = handle then onlyEscaped else s
  | .use _ _ => s

/-- What a list of events does to the handle. -/
def run (handle : String) (s : States) (es : List Event) : States :=
  es.foldl (after handle) s

/-! ## Order -/

protected theorem le_refl (a : States) : a ≤ a :=
  ⟨id, id, id⟩

protected theorem le_trans {a b c : States} (h : a ≤ b) (k : b ≤ c) : a ≤ c :=
  ⟨k.1 ∘ h.1, k.2.1 ∘ h.2.1, k.2.2 ∘ h.2.2⟩

theorem none_le (a : States) : none ≤ a :=
  ⟨(nomatch ·), (nomatch ·), (nomatch ·)⟩

theorem union_le_union {a b c d : States} (h : a ≤ c) (k : b ≤ d) : a.union b ≤ c.union d := by
  obtain ⟨h1, h2, h3⟩ := h
  obtain ⟨k1, k2, k3⟩ := k
  simp only [union]
  refine ⟨?_, ?_, ?_⟩ <;> simp only [Bool.or_eq_true]
  · exact Or.imp h1 k1
  · exact Or.imp h2 k2
  · exact Or.imp h3 k3

theorem weight_le (a : States) : a.weight ≤ 3 := by
  obtain ⟨c, d, e⟩ := a
  cases c <;> cases d <;> cases e <;> decide

theorem weight_mono {a b : States} (h : a ≤ b) : a.weight ≤ b.weight := by
  obtain ⟨c, d, e⟩ := a
  obtain ⟨c', d', e'⟩ := b
  obtain ⟨h1, h2, h3⟩ := h
  cases c <;> cases d <;> cases e <;> cases c' <;> cases d' <;> cases e' <;> simp_all [weight]

theorem eq_of_weight_eq {a b : States} (h : a ≤ b) (hw : a.weight = b.weight) : a = b := by
  obtain ⟨c, d, e⟩ := a
  obtain ⟨c', d', e'⟩ := b
  obtain ⟨h1, h2, h3⟩ := h
  cases c <;> cases d <;> cases e <;> cases c' <;> cases d' <;> cases e' <;> simp_all [weight]

theorem after_mono {handle : String} {a b : States} (h : a ≤ b) (e : Event) :
    after handle a e ≤ after handle b e := by
  cases e with
  | create h' _ _ _ _ =>
    simp only [after]
    split
    · exact States.le_refl _
    · exact h
  | dispose h' _ =>
    simp only [after]
    split
    · exact ⟨id, id, h.2.2⟩
    · exact h
  | resolve _ _ _ => exact h
  | escape v _ _ =>
    simp only [after]
    split
    · exact States.le_refl _
    · exact h
  | use _ _ => exact h

theorem run_mono {handle : String} {a b : States} (h : a ≤ b) (es : List Event) :
    run handle a es ≤ run handle b es := by
  induction es generalizing a b with
  | nil => exact h
  | cons e es ih => exact ih (after_mono h e)

end States

end Wiring
