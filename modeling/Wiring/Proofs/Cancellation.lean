import Mathlib.Data.List.Basic
import Wiring.Cancellation

/-!
# Which tokens a cancellation reaches

Tokens are named by place. A place is filled with a new token, with a child of the token at an
earlier place, or with the token of an earlier place once more. So the steps alone tell which tokens
a cancellation reaches: those at places that come from the cancelled one. This module shows that the
tokens themselves, which look for requests along the line of their parents, give the same answers.

Results:
1. `Tokens.Follows.step`, `Tokens.follows_of_after?`: tokens and requests are what the steps say.
2. `Tokens.Holds.reaches_iff`: a place is reached from another if it holds the token that is there
   or a descendant of it.
3. `Tokens.answers_after`: a token is cancelled exactly if a cancellation or a deadline reaches
   it. Parents and siblings are not reached, and no token recovers.
-/

namespace Wiring

/-! ## A token and its ancestors -/

namespace Token

theorem mem_lineage_self (t : Token) : t ∈ t.lineage := by
  cases t with
  | root i d => exact List.mem_cons_self
  | child i p => exact List.mem_cons_self

theorem isDue_iff {now : Nat} {deadline : Option Nat} :
    isDue now deadline = true ↔ ∃ d, deadline = some d ∧ d ≤ now := by
  cases deadline with
  | none => simp [isDue]
  | some d => simp [isDue]

/-- A token is cancelled if this was asked of it or of an ancestor, or if the deadline of one of
these has come. -/
theorem isCancelled_iff {requested : List Nat} {now : Nat} {t : Token} :
    t.isCancelled requested now = true ↔
      ∃ a ∈ t.lineage, a.id ∈ requested ∨ ∃ d, a.deadline = some d ∧ d ≤ now := by
  induction t with
  | root i d => simp [isCancelled, lineage, id, deadline, isDue_iff]
  | child i p ih => simp [isCancelled, lineage, id, deadline, ih]

end Token

/-! ## What the steps say -/

/-- Whether the step issues a token. -/
def TokenStep.issues : TokenStep → Bool
  | .create _ => true
  | .child _ => true
  | .clone _ => true
  | .cancel _ => false

namespace Tokens

/-- The steps that issue tokens. The place of a token is that of its step among these. -/
def issuing (steps : List TokenStep) : List TokenStep :=
  steps.filter TokenStep.issues

/-- Cancelling the token at the first place cancels the one at the second: it is the same token, or
it comes from this one through any number of children. -/
inductive Reaches (steps : List TokenStep) : Nat → Nat → Prop
  | self (i : Nat) : Reaches steps i i
  | child {i j k : Nat} :
      (issuing steps)[k]? = some (.child j) → Reaches steps i j → Reaches steps i k
  | clone {i j k : Nat} :
      (issuing steps)[k]? = some (.clone j) → Reaches steps i j → Reaches steps i k
  | original {i j k : Nat} :
      (issuing steps)[k]? = some (.clone i) → Reaches steps i j → Reaches steps k j

/-- A step has cancelled the token at the place, or the token was made with a deadline that has
come. -/
def Stopped (steps : List TokenStep) (now i : Nat) : Prop :=
  .cancel i ∈ steps ∨ ∃ d, (issuing steps)[i]? = some (.create (some d)) ∧ d ≤ now

/-- The token that the steps put at a place. -/
inductive Holds (steps : List TokenStep) : Nat → Token → Prop
  | root {k : Nat} {d : Option Nat} :
      (issuing steps)[k]? = some (.create d) → Holds steps k (.root k d)
  | child {k p : Nat} {t : Token} :
      (issuing steps)[k]? = some (.child p) → p < k → Holds steps p t → Holds steps k (.child k t)
  | clone {k p : Nat} {t : Token} :
      (issuing steps)[k]? = some (.clone p) → p < k → Holds steps p t → Holds steps k t

section Steps

variable {steps : List TokenStep}

theorem issuing_append (more : List TokenStep) :
    issuing (steps ++ more) = issuing steps ++ issuing more :=
  List.filter_append _ _

theorem issuing_concat {s : TokenStep} (hs : s.issues = true) :
    issuing (steps ++ [s]) = issuing steps ++ [s] := by
  rw [issuing_append]
  exact congrArg _ (List.filter_cons_of_pos hs)

theorem issuing_concat_cancel (i : Nat) : issuing (steps ++ [.cancel i]) = issuing steps := by
  rw [issuing_append]
  exact List.append_nil _

theorem getElem?_issuing_append {i : Nat} {s : TokenStep} (more : List TokenStep)
    (h : (issuing steps)[i]? = some s) : (issuing (steps ++ more))[i]? = some s := by
  obtain ⟨hi, -⟩ := List.getElem?_eq_some_iff.1 h
  rw [issuing_append, List.getElem?_append_left hi, h]

theorem Reaches.append {i j : Nat} (h : Reaches steps i j) (more : List TokenStep) :
    Reaches (steps ++ more) i j := by
  induction h with
  | self i => exact .self i
  | child hk _ ih => exact .child (getElem?_issuing_append more hk) ih
  | clone hk _ ih => exact .clone (getElem?_issuing_append more hk) ih
  | original hk _ ih => exact .original (getElem?_issuing_append more hk) ih

theorem reaches_concat_cancel_iff {i j k : Nat} :
    Reaches (steps ++ [.cancel k]) i j ↔ Reaches steps i j := by
  refine ⟨fun h => ?_, fun h => h.append _⟩
  induction h with
  | self i => exact .self i
  | child hk _ ih => exact .child (issuing_concat_cancel k ▸ hk) ih
  | clone hk _ ih => exact .clone (issuing_concat_cancel k ▸ hk) ih
  | original hk _ ih => exact .original (issuing_concat_cancel k ▸ hk) ih

theorem Stopped.append {now now' i : Nat} (h : Stopped steps now i) (hnow : now ≤ now')
    (more : List TokenStep) : Stopped (steps ++ more) now' i := by
  rcases h with hcancel | ⟨d, hd, hle⟩
  · exact .inl (List.mem_append_left _ hcancel)
  · exact .inr ⟨d, getElem?_issuing_append more hd, Nat.le_trans hle hnow⟩

theorem stopped_concat_cancel_iff {now i j : Nat} :
    Stopped (steps ++ [.cancel i]) now j ↔ Stopped steps now j ∨ j = i := by
  unfold Stopped
  rw [issuing_concat_cancel, List.mem_append, List.mem_singleton, TokenStep.cancel.injEq]
  exact or_right_comm

theorem Holds.append {k : Nat} {t : Token} (h : Holds steps k t) (more : List TokenStep) :
    Holds (steps ++ more) k t := by
  induction h with
  | root hk => exact .root (getElem?_issuing_append more hk)
  | child hk hlt _ ih => exact .child (getElem?_issuing_append more hk) hlt ih
  | clone hk hlt _ ih => exact .clone (getElem?_issuing_append more hk) hlt ih

theorem Holds.lt_length {k : Nat} {t : Token} (h : Holds steps k t) :
    k < (issuing steps).length := by
  cases h with
  | root hk => exact (List.getElem?_eq_some_iff.1 hk).1
  | child hk _ _ => exact (List.getElem?_eq_some_iff.1 hk).1
  | clone hk _ _ => exact (List.getElem?_eq_some_iff.1 hk).1

/-! A place is filled by one step, which leaves one way to hold a token. -/

theorem Holds.of_create {k : Nat} {t : Token} (h : Holds steps k t) {d : Option Nat}
    (hk : (issuing steps)[k]? = some (.create d)) : t = .root k d := by
  cases h with
  | root hk' => cases hk.symm.trans hk'; rfl
  | child hk' _ _ => cases hk.symm.trans hk'
  | clone hk' _ _ => cases hk.symm.trans hk'

theorem Holds.of_child {k p : Nat} {t : Token} (h : Holds steps k t)
    (hk : (issuing steps)[k]? = some (.child p)) :
    p < k ∧ ∃ u, t = .child k u ∧ Holds steps p u := by
  cases h with
  | root hk' => cases hk.symm.trans hk'
  | child hk' hlt hp => cases hk.symm.trans hk'; exact ⟨hlt, _, rfl, hp⟩
  | clone hk' _ _ => cases hk.symm.trans hk'

theorem Holds.of_clone {k p : Nat} {t : Token} (h : Holds steps k t)
    (hk : (issuing steps)[k]? = some (.clone p)) : Holds steps p t := by
  cases h with
  | root hk' => cases hk.symm.trans hk'
  | child hk' _ _ => cases hk.symm.trans hk'
  | clone hk' _ hp => cases hk.symm.trans hk'; exact hp

/-- A place holds one token. -/
theorem Holds.unique {k : Nat} {t u : Token} (ht : Holds steps k t) (hu : Holds steps k u) :
    t = u := by
  induction ht generalizing u with
  | root hk => exact (hu.of_create hk).symm
  | child hk _ _ ih =>
    obtain ⟨-, v, rfl, hv⟩ := hu.of_child hk
    rw [ih hv]
  | clone hk _ _ ih => exact ih (hu.of_clone hk)

/-! ## Places and numbers -/

/-- A token has the number of the first place that holds it. -/
theorem Holds.id {k : Nat} {t : Token} (h : Holds steps k t) : t.id ≤ k ∧ Holds steps t.id t := by
  induction h with
  | root hk => exact ⟨Nat.le_refl _, .root hk⟩
  | child hk hlt hp _ => exact ⟨Nat.le_refl _, .child hk hlt hp⟩
  | clone _ hlt _ ih => exact ⟨Nat.le_trans ih.1 (Nat.le_of_lt hlt), ih.2⟩

theorem Holds.eq_of_id_eq {i j : Nat} {a t : Token} (ha : Holds steps i a) (ht : Holds steps j t)
    (hid : a.id = t.id) : a = t :=
  ha.id.2.unique (hid ▸ ht.id.2)

/-- The ancestors of a token have been issued before it. -/
theorem Holds.of_mem_lineage {k : Nat} {t a : Token} (h : Holds steps k t) (ha : a ∈ t.lineage) :
    a.id ≤ k ∧ Holds steps a.id a := by
  induction h with
  | root hk =>
    obtain rfl := List.mem_singleton.1 ha
    exact (Holds.root hk).id
  | child hk hlt hp ih =>
    rcases List.mem_cons.1 ha with rfl | ha
    · exact (Holds.child hk hlt hp).id
    · exact ⟨Nat.le_trans (ih ha).1 (Nat.le_of_lt hlt), (ih ha).2⟩
  | clone _ hlt _ ih => exact ⟨Nat.le_trans (ih ha).1 (Nat.le_of_lt hlt), (ih ha).2⟩

/-- A deadline is that of the step that made the token. -/
theorem Holds.exists_create_of_deadline {k : Nat} {t : Token} (h : Holds steps k t) {d : Nat}
    (hd : t.deadline = some d) : (issuing steps)[t.id]? = some (.create (some d)) := by
  induction h with
  | root hk =>
    obtain rfl : _ = some d := hd
    exact hk
  | child _ _ _ _ => cases hd
  | clone _ _ _ ih => exact ih hd

/-! ## Reached places -/

theorem Holds.mem_lineage_of_reaches {i j : Nat} (hreach : Reaches steps i j) {a t : Token}
    (ha : Holds steps i a) (ht : Holds steps j t) : a ∈ t.lineage := by
  induction hreach generalizing a t with
  | self i =>
    rw [ha.unique ht]
    exact t.mem_lineage_self
  | child hk _ ih =>
    obtain ⟨-, p, rfl, hp⟩ := ht.of_child hk
    exact List.mem_cons_of_mem _ (ih ha hp)
  | clone hk _ ih => exact ih ha (ht.of_clone hk)
  | original hk _ ih => exact ih (ha.of_clone hk) ht

/-- From any place of a token its first place is reached. -/
theorem Holds.reaches_id {i : Nat} {a : Token} (h : Holds steps i a) : Reaches steps i a.id := by
  induction h with
  | root _ => exact .self _
  | child _ _ _ _ => exact .self _
  | clone hk _ _ ih => exact .original hk ih

theorem Holds.reaches_of_mem_lineage {i j : Nat} {a t : Token} (ha : Holds steps i a)
    (ht : Holds steps j t) (hmem : a ∈ t.lineage) : Reaches steps i j := by
  induction ht with
  | root _ =>
    obtain rfl := List.mem_singleton.1 hmem
    exact ha.reaches_id
  | child hk _ _ ih =>
    rcases List.mem_cons.1 hmem with rfl | hmem
    · exact ha.reaches_id
    · exact .child hk (ih hmem)
  | clone hk _ _ ih => exact .clone hk (ih hmem)

theorem Holds.reaches_iff {i j : Nat} {a t : Token} (ha : Holds steps i a) (ht : Holds steps j t) :
    Reaches steps i j ↔ a ∈ t.lineage :=
  ⟨fun hreach => mem_lineage_of_reaches hreach ha ht, ha.reaches_of_mem_lineage ht⟩

end Steps

/-! ## Tokens and requests after some steps -/

/-- The tokens are those that the steps issue, and the requests are those that the steps make. -/
structure Follows (steps : List TokenStep) (ts : Tokens) : Prop where
  length_eq : ts.issued.length = (issuing steps).length
  holds : ∀ k t, ts.issued[k]? = some t → Holds steps k t
  requested : ∀ id ∈ ts.requested, ∃ i t, .cancel i ∈ steps ∧ Holds steps i t ∧ t.id = id
  cancelled : ∀ i, .cancel i ∈ steps → ∃ t, Holds steps i t ∧ t.id ∈ ts.requested

theorem Follows.start : Follows [] empty where
  length_eq := rfl
  holds k t h := by cases h
  requested id h := by cases h
  cancelled i h := by cases h

section Follows

variable {steps : List TokenStep} {ts : Tokens} (h : Follows steps ts)

include h

theorem Follows.getElem?_eq_some_iff {k : Nat} {t : Token} :
    ts.issued[k]? = some t ↔ Holds steps k t := by
  refine ⟨h.holds k t, fun ht => ?_⟩
  have hk := List.getElem?_eq_getElem (h.length_eq ▸ ht.lt_length)
  rw [hk, (h.holds k _ hk).unique ht]

/-- A step that issues a token fills the next place. -/
theorem Follows.issue {s : TokenStep} (hs : s.issues = true) {t : Token}
    (ht : Holds (steps ++ [s]) ts.issued.length t) : Follows (steps ++ [s]) (ts.issue t) where
  length_eq := by simp [Tokens.issue, issuing_concat hs, h.length_eq]
  holds k u hk := by
    rw [Tokens.issue, List.getElem?_append] at hk
    split at hk
    · exact (h.holds k u hk).append _
    · obtain ⟨hlt, rfl⟩ := List.getElem?_eq_some_iff.1 hk
      obtain rfl : k = ts.issued.length := by
        rw [List.length_singleton] at hlt
        omega
      simpa using ht
  requested id hid := by
    obtain ⟨i, u, hi, hu, hid⟩ := h.requested id hid
    exact ⟨i, u, List.mem_append_left _ hi, hu.append _, hid⟩
  cancelled i hi := by
    rcases List.mem_append.1 hi with hi | hi
    · obtain ⟨u, hu, hid⟩ := h.cancelled i hi
      exact ⟨u, hu.append _, hid⟩
    · rw [← List.mem_singleton.1 hi] at hs
      cases hs

/-- A cancellation leaves the places as they are. -/
theorem Follows.cancel {i : Nat} {t : Token} (ht : Holds steps i t) :
    Follows (steps ++ [.cancel i]) (ts.cancel t) where
  length_eq := by
    rw [issuing_concat_cancel]
    exact h.length_eq
  holds k u hk := (h.holds k u hk).append _
  requested id hid := by
    rcases List.mem_cons.1 hid with rfl | hid
    · exact ⟨i, t, List.mem_append_right _ List.mem_cons_self, ht.append _, rfl⟩
    · obtain ⟨j, u, hj, hu, hid⟩ := h.requested id hid
      exact ⟨j, u, List.mem_append_left _ hj, hu.append _, hid⟩
  cancelled j hj := by
    rcases List.mem_append.1 hj with hj | hj
    · obtain ⟨u, hu, hid⟩ := h.cancelled j hj
      exact ⟨u, hu.append _, List.mem_cons_of_mem _ hid⟩
    · obtain rfl := TokenStep.cancel.inj (List.mem_singleton.1 hj)
      exact ⟨t, ht.append _, List.mem_cons_self⟩

/-- One more step. -/
theorem Follows.step {s : TokenStep} {ts' : Tokens} (hs : ts.step? s = some ts') :
    Follows (steps ++ [s]) ts' := by
  have hnext : s.issues = true → (issuing (steps ++ [s]))[ts.issued.length]? = some s := by
    intro hissues
    rw [issuing_concat hissues, h.length_eq]
    exact List.getElem?_concat_length
  have hlt : ∀ {p t}, ts.issued[p]? = some t → p < ts.issued.length := fun hp =>
    (List.getElem?_eq_some_iff.1 hp).1
  cases s with
  | create d =>
    obtain rfl := Option.some.inj hs
    exact h.issue rfl (.root (hnext rfl))
  | child p =>
    obtain ⟨t, ht, rfl⟩ := Option.map_eq_some_iff.1 hs
    exact h.issue rfl (.child (hnext rfl) (hlt ht) ((h.holds p t ht).append _))
  | clone p =>
    obtain ⟨t, ht, rfl⟩ := Option.map_eq_some_iff.1 hs
    exact h.issue rfl (.clone (hnext rfl) (hlt ht) ((h.holds p t ht).append _))
  | cancel i =>
    obtain ⟨t, ht, rfl⟩ := Option.map_eq_some_iff.1 hs
    exact h.cancel (h.holds i t ht)

/-- Any number of steps more. -/
theorem Follows.run {more : List TokenStep} {ts' : Tokens}
    (hrun : more.foldlM step? ts = some ts') : Follows (steps ++ more) ts' := by
  induction more generalizing steps ts with
  | nil =>
    obtain rfl := Option.some.inj hrun
    rw [List.append_nil]
    exact h
  | cons s more ih =>
    rw [List.foldlM_cons] at hrun
    obtain ⟨next, hs, hrest⟩ := Option.bind_eq_some_iff.1 hrun
    have hmore := ih (h.step hs) hrest
    rwa [List.append_assoc] at hmore

/-- A token is cancelled if a place that was cancelled, or whose deadline has come, reaches it. -/
theorem Follows.isCancelled_iff {now j : Nat} {t : Token} (ht : ts.issued[j]? = some t) :
    ts.isCancelled now t = true ↔ ∃ i, Reaches steps i j ∧ Stopped steps now i := by
  have hj := h.holds j t ht
  rw [Tokens.isCancelled, Token.isCancelled_iff]
  constructor
  · rintro ⟨a, ha, hasked | ⟨d, hd, hle⟩⟩
    · obtain ⟨i, u, hi, hu, hid⟩ := h.requested _ hasked
      obtain rfl := hu.eq_of_id_eq (hj.of_mem_lineage ha).2 hid
      exact ⟨i, hu.reaches_of_mem_lineage hj ha, .inl hi⟩
    · have hown := (hj.of_mem_lineage ha).2
      exact ⟨a.id, hown.reaches_of_mem_lineage hj ha,
        .inr ⟨d, hown.exists_create_of_deadline hd, hle⟩⟩
  · rintro ⟨i, hreach, hi | ⟨d, hd, hle⟩⟩
    · obtain ⟨a, ha, hid⟩ := h.cancelled i hi
      exact ⟨a, (ha.reaches_iff hj).1 hreach, .inl hid⟩
    · have ha : Holds steps i (.root i (some d)) := .root hd
      exact ⟨_, (ha.reaches_iff hj).1 hreach, .inr ⟨d, rfl, hle⟩⟩

theorem Follows.holds_child {i p : Nat} (hi : (issuing steps)[i]? = some (.child p)) :
    p < i ∧ ∃ t, Holds steps p t ∧ Holds steps i (.child i t) := by
  have hlt : i < ts.issued.length := h.length_eq ▸ (List.getElem?_eq_some_iff.1 hi).1
  have hu := h.holds i _ (List.getElem?_eq_getElem hlt)
  obtain ⟨hp, t, heq, ht⟩ := hu.of_child hi
  exact ⟨hp, t, ht, heq ▸ hu⟩

/-- A child does not reach its parent. -/
theorem Follows.not_reaches_parent {i p : Nat} (hi : (issuing steps)[i]? = some (.child p)) :
    ¬ Reaches steps i p := by
  intro hreach
  obtain ⟨hlt, t, hp, hchild⟩ := h.holds_child hi
  have hmem := (hchild.reaches_iff hp).1 hreach
  exact Nat.not_le_of_lt hlt (hp.of_mem_lineage hmem).1

/-- A child does not reach another child of its parent. -/
theorem Follows.not_reaches_sibling {i j p : Nat} (hi : (issuing steps)[i]? = some (.child p))
    (hj : (issuing steps)[j]? = some (.child p)) (hne : i ≠ j) : ¬ Reaches steps i j := by
  intro hreach
  obtain ⟨hlt, t, hp, hchild⟩ := h.holds_child hi
  obtain ⟨-, u, hp', hchild'⟩ := h.holds_child hj
  obtain rfl := hp.unique hp'
  rcases List.mem_cons.1 ((hchild.reaches_iff hchild').1 hreach) with heq | hmem
  · exact hne (Token.child.inj heq).1
  · exact Nat.not_le_of_lt hlt (hp.of_mem_lineage hmem).1

end Follows

theorem follows_of_after? {steps : List TokenStep} {ts : Tokens} (h : after? steps = some ts) :
    Follows steps ts :=
  Follows.start.run h

/-! ## The answers -/

/-- What the steps so far make the tokens answer, now and later. -/
structure Answers (steps : List TokenStep) (ts : Tokens) : Prop where
  /-- There is one place for each step that issues a token. -/
  length_eq : ts.issued.length = (issuing steps).length
  isCancelled_iff : ∀ now j t, ts.issued[j]? = some t →
    (ts.isCancelled now t = true ↔ ∃ i, Reaches steps i j ∧ Stopped steps now i)
  /-- A cancellation changes the answers at the places that it reaches, and no others. -/
  cancel : ∀ i c, ts.issued[i]? = some c → ts.step? (.cancel i) = some (ts.cancel c) ∧
    ∀ now j t, ts.issued[j]? = some t →
      ((ts.cancel c).isCancelled now t = true ↔ ts.isCancelled now t = true ∨ Reaches steps i j)
  /-- It reaches children, but neither parents nor siblings. -/
  relatives : ∀ i p, (issuing steps)[i]? = some (.child p) →
    Reaches steps p i ∧ ¬ Reaches steps i p ∧
      ∀ j, (issuing steps)[j]? = some (.child p) → i ≠ j → ¬ Reaches steps i j
  /-- Whatever is done next, and however late it is, a cancelled token stays cancelled. -/
  stays : ∀ more ts', after? (steps ++ more) = some ts' → ∀ (now now' j : Nat) t, now ≤ now' →
    ts.issued[j]? = some t →
      ts'.issued[j]? = some t ∧ (ts.isCancelled now t = true → ts'.isCancelled now' t = true)

/-- After any steps a token is cancelled exactly if it, or one that it comes from, was cancelled or
was made with a deadline that has come. So a cancellation is felt by the token and its descendants
alone, and while time goes on no token recovers. -/
theorem answers_after {steps : List TokenStep} {ts : Tokens} (h : after? steps = some ts) :
    Answers steps ts where
  length_eq := (follows_of_after? h).length_eq
  isCancelled_iff _ _ _ ht := (follows_of_after? h).isCancelled_iff ht
  cancel i c hc := by
    have hfollows := follows_of_after? h
    have hstep : ts.step? (.cancel i) = some (ts.cancel c) := by rw [step?, hc]; rfl
    refine ⟨hstep, fun now j t ht => ?_⟩
    rw [(hfollows.step hstep).isCancelled_iff ht, hfollows.isCancelled_iff ht]
    simp only [reaches_concat_cancel_iff, stopped_concat_cancel_iff, and_or_left, exists_or]
    rw [exists_eq_right]
  relatives i p hi := by
    have hfollows := follows_of_after? h
    exact ⟨.child hi (.self p), hfollows.not_reaches_parent hi,
      fun j hj hne => hfollows.not_reaches_sibling hi hj hne⟩
  stays more ts' hmore now now' j t hnow ht := by
    have hfollows := follows_of_after? h
    have hlater := follows_of_after? hmore
    have ht' := hlater.getElem?_eq_some_iff.2 ((hfollows.holds j t ht).append more)
    refine ⟨ht', fun hcancelled => ?_⟩
    obtain ⟨i, hreach, hstopped⟩ := (hfollows.isCancelled_iff ht).1 hcancelled
    exact (hlater.isCancelled_iff ht').2 ⟨i, hreach.append more, hstopped.append hnow more⟩

/-- Two children of one token, a second holder of the first child with a child of its own, and a
token with a deadline and its child. The second holder cancels. -/
theorem answers_on_family :
    let steps : List TokenStep :=
      [.create none, .child 0, .child 0, .clone 1, .child 3, .create (some 5), .child 5, .cancel 3]
    ∃ ts, after? steps = some ts ∧ Answers steps ts ∧
      ts.issued.map (ts.isCancelled 4) = [false, true, false, true, true, false, false] ∧
      ts.issued.map (ts.isCancelled 5) = [false, true, false, true, true, true, true] := by
  intro steps
  have h : after? steps = some _ := rfl
  exact ⟨_, h, answers_after h, by decide, by decide⟩

end Tokens

end Wiring
