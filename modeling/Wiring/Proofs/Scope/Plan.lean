import Wiring.Proofs.Scope.Tracked

/-!
# The check by numbers

The check can be done with numbers in place of names. Handles are numbered in the order of their
creation; flags tell which blocks the search has seen; a row holds the states of all handles, and a
table has a row for each block that has been computed. Handles, blocks, flags and rows are then read
by number, and a number may lie outside the list that is read: in that case there is no answer at
all.

This module states the check in this form and shows that what it works out before the first round is
always there: of a trace that is accepted no number lies outside its list while names are numbered,
blocks are put in order and predecessors are collected.

Results:
1. `Plan.search?_eq`: the search by flags gives the order of blocks.
2. `Plan.exists_plan`: a trace that is accepted has its plan.
-/

namespace Wiring

/-- Numbers of names; the first entry of a name counts. -/
abbrev Numbering := List (String × Nat)

/-- The states of all handles, by number. -/
abbrev Row := List States

/-- For each block the states of all handles at its end, once it has been computed. -/
abbrev Table := List (Option Row)

/-- What is worked out before the rounds. -/
structure Plan where
  procedure : Procedure
  handles : List Handle
  /-- The numbers of the handles. -/
  byName : Numbering
  /-- For values, the numbers of the handles that they were last resolved from. -/
  derived : Numbering
  /-- The blocks that can be reached, in order. -/
  order : List Nat
  /-- For each block, the reachable blocks that it may follow. -/
  preds : List (List Nat)

theorem Procedure.targets_of_getElem? (p : Procedure) {b : Nat} {block : Block}
    (h : p.blocks[b]? = some block) : p.targets b = block.targets := by
  rw [targets, h]

namespace Plan

/-! ## Names -/

/-- The number of a name. -/
def number? (ns : Numbering) (name : String) : Option Nat :=
  ns.lookup name

/-- The handles and their numbers after one more event. -/
def register (r : List Handle × Numbering) (e : Event) : List Handle × Numbering :=
  match e.created? with
  | some h =>
    match number? r.2 h.name with
    | some _ => r
    | none => (r.1 ++ [h], (h.name, r.1.length) :: r.2)
  | none => r

/-- The handles that events create, with their numbers. -/
def registered (es : List Event) : List Handle × Numbering :=
  es.foldl register ([], [])

/-- The numbers of the handles that values come from, after one more event. -/
def derive (byName derived : Numbering) : Event → Numbering
  | .resolve h result _ =>
    match number? byName h with
    | some i => (result, i) :: derived
    | none => derived
  | _ => derived

/-! ## The order of blocks -/

/-- The successors that the blocks on the stack still have to look at, and the blocks. -/
def pending (p : Procedure) : List (Nat × Nat) → Nat
  | [] => 0
  | (b, k) :: stack => (p.targets b).length - k + 1 + pending p stack

theorem count_set_lt {visited : List Bool} {s : Nat} (h : visited[s]? = some false) :
    (visited.set s true).count false < visited.count false := by
  obtain ⟨hs, hval⟩ := List.getElem?_eq_some_iff.1 h
  have hpos : 0 < visited.count false := List.count_pos_iff.2 (hval ▸ List.getElem_mem hs)
  have hcount : (visited.set s true).count false = visited.count false - 1 := by
    simp [List.count_set hs, hval]
  omega

theorem drop_targets {p : Procedure} {b k s : Nat} {block : Block}
    (hb : p.blocks[b]? = some block) (hk : block.targets[k]? = some s) :
    (p.targets b).drop k = s :: (p.targets b).drop (k + 1) := by
  obtain ⟨hlt, rfl⟩ := List.getElem?_eq_some_iff.1 hk
  rw [p.targets_of_getElem? hb]
  exact List.drop_eq_getElem_cons hlt

/-- The search. The stack holds the blocks that have been entered and not left, each with the
number of the successor it looks at next. -/
def search? (p : Procedure) (visited : List Bool) (stack : List (Nat × Nat)) (left : List Nat) :
    Option (List Nat) :=
  match stack with
  | [] => some left
  | (b, k) :: stack =>
    match _ : p.blocks[b]? with
    | none => none
    | some block =>
      match _ : block.targets[k]? with
      | none => search? p visited stack (b :: left)
      | some s =>
        match _ : visited[s]? with
        | none => none
        | some true => search? p visited ((b, k + 1) :: stack) left
        | some false => search? p (visited.set s true) ((s, 0) :: (b, k + 1) :: stack) left
termination_by (visited.count false, pending p stack)
decreasing_by
  · apply Prod.Lex.right
    simp only [pending]
    omega
  · apply Prod.Lex.right
    have hlt := (List.getElem?_eq_some_iff.1 ‹block.targets[k]? = some s›).1
    simp only [pending, p.targets_of_getElem? ‹p.blocks[b]? = some block›]
    omega
  · exact Prod.Lex.left _ _ (count_set_lt ‹visited[s]? = some false›)

/-- The blocks that can be reached from block 0, in order. -/
def order? (p : Procedure) : Option (List Nat) :=
  if p.blocks.isEmpty then some []
  else do
    let visited := List.replicate p.blocks.length false
    let _ ← visited[0]?
    search? p (visited.set 0 true) [(0, 0)] []

/-- Block `a` added to those that block `s` may follow. -/
def addPred? (a : Nat) (preds : List (List Nat)) (s : Nat) : Option (List (List Nat)) := do
  let before ← preds[s]?
  some (preds.set s (before ++ [a]))

/-- Block `a` added to those that its successors may follow, as often as it names them. -/
def addPreds? (p : Procedure) (preds : List (List Nat)) (a : Nat) : Option (List (List Nat)) := do
  let block ← p.blocks[a]?
  block.targets.foldlM (addPred? a) preds

/-- For each block, the blocks among those given that it may follow. -/
def preds? (p : Procedure) (order : List Nat) : Option (List (List Nat)) :=
  order.foldlM (addPreds? p) (List.replicate p.blocks.length [])

/-- What is worked out before the rounds. -/
def of? (p : Procedure) : Option Plan := do
  let r := registered p.events
  let order ← order? p
  let preds ← preds? p order
  some ⟨p, r.1, r.2, p.events.foldl (derive r.2) [], order, preds⟩

/-! ## Names and numbers agree -/

theorem number?_cons (name x : String) (i : Nat) (ns : Numbering) :
    number? ((x, i) :: ns) name = if x = name then some i else number? ns name := by
  by_cases h : x = name
  · simp [number?, h]
  · have hne : (name == x) = false := beq_false_of_ne (fun heq => h heq.symm)
    rw [number?, List.lookup_cons, hne, if_neg h]
    rfl

/-- The number of a name is the place of its handle. -/
def Numbers (ns : Numbering) (hs : List Handle) : Prop :=
  ∀ name, number? ns name = hs.findIdx? (fun h => h.name == name)

theorem Numbers.number?_eq_none_iff {ns : Numbering} {hs : List Handle} (h : Numbers ns hs)
    {name : String} : number? ns name = none ↔ name ∉ hs.map Handle.name := by
  rw [h name, List.findIdx?_eq_none_iff, List.mem_map]
  simp only [beq_eq_false_iff_ne, not_exists, not_and]

theorem Numbers.concat {ns : Numbering} {hs : List Handle} (hn : Numbers ns hs) {h : Handle}
    (hnew : number? ns h.name = none) : Numbers ((h.name, hs.length) :: ns) (hs ++ [h]) := by
  intro name
  rw [number?_cons, List.findIdx?_append, ← hn name]
  split
  · next heq =>
    subst heq
    simp [hnew]
  · next hne => simp [hne]

/-- Registration gives the handles that events create, beside those known already. -/
theorem foldl_register {es : List Event} {hs : List Handle} {ns : Numbering} {known : List String}
    (hn : Numbers ns hs) (hknown : ∀ name, name ∈ known ↔ name ∈ hs.map Handle.name) :
    (es.foldl register (hs, ns)).1 = hs ++ Handle.createdBy known es ∧
      Numbers (es.foldl register (hs, ns)).2 (es.foldl register (hs, ns)).1 := by
  induction es generalizing hs ns known with
  | nil => exact ⟨(List.append_nil hs).symm, hn⟩
  | cons e es ih =>
    rw [List.foldl_cons, register, Handle.createdBy]
    cases e.created? with
    | none => exact ih hn hknown
    | some h =>
      simp only
      by_cases hk : h.name ∈ known
      · obtain ⟨i, hi⟩ : ∃ i, number? ns h.name = some i :=
          Option.ne_none_iff_exists'.1 (fun hnone => hn.number?_eq_none_iff.1 hnone
            ((hknown h.name).1 hk))
        rw [hi, if_pos (List.contains_iff_mem.2 hk)]
        exact ih hn hknown
      · have hnone : number? ns h.name = none :=
          hn.number?_eq_none_iff.2 (fun hm => hk ((hknown h.name).2 hm))
        rw [hnone, if_neg (fun hc => hk (List.contains_iff_mem.1 hc))]
        have hknown' : ∀ name, name ∈ h.name :: known ↔ name ∈ (hs ++ [h]).map Handle.name := by
          intro name
          rw [List.mem_cons, hknown, List.map_append, List.mem_append, or_comm]
          simp
        have hrest := ih (hn.concat hnone) hknown'
        rw [List.append_assoc] at hrest
        exact hrest

theorem registered_eq (es : List Event) :
    (registered es).1 = Handle.createdBy [] es ∧ Numbers (registered es).2 (registered es).1 :=
  foldl_register (fun _ => rfl) (fun _ => Iff.rfl)

/-- Where all handles that values are resolved from have numbers, a value has the number of the
handle that it was last resolved from. -/
theorem number?_foldl_derive {byName : Numbering} {es : List Event}
    (hall : ∀ e ∈ es, ∀ h, e.needs? = some h → number? byName h ≠ none) (derived : Numbering)
    (value : String) :
    number? (es.foldl (derive byName) derived) value =
      ((Procedure.derivedFrom? value es).bind (number? byName)).or (number? derived value) := by
  induction es generalizing derived with
  | nil => rfl
  | cons e es ih =>
    rw [List.foldl_cons, ih (fun e' he' => hall e' (List.mem_cons_of_mem _ he')),
      Procedure.derivedFrom?_cons]
    cases e with
    | resolve h result location =>
      obtain ⟨i, hi⟩ := Option.ne_none_iff_exists'.1 (hall _ List.mem_cons_self h rfl)
      have hderive : derive byName derived (.resolve h result location) =
          (result, i) :: derived := by
        simp only [derive, hi]
      rw [hderive, number?_cons]
      cases hlast : Procedure.derivedFrom? value es with
      | none =>
        simp only [Event.resolvedFrom?, Option.none_or, Option.bind_none]
        split <;> simp [hi]
      | some h' =>
        -- a later resolution, whose handle has a number, counts in place of this one
        obtain ⟨j, hj⟩ : ∃ j, number? byName h' = some j := by
          rw [Procedure.derivedFrom?_eq] at hlast
          obtain ⟨e', he', hres⟩ := List.mem_filterMap.1 (List.mem_of_getLast? hlast)
          refine Option.ne_none_iff_exists'.1 (hall e' (List.mem_cons_of_mem _ he') h' ?_)
          cases e' with
          | resolve _ _ _ =>
            simp only [Event.resolvedFrom?] at hres
            split at hres
            · exact hres
            · cases hres
          | _ => cases hres
        simp [hj]
    | _ => simp [derive, Event.resolvedFrom?]

/-! ## The search by flags -/

/-- The successors that blocks on the stack still have to look at, in place of a number. -/
def remaining (p : Procedure) (stack : List (Nat × Nat)) : List (Nat × List Nat) :=
  stack.map (fun e => (e.1, (p.targets e.1).drop e.2))

theorem remaining_cons (p : Procedure) (b k : Nat) (stack : List (Nat × Nat)) :
    remaining p ((b, k) :: stack) = (b, (p.targets b).drop k) :: remaining p stack := rfl

/-- The search by flags does what the search by lists does. -/
theorem search?_eq {p : Procedure} (hp : p.InRange) {visited : List Bool}
    {stack : List (Nat × Nat)} {left seen : List Nat}
    (hflags : ∀ s < p.blocks.length, visited[s]? = some (seen.contains s))
    (hstack : ∀ e ∈ stack, e.1 < p.blocks.length) :
    search? p visited stack left =
      some (Blocks.search p.blocks.length p.targets seen (remaining p stack) left) := by
  fun_induction search? p visited stack left generalizing seen with
  | case1 visited left => rw [remaining, List.map_nil, Blocks.search]
  | case2 visited left b k stack hb =>
    exact absurd (hstack _ List.mem_cons_self) (Nat.not_lt_of_le (List.getElem?_eq_none_iff.1 hb))
  | case3 visited left b k stack block hb hk ih =>
    have hdrop : (p.targets b).drop k = [] := by
      rw [p.targets_of_getElem? hb]
      exact List.drop_eq_nil_of_le (List.getElem?_eq_none_iff.1 hk)
    rw [ih hflags (fun e he => hstack e (List.mem_cons_of_mem _ he)), remaining_cons, hdrop,
      Blocks.search]
  | case4 visited left b k stack block hb s hk hs =>
    have hlt := hp b s (p.targets_of_getElem? hb ▸ List.mem_of_getElem? hk)
    rw [hflags s hlt] at hs
    cases hs
  | case5 visited left b k stack block hb s hk hs ih =>
    have hlt := hp b s (p.targets_of_getElem? hb ▸ List.mem_of_getElem? hk)
    have hseen : seen.contains s = true := Option.some.inj ((hflags s hlt).symm.trans hs)
    have hskip : ¬(s < p.blocks.length ∧ seen.contains s = false) := fun h =>
      Bool.noConfusion (hseen.symm.trans h.2)
    rw [ih hflags (List.forall_mem_cons.2 (List.forall_mem_cons.1 hstack)), remaining_cons,
      remaining_cons, drop_targets hb hk, Blocks.search, if_neg hskip]
  | case6 visited left b k stack block hb s hk hs ih =>
    have hlt := hp b s (p.targets_of_getElem? hb ▸ List.mem_of_getElem? hk)
    have hseen : seen.contains s = false := Option.some.inj ((hflags s hlt).symm.trans hs)
    have hflags' : ∀ t < p.blocks.length,
        (visited.set s true)[t]? = some ((s :: seen).contains t) := by
      intro t ht
      have hlen : s < visited.length := (List.getElem?_eq_some_iff.1 hs).1
      rw [List.getElem?_set, hflags t ht, List.contains_cons]
      by_cases hst : s = t
      · simp [← hst, hlen]
      · simp [hst, Ne.symm hst]
    have hstack' : ∀ e ∈ (b, k + 1) :: stack, e.1 < p.blocks.length :=
      List.forall_mem_cons.2 (List.forall_mem_cons.1 hstack)
    rw [ih hflags' (List.forall_mem_cons.2 ⟨hlt, hstack'⟩), remaining_cons, remaining_cons,
      remaining_cons, drop_targets hb hk, Blocks.search, if_pos ⟨hlt, hseen⟩]
    rfl

theorem order?_eq {p : Procedure} (hp : p.InRange) : order? p = some p.order := by
  unfold order? Procedure.order
  split
  · rfl
  · next hne =>
    have hpos : 0 < p.blocks.length := List.length_pos_iff.2 (fun he => hne (by rw [he]; rfl))
    have hflags : ∀ s < p.blocks.length,
        ((List.replicate p.blocks.length false).set 0 true)[s]? = some ([0].contains s) := by
      intro s hs
      rw [List.getElem?_set, List.getElem?_replicate, if_pos hs]
      by_cases h0 : 0 = s
      · simp [← h0, hpos]
      · simp [h0, Ne.symm h0]
    have hstack : ∀ e ∈ [((0 : Nat), (0 : Nat))], e.1 < p.blocks.length := by simpa using hpos
    have hfirst : (List.replicate p.blocks.length false)[0]? = some false := by
      rw [List.getElem?_replicate, if_pos hpos]
    simp only [hfirst, Option.bind_eq_bind, Option.bind_some]
    exact search?_eq hp hflags hstack

/-! ## Predecessors -/

/-- For each of `n` blocks the list has the blocks that `E` relates to it. -/
def Lists (n : Nat) (preds : List (List Nat)) (E : Nat → Nat → Prop) : Prop :=
  preds.length = n ∧ ∀ b before, preds[b]? = some before → ∀ a, a ∈ before ↔ E a b

theorem Lists.congr {n : Nat} {preds : List (List Nat)} {E E' : Nat → Nat → Prop}
    (h : Lists n preds E) (hE : ∀ a b, E a b ↔ E' a b) : Lists n preds E' :=
  ⟨h.1, fun b before hb a => (h.2 b before hb a).trans (hE a b)⟩

theorem Lists.addPred? {n : Nat} {preds : List (List Nat)} {E : Nat → Nat → Prop}
    (h : Lists n preds E) {a s : Nat} (hs : s < n) :
    ∃ preds', addPred? a preds s = some preds' ∧
      Lists n preds' (fun c b => E c b ∨ c = a ∧ b = s) := by
  have hlt : s < preds.length := h.1 ▸ hs
  have hget : preds[s]? = some preds[s] := List.getElem?_eq_getElem hlt
  refine ⟨preds.set s (preds[s] ++ [a]), by simp [Plan.addPred?, hget], ?_, ?_⟩
  · rw [List.length_set, h.1]
  · intro b before hb c
    rw [List.getElem?_set] at hb
    split at hb
    · next heq =>
      subst heq
      rw [← Option.some.inj hb, List.mem_append, h.2 s _ hget, List.mem_singleton]
      simp
    · next hne => simp [h.2 b before hb c, Ne.symm hne]

theorem Lists.foldlM_addPred? {n a : Nat} {ts : List Nat} (hts : ∀ t ∈ ts, t < n) :
    ∀ {preds : List (List Nat)} {E : Nat → Nat → Prop}, Lists n preds E →
      ∃ preds', ts.foldlM (Plan.addPred? a) preds = some preds' ∧
        Lists n preds' (fun c b => E c b ∨ c = a ∧ b ∈ ts) := by
  induction ts with
  | nil => exact fun {preds E} h => ⟨preds, rfl, by simpa using h⟩
  | cons t ts ih =>
    intro preds E h
    obtain ⟨ht, hts⟩ := List.forall_mem_cons.1 hts
    obtain ⟨preds₁, heq₁, h₁⟩ := h.addPred? (a := a) ht
    obtain ⟨preds₂, heq₂, h₂⟩ := ih hts h₁
    refine ⟨preds₂, by rw [List.foldlM_cons, heq₁]; exact heq₂, ?_⟩
    refine h₂.congr (fun c b => ?_)
    rw [List.mem_cons, and_or_left, or_assoc]

theorem Lists.foldlM_addPreds? {p : Procedure} (hp : p.InRange) {bs : List Nat}
    (hbs : ∀ b ∈ bs, b < p.blocks.length) :
    ∀ {preds : List (List Nat)} {E : Nat → Nat → Prop}, Lists p.blocks.length preds E →
      ∃ preds', bs.foldlM (addPreds? p) preds = some preds' ∧
        Lists p.blocks.length preds' (fun a b => E a b ∨ a ∈ bs ∧ b ∈ p.targets a) := by
  induction bs with
  | nil => exact fun {preds E} h => ⟨preds, rfl, by simpa using h⟩
  | cons a bs ih =>
    intro preds E h
    obtain ⟨ha, hbs⟩ := List.forall_mem_cons.1 hbs
    have hblock : p.blocks[a]? = some p.blocks[a] := List.getElem?_eq_getElem ha
    obtain ⟨preds₁, heq₁, h₁⟩ := h.foldlM_addPred? (a := a) (hp a)
    obtain ⟨preds₂, heq₂, h₂⟩ := ih hbs h₁
    have hadd : addPreds? p preds a = some preds₁ := by
      rw [addPreds?, hblock, ← heq₁, p.targets_of_getElem? hblock]
      rfl
    refine ⟨preds₂, by rw [List.foldlM_cons, hadd]; exact heq₂, h₂.congr (fun c b => ?_)⟩
    constructor
    · rintro ((hc | ⟨rfl, hb⟩) | ⟨hc, hb⟩)
      · exact Or.inl hc
      · exact Or.inr ⟨List.mem_cons_self, hb⟩
      · exact Or.inr ⟨List.mem_cons_of_mem _ hc, hb⟩
    · rintro (hc | ⟨hc, hb⟩)
      · exact Or.inl (Or.inl hc)
      · rcases List.mem_cons.1 hc with rfl | hc
        · exact Or.inl (Or.inr ⟨rfl, hb⟩)
        · exact Or.inr ⟨hc, hb⟩

theorem lists_replicate (n : Nat) : Lists n (List.replicate n []) (fun _ _ => False) := by
  refine ⟨List.length_replicate, fun b before hb a => ?_⟩
  rw [List.eq_of_mem_replicate (List.mem_of_getElem? hb)]
  exact iff_of_false List.not_mem_nil id

/-! ## The plan of a procedure -/

/-- The plan says by numbers what the procedure says by names. -/
structure For (m : Plan) (p : Procedure) : Prop where
  procedure : m.procedure = p
  handles : m.handles = p.handles
  byName : Numbers m.byName p.handles
  derived : ∀ value, number? m.derived value =
    (Procedure.derivedFrom? value p.events).bind (number? m.byName)
  order : m.order = p.order
  preds : Lists p.blocks.length m.preds (fun a b => a ∈ p.order ∧ b ∈ p.targets a)

theorem lt_length_of_mem_order {p : Procedure} (hp : p.InRange) {b : Nat} (hb : b ∈ p.order) :
    b < p.blocks.length := by
  obtain ⟨bs, hw⟩ := (p.mem_order_iff hp).1 hb
  exact hw.lt_length hp

theorem exists_plan {p : Procedure} (h : p.fault? = none) : ∃ m, of? p = some m ∧ m.For p := by
  obtain ⟨hp, hdangling⟩ := Procedure.fault?_eq_none_iff.1 h
  obtain ⟨preds, hpreds, hlists⟩ := (lists_replicate p.blocks.length).foldlM_addPreds? hp
    (fun b => lt_length_of_mem_order hp)
  have hhandles : (registered p.events).1 = p.handles := (registered_eq p.events).1
  have hnumbers : Numbers (registered p.events).2 p.handles :=
    hhandles ▸ (registered_eq p.events).2
  have hneeds : ∀ e ∈ p.events, ∀ name, e.needs? = some name →
      number? (registered p.events).2 name ≠ none := by
    intro e he name hname hnone
    rw [hnumbers name, List.findIdx?_eq_none_iff] at hnone
    rw [Procedure.dangling?, List.find?_eq_none] at hdangling
    refine hdangling name (List.mem_filterMap.2 ⟨e, he, hname⟩) ?_
    rw [Option.isNone_iff_eq_none, Handle.find?, List.find?_eq_none]
    exact fun c hc => by simp [hnone c hc]
  refine ⟨⟨p, (registered p.events).1, (registered p.events).2,
    p.events.foldl (derive (registered p.events).2) [], p.order, preds⟩, ?_, ?_⟩
  · simp [of?, order?_eq hp, preds?, hpreds]
  · exact {
      procedure := rfl
      handles := hhandles
      byName := hnumbers
      derived := fun value => by
        rw [number?_foldl_derive hneeds]
        exact Option.or_none
      order := rfl
      preds := hlists.congr (fun a b => by simp) }

end Plan

end Wiring
