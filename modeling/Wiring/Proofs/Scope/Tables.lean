import Wiring.Proofs.Scope.Plan
import Wiring.Proofs.Scope.Rounds

/-!
# Rounds over tables

A round by numbers goes over the blocks once for all handles: it joins the rows of the blocks before
each block, lets the events of the block act on the row, and puts the row into the table if it is
not there already. The rounds are over when one of them puts nothing into the table.

Row by row and column by column this is what the rounds of the single handles do: no number lies
outside its list, the states of a block only grow, and the rounds stop.
-/

namespace Wiring

open Scope

namespace Plan

/-! ## Rows -/

/-- The handle of a number with its states. -/
def at? (m : Plan) (row : Row) (i : Nat) : Option (Handle × States) := do
  let h ← m.handles[i]?
  let s ← row[i]?
  some (h, s)

/-- An event that changes the states of the handle of the number, if there is one. -/
def act? (row : Row) (change : States → States) : Option Nat → Option (Row × Option Diagnostic)
  | some i => do
    let s ← row[i]?
    some (row.set i (change s), none)
  | none => some (row, none)

/-- An event that is reported if the handle of the number, if there is one, passes a test. -/
def tell? (m : Plan) (row : Row) (test : Handle × States → Bool) (report : Handle → Diagnostic) :
    Option Nat → Option (Row × Option Diagnostic)
  | some i => do
    let t ← m.at? row i
    some (row, if test t then some (report t.1) else none)
  | none => some (row, none)

/-- The row after an event, and the finding that the event gives. -/
def step? (m : Plan) (row : Row) : Event → Option (Row × Option Diagnostic)
  | .create h _ _ _ _ => act? row (fun _ => .onlyCreated) (number? m.byName h)
  | .dispose h _ => act? row (fun s => ⟨false, true, s.escaped⟩) (number? m.byName h)
  | .resolve h result location =>
    m.tell? row isDisposedScope (fun c => useAfterDispose c result location) (number? m.byName h)
  | .escape value sink location =>
    match number? m.byName value with
    | some i => act? row (fun _ => .onlyEscaped) (some i)
    | none =>
      m.tell? row isLiveScope (fun c => escape m.procedure c value sink location)
        (number? m.derived value)
  | .use value location =>
    m.tell? row isDisposedScope (fun c => useAfterDispose c value location)
      ((number? m.byName value).or (number? m.derived value))

/-- The row after events, and the findings that they give. -/
def transfer? (m : Plan) : Row → List Event → Option (Row × List Diagnostic)
  | row, [] => some (row, [])
  | row, e :: es => do
    let r ← m.step? row e
    let t ← m.transfer? r.1 es
    some (t.1, r.2.toList ++ t.2)

/-! ## Rounds -/

/-- The states of either row; rows of different lengths are not joined. -/
def join? (row out : Row) : Option Row :=
  if row.length = out.length then some (row.zipWith States.union out) else none

/-- The row joined with that of block `a`, if block `a` has been computed. -/
def gather? (outs : Table) (row : Row) (a : Nat) : Option Row := do
  match ← outs[a]? with
  | some out => join? row out
  | none => some row

/-- The row at the start of block `b`. -/
def startRow? (m : Plan) (outs : Table) (b : Nat) : Option Row := do
  let before ← m.preds[b]?
  before.foldlM (gather? outs) (List.replicate m.handles.length .none)

/-- The row at the end of block `b`, computed from the blocks before it, and its findings. -/
def compute? (m : Plan) (outs : Table) (b : Nat) : Option (Row × List Diagnostic) := do
  let row ← m.startRow? outs b
  let block ← m.procedure.blocks[b]?
  m.transfer? row block.events

/-- The table with block `b` computed anew, and whether this changes it. -/
def update? (m : Plan) (outs : Table) (b : Nat) : Option (Table × Bool) := do
  let r ← m.compute? outs b
  let out ← outs[b]?
  if out = some r.1 then some (outs, false) else some (outs.set b (some r.1), true)

/-- The table with the blocks computed anew, one after the other, and whether this changes it. -/
def sweep? (m : Plan) : List Nat → Table → Option (Table × Bool)
  | [], outs => some (outs, false)
  | b :: bs, outs => do
    let r ← m.update? outs b
    let t ← m.sweep? bs r.1
    some (t.1, r.2 || t.2)

/-- A round over all blocks that can be reached, and whether it changes the table. -/
def round? (m : Plan) (outs : Table) : Option (Table × Bool) :=
  m.sweep? m.order outs

/-- No block has been computed. -/
def start (m : Plan) : Table :=
  List.replicate m.procedure.blocks.length none

/-- Rounds until one of them changes nothing. -/
inductive Settles (m : Plan) : Table → Table → Prop
  | stop {outs outs' : Table} : m.round? outs = some (outs', false) → Settles m outs outs'
  | again {outs outs' last : Table} :
      m.round? outs = some (outs', true) → Settles m outs' last → Settles m outs last

/-! ## Numbers of names stand for handles -/

/-- The number is that of the handle, and there is neither or both. -/
def Denotes (hs : List Handle) (number : Option Nat) (handle : Option Handle) : Prop :=
  number.map (fun i => hs[i]?) = handle.map some

theorem Numbers.denotes {ns : Numbering} {hs : List Handle} (hn : Numbers ns hs) (name : String) :
    Denotes hs (number? ns name) (Handle.find? hs name) := by
  rw [hn name, Denotes, Handle.find?]
  clear hn
  induction hs with
  | nil => rfl
  | cons h hs ih =>
    rw [List.findIdx?_cons, List.find?_cons]
    cases h.name == name with
    | true => rfl
    | false => simpa [Function.comp_def] using ih

theorem Denotes.or {hs : List Handle} {n n' : Option Nat} {c c' : Option Handle}
    (h : Denotes hs n c) (h' : Denotes hs n' c') : Denotes hs (n.or n') (c.or c') := by
  unfold Denotes at *
  rw [Option.map_or, Option.map_or, h, h']

theorem Numbers.denotes_bind {ns : Numbering} {hs : List Handle} (hn : Numbers ns hs)
    (name : Option String) :
    Denotes hs (name.bind (number? ns)) (name.bind (Handle.find? hs)) := by
  cases name with
  | none => rfl
  | some name => exact hn.denotes name

theorem map_ite_of_not_mem {hs : List Handle} {name : String} (h : name ∉ hs.map Handle.name)
    (g g' : Handle → States) :
    hs.map (fun c => if name = c.name then g' c else g c) = hs.map g :=
  List.map_congr_left (fun c hc =>
    if_neg (fun heq : name = c.name => h (heq ▸ List.mem_map_of_mem hc)))

/-- To write at the place of a name changes the one handle that has it. -/
theorem set_map_of_findIdx? {hs : List Handle} (hnodup : (hs.map Handle.name).Nodup) {name : String}
    {i : Nat} (hi : hs.findIdx? (fun h => h.name == name) = some i) (g : Handle → States)
    (change : States → States) :
    ∃ s, (hs.map g)[i]? = some s ∧ (hs.map g).set i (change s) =
      hs.map (fun c => if name = c.name then change (g c) else g c) := by
  induction hs generalizing i with
  | nil => cases hi
  | cons h hs ih =>
    rw [List.map_cons, List.nodup_cons] at hnodup
    rw [List.findIdx?_cons] at hi
    split at hi
    · next heq =>
      obtain rfl := eq_of_beq heq
      obtain rfl := Option.some.inj hi
      refine ⟨g h, rfl, ?_⟩
      rw [List.map_cons, List.map_cons, if_pos rfl, map_ite_of_not_mem hnodup.1]
      rfl
    · next hne =>
      obtain ⟨j, hj, rfl⟩ := Option.map_eq_some_iff.1 hi
      obtain ⟨s, hs, hset⟩ := ih hnodup.2 hj
      refine ⟨s, hs, ?_⟩
      rw [List.map_cons, List.map_cons, List.set_cons_succ, hset,
        if_neg (fun heq => hne (beq_iff_eq.2 heq.symm))]

/-- The states of the one handle of the name are changed. -/
theorem act?_eq {hs : List Handle} (hnodup : (hs.map Handle.name).Nodup) {ns : Numbering}
    (hn : Numbers ns hs) (g : Handle → States) (change : States → States) (name : String) :
    act? (hs.map g) change (number? ns name) =
      some (hs.map (fun c => if name = c.name then change (g c) else g c), none) := by
  cases hnumber : number? ns name with
  | none => rw [map_ite_of_not_mem (hn.number?_eq_none_iff.1 hnumber), act?]
  | some i =>
    obtain ⟨s, hs, hset⟩ := set_map_of_findIdx? hnodup (hn name ▸ hnumber) g change
    simp [act?, hs, hset]

/-! ## Rows hold the states of the single handles -/

section Rows

variable {m : Plan} {p : Procedure} (hm : m.For p)

include hm

theorem For.denotes_byName (name : String) :
    Denotes m.handles (number? m.byName name) (p.firstCreation? name) := by
  rw [← Procedure.find?_handles, hm.handles]
  exact hm.byName.denotes name

theorem For.denotes_derived (value : String) :
    Denotes m.handles (number? m.derived value)
      ((p.lastSource? value).bind p.firstCreation?) := by
  rw [hm.derived, hm.handles, ← funext p.find?_handles, Procedure.lastSource?,
    ← Procedure.derivedFrom?_eq]
  exact hm.byName.denotes_bind _

theorem For.tell?_eq {number : Option Nat} {handle : Option Handle}
    (hd : Denotes m.handles number handle) (g : Handle → States) (test : Handle × States → Bool)
    (report : Handle → Diagnostic) :
    m.tell? (p.handles.map g) test report number = some (p.handles.map g,
      (handle.map (fun c => (c, g c))).bind (fun t =>
        if test t then some (report t.1) else none)) := by
  rw [← hm.handles]
  cases number with
  | none =>
    cases handle with
    | none => rfl
    | some c => cases hd
  | some i =>
    cases handle with
    | none => cases hd
    | some c =>
      have hc : m.handles[i]? = some c := Option.some.inj hd
      simp [tell?, at?, hc]

theorem For.step?_eq (g : Handle → States) (e : Event) :
    m.step? (p.handles.map g) e =
      some (p.handles.map (fun c => States.after c.name (g c) e),
        finding? p (p.handles.map (fun c => (c, g c))) e) := by
  have hact := act?_eq p.nodup_names hm.byName g
  cases e with
  | create h _ _ _ _ => exact hact _ h
  | dispose h _ => exact hact _ h
  | resolve h result location =>
    rw [step?, hm.tell?_eq (hm.denotes_byName h), finding?, find?_map_handles]
    cases p.firstCreation? h <;> rfl
  | use value location =>
    rw [step?, hm.tell?_eq ((hm.denotes_byName value).or (hm.denotes_derived value)), finding?,
      find?_map_handles, derived?_map_handles, ← Option.map_or]
    cases (p.firstCreation? value).or ((p.lastSource? value).bind p.firstCreation?) <;> rfl
  | escape value sink location =>
    rw [step?, finding?, find?_map_handles, derived?_map_handles]
    have hd := hm.denotes_byName value
    have hchange := hact (fun _ => .onlyEscaped) value
    cases hnumber : number? m.byName value with
    | some i =>
      rw [hnumber] at hd hchange
      cases hfind : p.firstCreation? value with
      | none =>
        rw [hfind] at hd
        cases hd
      | some c => exact hchange
    | none =>
      rw [hnumber] at hd
      cases hfind : p.firstCreation? value with
      | some c =>
        rw [hfind] at hd
        cases hd
      | none =>
        have hnew := hm.byName.number?_eq_none_iff.1 hnumber
        have hsame : p.handles.map (fun c => States.after c.name (g c)
            (.escape value sink location)) = p.handles.map g :=
          map_ite_of_not_mem hnew g (fun _ => .onlyEscaped)
        simp only [Option.map_none]
        rw [hm.tell?_eq (hm.denotes_derived value), hsame, hm.procedure]
        cases (p.lastSource? value).bind p.firstCreation? <;> rfl

theorem For.transfer?_eq (g : Handle → States) (es : List Event) :
    m.transfer? (p.handles.map g) es =
      some (p.handles.map (fun c => States.run c.name (g c) es),
        findingsIn p (p.handles.map (fun c => (c, g c))) es) := by
  induction es generalizing g with
  | nil => rfl
  | cons e es ih =>
    have hafter : Tracked.after (p.handles.map (fun c => (c, g c))) e =
        p.handles.map (fun c => (c, States.after c.name (g c) e)) := by
      rw [Tracked.after, List.map_map]
      rfl
    rw [transfer?, hm.step?_eq, findingsIn, hafter]
    simp only [Option.bind_eq_bind, Option.bind_some, ih]
    rfl

end Rows

/-! ## Tables hold the states of the single handles -/

/-- The table of the states that the handles have at the ends of the blocks that are done. -/
def tableOf (p : Procedure) (done : Nat → Bool) (F : String → List States) : Table :=
  (List.range p.blocks.length).map (fun b =>
    if done b then some (p.handles.map (fun c => Flow.outOf (F c.name) b)) else none)

/-- Each handle has states for all blocks, and none for a block that is not done. -/
structure Fits (p : Procedure) (done : Nat → Bool) (F : String → List States) : Prop where
  length : ∀ name, (F name).length = p.blocks.length
  idle : ∀ b, done b = false → ∀ name, Flow.outOf (F name) b = .none

theorem getElem?_tableOf {p : Procedure} {b : Nat} (hb : b < p.blocks.length) (done : Nat → Bool)
    (F : String → List States) :
    (tableOf p done F)[b]? =
      some (if done b then some (p.handles.map (fun c => Flow.outOf (F c.name) b)) else none) := by
  rw [tableOf, List.getElem?_map, List.getElem?_range hb]
  rfl

section Tables

variable {p : Procedure} {done : Nat → Bool} {F : String → List States}

theorem gather?_tableOf (hF : Fits p done F) {a : Nat} (ha : a < p.blocks.length)
    (g : Handle → States) :
    gather? (tableOf p done F) (p.handles.map g) a =
      some (p.handles.map (fun c => (g c).union (Flow.outOf (F c.name) a))) := by
  rw [gather?, getElem?_tableOf ha]
  cases hdone : done a with
  | true => simp [join?, List.zipWith_map, List.zipWith_self]
  | false => simp [hF.idle a hdone, States.union_none]

theorem foldlM_gather?_tableOf (hF : Fits p done F) {as : List Nat}
    (has : ∀ a ∈ as, a < p.blocks.length) (g : Handle → States) :
    as.foldlM (gather? (tableOf p done F)) (p.handles.map g) =
      some (p.handles.map (fun c =>
        as.foldl (fun s a => s.union (Flow.outOf (F c.name) a)) (g c))) := by
  induction as generalizing g with
  | nil => rfl
  | cons a as ih =>
    obtain ⟨ha, has⟩ := List.forall_mem_cons.1 has
    rw [List.foldlM_cons, gather?_tableOf hF ha]
    exact ih has _

variable {m : Plan} (hm : m.For p) (hp : p.InRange)

include hm hp

theorem For.startRow?_eq (hF : Fits p done F) {b : Nat} (hb : b < p.blocks.length) :
    m.startRow? (tableOf p done F) b =
      some (p.handles.map (fun c => (Flow.of p).entry (F c.name) b)) := by
  have hlt : b < m.preds.length := hm.preds.1 ▸ hb
  have hget : m.preds[b]? = some m.preds[b] := List.getElem?_eq_getElem hlt
  have hmem := hm.preds.2 b _ hget
  have hrow : List.replicate m.handles.length States.none = p.handles.map (fun _ => .none) := by
    rw [hm.handles, List.map_const']
  have hin : ∀ a ∈ m.preds[b], a < p.blocks.length :=
    fun a ha => lt_length_of_mem_order hp ((hmem a).1 ha).1
  rw [startRow?, hget, hrow]
  refine (foldlM_gather?_tableOf hF hin _).trans (congrArg some ?_)
  refine List.map_congr_left (fun c _ => States.eq_of_has_iff (fun x => ?_))
  -- a block that names `b` twice counts twice here and once there, which makes no difference
  rw [Flow.has_foldl_union_iff, Flow.has_entry_iff]
  simp [hmem, Flow.mem_predsOf hb]

theorem For.compute?_eq (hF : Fits p done F) {b : Nat} (hb : b < p.blocks.length) :
    m.compute? (tableOf p done F) b =
      some (p.handles.map (fun c => (Flow.of p).exit c.name (F c.name) b),
        findingsIn p (p.handles.map (fun c => (c, (Flow.of p).entry (F c.name) b)))
          (p.eventsIn b)) := by
  have hget : p.blocks[b]? = some p.blocks[b] := List.getElem?_eq_getElem hb
  have hevents : p.eventsIn b = p.blocks[b].events := by
    rw [Procedure.eventsIn, Flow.eventsOf, Flow.of, hget]
  rw [compute?, hm.startRow?_eq hp hF hb, hm.procedure, hget]
  simp only [Option.bind_eq_bind, Option.bind_some]
  rw [hm.transfer?_eq, ← hevents]
  rfl

omit hm hp in
theorem set_of_getElem? {α : Type} {xs : List α} {i : Nat} {x : α} (h : xs[i]? = some x) :
    xs.set i x = xs := by
  obtain ⟨hi, rfl⟩ := List.getElem?_eq_some_iff.1 h
  exact List.set_getElem_self hi

omit hm hp in
theorem update_eq_self_iff (f : Flow) (handle : String) {outs : List States} {b : Nat}
    (hb : b < outs.length) :
    f.update handle outs b = outs ↔ f.exit handle outs b = Flow.outOf outs b := by
  constructor
  · intro h
    have hout := congrArg (fun outs => Flow.outOf outs b) h
    rwa [Flow.update, Flow.outOf_set, if_pos ⟨rfl, hb⟩] at hout
  · intro h
    have hget : outs[b]? = some (Flow.outOf outs b) := by simp [Flow.outOf, hb]
    rw [Flow.update, h, set_of_getElem? hget]

/-- Block `b` is done, too. -/
def mark (done : Nat → Bool) (b : Nat) : Nat → Bool :=
  fun a => done a || a == b

omit hm hp in
theorem Fits.update (hF : Fits p done F) (b : Nat) :
    Fits p (mark done b) (fun name => (Flow.of p).update name (F name) b) where
  length name := by rw [Flow.update, List.length_set, hF.length]
  idle a ha name := by
    obtain ⟨hdone, hne⟩ := Bool.or_eq_false_iff.1 ha
    rw [Flow.update, Flow.outOf_set, if_neg (fun h => ne_of_beq_false hne h.1.symm)]
    exact hF.idle a hdone name

omit hm hp in
theorem tableOf_update (hF : Fits p done F) {b : Nat} (hb : b < p.blocks.length) :
    tableOf p (mark done b) (fun name => (Flow.of p).update name (F name) b) =
      (tableOf p done F).set b
        (some (p.handles.map (fun c => (Flow.of p).exit c.name (F c.name) b))) := by
  refine List.ext_getElem? (fun a => ?_)
  by_cases ha : a < p.blocks.length
  · have hlen : b < (tableOf p done F).length := by simpa [tableOf] using hb
    rw [List.getElem?_set, getElem?_tableOf ha, getElem?_tableOf ha]
    by_cases hab : b = a
    · subst hab
      simp [mark, hlen, Flow.update, Flow.outOf_set, hF.length, hb]
    · simp [mark, hab, Ne.symm hab, Flow.update, Flow.outOf_set]
  · rw [List.getElem?_eq_none (by simpa [tableOf] using ha),
      List.getElem?_eq_none (by simpa [tableOf] using ha)]

/-- To compute a block anew is to do so for each handle. Nothing changes iff the block was done and
nothing changes for any handle. -/
theorem For.update?_eq (hF : Fits p done F) {b : Nat} (hb : b < p.blocks.length) :
    ∃ changed, m.update? (tableOf p done F) b =
        some (tableOf p (mark done b) (fun name => (Flow.of p).update name (F name) b), changed) ∧
      (changed = false ↔ done b = true ∧
        ∀ c ∈ p.handles, (Flow.of p).update c.name (F c.name) b = F c.name) := by
  have hsame : (if done b then some (p.handles.map (fun c => Flow.outOf (F c.name) b)) else none) =
      some (p.handles.map (fun c => (Flow.of p).exit c.name (F c.name) b)) ↔ done b = true ∧
        ∀ c ∈ p.handles, (Flow.of p).update c.name (F c.name) b = F c.name := by
    have hiff := fun c : Handle =>
      update_eq_self_iff (Flow.of p) c.name (hF.length c.name ▸ hb)
    cases done b with
    | true => simp [List.map_inj_left, hiff, eq_comm]
    | false => simp
  rw [update?, hm.compute?_eq hp hF hb, getElem?_tableOf hb, tableOf_update hF hb]
  simp only [Option.bind_eq_bind, Option.bind_some]
  by_cases heq :
      (if done b then some (p.handles.map (fun c => Flow.outOf (F c.name) b)) else none) =
        some (p.handles.map (fun c => (Flow.of p).exit c.name (F c.name) b))
  · refine ⟨false, ?_, iff_of_true rfl (hsame.1 heq)⟩
    rw [if_pos heq, set_of_getElem? ((getElem?_tableOf hb done F).trans (congrArg some heq))]
  · refine ⟨true, ?_, iff_of_false Bool.noConfusion (fun h => heq (hsame.2 h))⟩
    rw [if_neg heq]

/-- The blocks are done, too. -/
def markAll (done : Nat → Bool) (bs : List Nat) : Nat → Bool :=
  fun a => done a || bs.contains a

omit hm hp in
theorem markAll_cons (done : Nat → Bool) (b : Nat) (bs : List Nat) :
    markAll done (b :: bs) = markAll (mark done b) bs := by
  funext a
  rw [markAll, markAll, mark, List.contains_cons, Bool.or_assoc]

omit hm hp in
theorem Fits.sweep (hF : Fits p done F) (bs : List Nat) :
    Fits p (markAll done bs) (fun name => (Flow.of p).sweep name bs (F name)) := by
  induction bs generalizing done F with
  | nil =>
    refine ⟨hF.length, fun b hb => hF.idle b ?_⟩
    exact (Bool.or_eq_false_iff.1 hb).1
  | cons b bs ih =>
    rw [markAll_cons]
    exact ih (hF.update b)

/-- A sweep changes nothing iff all its blocks were done and none of them changes anything. -/
theorem For.sweep?_eq {bs : List Nat} (hbs : ∀ b ∈ bs, b < p.blocks.length)
    (hF : Fits p done F) :
    ∃ changed, m.sweep? bs (tableOf p done F) =
        some (tableOf p (markAll done bs) (fun name => (Flow.of p).sweep name bs (F name)),
          changed) ∧
      (changed = false ↔ (∀ b ∈ bs, done b = true) ∧
        ∀ c ∈ p.handles, ∀ b ∈ bs, (Flow.of p).update c.name (F c.name) b = F c.name) := by
  induction bs generalizing done F with
  | nil =>
    refine ⟨false, ?_, by simp⟩
    have hdone : markAll done [] = done := funext (fun a => Bool.or_false (done a))
    rw [hdone]
    rfl
  | cons b bs ih =>
    obtain ⟨hb, hbs⟩ := List.forall_mem_cons.1 hbs
    obtain ⟨changed, hupdate, hfirst⟩ := hm.update?_eq hp hF hb
    obtain ⟨changed', hsweep, hrest⟩ := ih hbs (hF.update b)
    refine ⟨changed || changed', ?_, ?_⟩
    · rw [sweep?, hupdate, markAll_cons]
      simp only [Option.bind_eq_bind, Option.bind_some, hsweep]
      rfl
    · rw [Bool.or_eq_false_iff, hfirst, hrest, List.forall_mem_cons]
      constructor
      · rintro ⟨⟨hdone, hsame⟩, hdones, hsames⟩
        refine ⟨⟨hdone, fun a ha => ?_⟩, fun c hc => List.forall_mem_cons.2 ⟨hsame c hc, ?_⟩⟩
        · rcases Bool.or_eq_true_iff.1 (hdones a ha) with h | h
          · exact h
          · exact eq_of_beq h ▸ hdone
        · have h := hsames c hc
          rwa [hsame c hc] at h
      · rintro ⟨⟨hdone, hdones⟩, hsames⟩
        have hsame := fun c hc => (List.forall_mem_cons.1 (hsames c hc)).1
        refine ⟨⟨hdone, hsame⟩, fun a ha => Bool.or_eq_true_iff.2 (Or.inl (hdones a ha)), ?_⟩
        intro c hc
        rw [hsame c hc]
        exact (List.forall_mem_cons.1 (hsames c hc)).2

end Tables

/-! ## The rounds from the start -/

/-- The blocks that are done after `k` rounds. -/
def doneAt (p : Procedure) (k b : Nat) : Bool :=
  decide (0 < k) && p.order.contains b

/-- The table after `k` rounds. -/
def tableAt (p : Procedure) (k : Nat) : Table :=
  tableOf p (doneAt p k) (fun name => (Flow.of p).rounds name k)

theorem markAll_doneAt (p : Procedure) (k : Nat) :
    markAll (doneAt p k) p.order = doneAt p (k + 1) := by
  funext b
  simp only [markAll, doneAt, Nat.zero_lt_succ, decide_true, Bool.true_and]
  cases decide (0 < k) with
  | true => simp
  | false => simp

theorem fits_rounds (p : Procedure) (k : Nat) :
    Fits p (doneAt p k) (fun name => (Flow.of p).rounds name k) := by
  induction k with
  | zero =>
    exact ⟨fun _ => List.length_replicate, fun b _ _ => Flow.outOf_replicate _ b⟩
  | succ k ih => exact markAll_doneAt p k ▸ ih.sweep p.order

theorem getElem?_tableAt {p : Procedure} {b : Nat} (hb : b < p.blocks.length) (k : Nat) :
    (tableAt p k)[b]? = some (if 0 < k ∧ b ∈ p.order then
      some (p.handles.map (fun c => Flow.outOf ((Flow.of p).rounds c.name k) b)) else none) := by
  rw [tableAt, getElem?_tableOf hb]
  simp [doneAt]

/-- The round after `k` rounds changes nothing. -/
def Settled (p : Procedure) (k : Nat) : Prop :=
  (∀ b ∈ p.order, doneAt p k b = true) ∧
  ∀ c ∈ p.handles, (Flow.of p).round c.name ((Flow.of p).rounds c.name k) =
    (Flow.of p).rounds c.name k

theorem settled_of_lt {p : Procedure} {k : Nat} (hk : 3 * p.blocks.length < k) : Settled p k := by
  refine ⟨fun b hb => ?_, fun c _ => ?_⟩
  · rw [doneAt, decide_eq_true (Nat.zero_lt_of_lt hk), List.contains_iff_mem.2 hb]
    rfl
  · have hstep : (Flow.of p).rounds c.name (k + 1) = (Flow.of p).solution c.name :=
      Flow.rounds_eq_solution (Nat.le_succ_of_le (Nat.le_of_lt hk))
    exact hstep.trans (Flow.rounds_eq_solution (Nat.le_of_lt hk)).symm

theorem Settled.tableAt_succ {p : Procedure} {k : Nat} (h : Settled p k) :
    tableAt p (k + 1) = tableAt p k := by
  have hdone : doneAt p (k + 1) = doneAt p k := by
    rw [← markAll_doneAt]
    funext b
    by_cases hb : b ∈ p.order
    · rw [markAll, h.1 b hb, Bool.true_or]
    · simp [markAll, hb]
  unfold tableAt tableOf
  refine List.map_congr_left (fun b _ => ?_)
  rw [hdone]
  refine congrArg (fun row => if doneAt p k b then some row else none)
    (List.map_congr_left (fun c hc => ?_))
  exact congrArg (fun outs => Flow.outOf outs b) (h.2 c hc)

theorem For.round?_tableAt {m : Plan} {p : Procedure} (hm : m.For p) (hp : p.InRange) (k : Nat) :
    ∃ changed, m.round? (tableAt p k) = some (tableAt p (k + 1), changed) ∧
      (changed = false ↔ Settled p k) := by
  obtain ⟨changed, hsweep, hiff⟩ := hm.sweep?_eq hp (fun b => lt_length_of_mem_order hp)
    (fits_rounds p k)
  refine ⟨changed, ?_, ?_⟩
  · rw [round?, hm.order]
    rw [markAll_doneAt] at hsweep
    exact hsweep
  · rw [hiff, Settled]
    refine and_congr_right (fun _ => forall₂_congr (fun c _ => ?_))
    exact ((Flow.of p).growing_rounds c.name k).round_eq_self_iff.symm

end Plan

end Wiring
