import Mathlib.Logic.Basic
import Wiring.Document.Decoder
import Wiring.Proofs.Json.Documents

/-!
# Documents that hold values

A document holds a value for a decoder if the decoder takes the value from it whenever it may go as
deep as the document, and not otherwise. How the document is met makes no difference, so a value is
held inside a tagged value as it is outside. Lists, records and tagged values of values that are
held are held themselves.
-/

namespace Wiring

/-- The document holds the value: the decoder takes the value from it if it may enter as many lists
and records as the document has around its deepest place, and fails if it may not. -/
structure Holds {α : Type} (dec : Decoder α) (doc : Document) (x : α) : Prop where
  regular : doc.Regular
  decode_eq (n : Nat) (a : Access) : dec n a doc = if doc.depth ≤ n then some x else none

/-! ## Depth and readability -/

namespace Document

@[simp] theorem depth_bool (b : Bool) : (Document.bool b).depth = 0 :=
  rfl

@[simp] theorem depth_nat (k : Nat) : (Document.nat k).depth = 0 :=
  rfl

@[simp] theorem depth_str (s : String) : (Document.str s).depth = 0 :=
  rfl

theorem depth_list_le_iff {ds : List Document} {n : Nat} :
    (Document.list ds).depth ≤ n + 1 ↔ ∀ d ∈ ds, d.depth ≤ n := by
  rw [depth, Nat.add_le_add_iff_right]
  induction ds with
  | nil => simp [depthItems]
  | cons d ds ih => rw [depthItems, Nat.max_le, ih, List.forall_mem_cons]

theorem depth_fields_le_iff {fs : List (String × Document)} {n : Nat} :
    (Document.fields fs).depth ≤ n + 1 ↔ ∀ f ∈ fs, f.2.depth ≤ n := by
  rw [fields, depth, Nat.add_le_add_iff_right]
  induction fs with
  | nil => simp [depthFields]
  | cons f fs ih =>
    have hname : (Scalar.str f.1).depth = 0 := rfl
    rw [List.map_cons, depthFields, hname, Nat.zero_max, Nat.max_le, ih, List.forall_mem_cons]

theorem depth_tagged_le_iff {tag v : String} {fs : List (String × Document)} {n : Nat} :
    (Document.fields ((tag, .str v) :: fs)).depth ≤ n + 1 ↔ ∀ f ∈ fs, f.2.depth ≤ n := by
  rw [depth_fields_le_iff, List.forall_mem_cons]
  exact and_iff_right (Nat.zero_le n)

theorem areReadable_iff {ds : List Document} :
    areReadable ds ↔ ∀ d ∈ ds, d.isReadable := by
  induction ds with
  | nil => simp [areReadable]
  | cons d ds ih => rw [areReadable, Bool.and_eq_true, ih, List.forall_mem_cons]

theorem haveReadable_named_iff {fs : List (String × Document)} :
    haveReadable (Json.named fs) ↔ ∀ f ∈ fs, f.2.isReadable := by
  induction fs with
  | nil => simp [haveReadable]
  | cons f fs ih =>
    have hname : (Scalar.str f.1).isReadable = true := rfl
    rw [Json.named, List.map_cons, haveReadable, hname, Bool.true_and, Bool.and_eq_true, ih,
      List.forall_mem_cons]

theorem Regular.isReadable {d : Document} (h : d.Regular) : d.isReadable := by
  induction h with
  | null | bool _ | nat _ | str _ => rfl
  | list _ ih => exact areReadable_iff.2 ih
  | fields _ ih => exact haveReadable_named_iff.2 ih

end Document

open Document

theorem holds_of_scalar {α : Type} {dec : Decoder α} {s : Scalar} {x : α}
    (hregular : Regular (.scalar s)) (h : ∀ n a, dec n a (.scalar s) = some x) :
    Holds dec (.scalar s) x where
  regular := hregular
  decode_eq n a := by
    rw [if_pos (show depth (.scalar s) ≤ n from Nat.zero_le n), h]

theorem holds_of_succ {α : Type} {dec : Decoder α} {doc : Document} {x : α}
    (hregular : doc.Regular) (hdepth : 0 < doc.depth) (hzero : ∀ a, dec 0 a doc = none)
    (hsucc : ∀ n a, dec (n + 1) a doc = if doc.depth ≤ n + 1 then some x else none) :
    Holds dec doc x where
  regular := hregular
  decode_eq n a := by
    cases n with
    | zero => rw [if_neg (Nat.not_le_of_lt hdepth), hzero]
    | succ n => exact hsucc n a

/-! ## Scalars -/

theorem holds_text (s : String) : Holds Decode.text (.str s) s :=
  holds_of_scalar (.str s) (fun _ a => by cases a <;> rfl)

theorem holds_bool (b : Bool) : Holds Decode.bool (.bool b) b :=
  holds_of_scalar (.bool b) (fun _ _ => rfl)

theorem natBelow_nat {k bound : Nat} (h : k < bound) (n : Nat) (a : Access) :
    Decode.natBelow bound n a (.nat k) = some k :=
  if_pos h

theorem holds_u32 (k : UInt32) : Holds Decode.u32 (.nat k.toNat) k := by
  refine holds_of_scalar (.nat (Nat.lt_trans k.toNat_lt (by decide))) (fun n a => ?_)
  show (Decode.natBelow UInt32.size n a (.nat k.toNat)).map UInt32.ofNat = some k
  rw [natBelow_nat k.toNat_lt, Option.map_some, UInt32.ofNat_toNat]

theorem holds_u64 (k : UInt64) : Holds Decode.u64 (.nat k.toNat) k := by
  refine holds_of_scalar (.nat k.toNat_lt) (fun n a => ?_)
  show (Decode.natBelow UInt64.size n a (.nat k.toNat)).map UInt64.ofNat = some k
  rw [natBelow_nat k.toNat_lt, Option.map_some, UInt64.ofNat_toNat]

theorem holds_word {α : Type} {table : List (String × α)} {w : String} {x : α}
    (h : table.lookup w = some x) : Holds (Decode.word table) (.str w) x :=
  holds_of_scalar (.str w) (fun _ a => by cases a <;> exact h)

/-! ## Lists and optional values -/

/-- What comes after a value that may be missing is conditional as well. -/
@[simp] theorem ite_some_bind {α β : Type} {c : Prop} [Decidable c] {x : α} {k : α → Option β} :
    (if c then some x else none).bind k = if c then k x else none := by
  split <;> rfl

theorem mapM_map_ite {α β : Type} {f : β → Option α} {write : α → β} {P : α → Prop}
    [DecidablePred P] {xs : List α}
    (h : ∀ x ∈ xs, f (write x) = if P x then some x else none) :
    (xs.map write).mapM f = if ∀ x ∈ xs, P x then some xs else none := by
  induction xs with
  | nil => simp
  | cons x xs ih =>
    obtain ⟨hx, hxs⟩ := List.forall_mem_cons.1 h
    simp only [List.map_cons, List.mapM_cons, hx, ih hxs, List.forall_mem_cons, ite_and]
    simp

theorem holds_list {α : Type} {dec : Decoder α} {write : α → Document} {xs : List α}
    (h : ∀ x ∈ xs, Holds dec (write x) x) :
    Holds (Decode.list dec) (.list (xs.map write)) xs := by
  refine holds_of_succ (.list (List.forall_mem_map.2 (fun x hx => (h x hx).regular)))
    (Nat.succ_pos _) (fun _ => rfl) (fun n a => ?_)
  simp only [Decode.list, mapM_map_ite (fun x hx => (h x hx).decode_eq n a), depth_list_le_iff,
    List.forall_mem_map]

theorem holds_none {α : Type} (dec : Decoder α) : Holds (Decode.nullable dec) .null none :=
  holds_of_scalar .null (fun _ _ => rfl)

theorem Holds.some {α : Type} {dec : Decoder α} {doc : Document} {x : α} (h : Holds dec doc x)
    (hnull : Decode.isNull doc = false) : Holds (Decode.nullable dec) doc (some x) where
  regular := h.regular
  decode_eq n a := by
    rw [Decode.nullable, hnull, h.decode_eq]
    by_cases hn : doc.depth ≤ n
    · simp [hn]
    · simp [hn]

theorem Holds.map {α β : Type} {dec : Decoder α} {doc : Document} {x : α} (h : Holds dec doc x)
    (f : α → β) : Holds (fun n a doc => (dec n a doc).map f) doc (f x) where
  regular := h.regular
  decode_eq n a := by rw [h.decode_eq, apply_ite (Option.map f), Option.map_some, Option.map_none]

theorem holds_mapOf {α : Type} {dec : Decoder α} {write : α → Document}
    {es : List (String × α)} (h : ∀ e ∈ es, Holds dec (write e.2) e.2) :
    Holds (Decode.mapOf dec) (.fields (es.map (fun e => (e.1, write e.2)))) es := by
  refine holds_of_succ (.fields (List.forall_mem_map.2 (fun e he => (h e he).regular)))
    (Nat.succ_pos _) (fun _ => rfl) (fun n a => ?_)
  have hentry : ∀ e ∈ es, (Decode.textOf a (.str e.1)).bind (fun k =>
      (dec n a (write e.2)).map (fun v => (k, v))) =
        if (write e.2).depth ≤ n then some e else none := by
    intro e he
    have hname : Decode.textOf a (.str e.1) = some e.1 := by cases a <;> rfl
    rw [hname, Option.bind_some, (h e he).decode_eq, apply_ite (Option.map _), Option.map_some,
      Option.map_none]
  have hdecode : Decode.mapOf dec (n + 1) a (.fields (es.map (fun e => (e.1, write e.2)))) =
      (es.map (fun e => (Scalar.str e.1, write e.2))).mapM (fun f =>
        (Decode.textOf a f.1).bind (fun k => (dec n a f.2).map (fun v => (k, v)))) := by
    show ((es.map _).map _).mapM _ = _
    rw [List.map_map]
    rfl
  simp only [depth_fields_le_iff, List.forall_mem_map]
  rw [hdecode]
  exact mapM_map_ite hentry

/-! ## Records -/

namespace Fields

variable {α : Type} {n : Nat} {a : Access} {name other : String} {doc : Document}
  {fs : List (String × Document)} {default : α} {dec : Decoder α}

@[simp] theorem need_head : need ⟨n, a, (name, doc) :: fs⟩ name dec = dec n a doc := by
  simp [need]

@[simp] theorem need_tail (h : name ≠ other) :
    need ⟨n, a, (other, doc) :: fs⟩ name dec = need ⟨n, a, fs⟩ name dec := by
  simp [need, List.lookup_cons, beq_false_of_ne h]

@[simp] theorem maybe_head : maybe ⟨n, a, (name, doc) :: fs⟩ name default dec = dec n a doc := by
  simp [maybe]

@[simp] theorem maybe_tail (h : name ≠ other) :
    maybe ⟨n, a, (other, doc) :: fs⟩ name default dec = maybe ⟨n, a, fs⟩ name default dec := by
  simp [maybe, List.lookup_cons, beq_false_of_ne h]

@[simp] theorem maybe_nil : maybe ⟨n, a, []⟩ name default dec = some default :=
  rfl

end Fields

namespace Decode

/-- Whether names are among the known ones and none comes twice. -/
def fits (names given : List String) : Bool :=
  distinct given && given.all names.contains

theorem pick_str (a : Access) (names : List String) (s : String) :
    pick a names (.str s) = some (if names.contains s then some s else none) := by
  cases a <;> rfl

theorem knownFields_named {names : List String} {fs : List (String × Document)}
    (h : (fs.map Prod.fst).all names.contains) (a : Access) :
    knownFields a names (Json.named fs) = some fs := by
  induction fs with
  | nil => rfl
  | cons f fs ih =>
    rw [List.map_cons, List.all_cons, Bool.and_eq_true] at h
    rw [Json.named, List.map_cons, knownFields, pick_str, if_pos h.1, ih h.2]

theorem entries_fields {names : List String} {fs : List (String × Document)}
    (h : fits names (fs.map Prod.fst)) (a : Access) :
    entries a names (.fields fs) = some fs := by
  rw [fits, Bool.and_eq_true] at h
  rw [Document.fields, entries, knownFields_named h.2]
  exact if_pos h.1

theorem record_fields {α : Type} {names : List String} {build : Fields → Option α}
    {fs : List (String × Document)} (h : fits names (fs.map Prod.fst)) (n : Nat) (a : Access) :
    record names build (n + 1) a (.fields fs) = build ⟨n, a, fs⟩ := by
  show (entries a names (.fields fs)).bind (fun es => build ⟨n, a, es⟩) = _
  rw [entries_fields h, Option.bind_some]

end Decode

theorem holds_record {α : Type} {names : List String} {build : Fields → Option α}
    {fs : List (String × Document)} {x : α} (hnames : Decode.fits names (fs.map Prod.fst))
    (hregular : ∀ f ∈ fs, f.2.Regular)
    (hbuild : ∀ n a, build ⟨n, a, fs⟩ = if ∀ f ∈ fs, f.2.depth ≤ n then some x else none) :
    Holds (Decode.record names build) (.fields fs) x := by
  refine holds_of_succ (.fields hregular) (Nat.succ_pos _) (fun _ => rfl) (fun n a => ?_)
  simp only [depth_fields_le_iff, Decode.record_fields hnames, hbuild]

/-! ## Tagged values -/

namespace Decode

theorem splitTag_fields {tag : String} {names : List String} {v : String}
    {fs : List (String × Document)} (hv : v ∈ names) (htag : tag ∉ fs.map Prod.fst)
    (a : Access) :
    splitTag a tag names (.fields ((tag, .str v) :: fs)) = some (v, .fields fs) := by
  have hothers : ∀ f ∈ Json.named fs, (f.1.value == .str tag) = false := by
    intro f hf
    obtain ⟨g, hg, rfl⟩ := List.mem_map.1 hf
    refine beq_false_of_ne (fun heq => htag ?_)
    exact Value.str.inj heq ▸ List.mem_map_of_mem hg
  have htagged : (Json.named fs).filter (fun f => f.1.value == .str tag) = [] :=
    List.filter_eq_nil_iff.2 (fun f hf => by rw [hothers f hf]; exact Bool.false_ne_true)
  have hrest : (Json.named fs).filter (fun f => !(f.1.value == .str tag)) = Json.named fs :=
    List.filter_eq_self.2 (fun f hf => by rw [hothers f hf]; rfl)
  have hself : ((Scalar.str tag).value == .str tag) = true := beq_self_eq_true _
  have hvariant : variant a names (.str v) = some v := by
    have hpick := pick_str a names v
    rw [if_pos (List.contains_iff_mem.2 hv)] at hpick
    exact congrArg Option.join hpick
  simp only [Document.fields, List.map_cons, splitTag, List.filter_cons, hself, if_true, htagged,
    hvariant, Bool.not_true, hrest, Option.map_some]
  rfl

theorem tagged_fields {α : Type} {tag : String} {variants : List (String × List String)}
    {build : String → Fields → Option α} {v : String} {names : List String}
    {fs : List (String × Document)} (hv : variants.lookup v = some names)
    (hnames : fits names (fs.map Prod.fst)) (htag : tag ∉ fs.map Prod.fst)
    (hregular : ∀ f ∈ fs, f.2.Regular) (n : Nat) (a : Access) :
    tagged tag variants build (n + 1) a (.fields ((tag, .str v) :: fs)) =
      if a = .held ∨ ∀ f ∈ fs, f.2.depth ≤ n then build v ⟨n, .held, fs⟩ else none := by
  have hmem : v ∈ variants.map Prod.fst := by
    obtain ⟨before, after, rfl, -⟩ := List.lookup_eq_some_iff.1 hv
    simp
  have hall : ∀ f ∈ (tag, Document.str v) :: fs, f.2.Regular :=
    List.forall_mem_cons.2 ⟨.str v, hregular⟩
  have hholdable : holdable (n + 1) (.fields ((tag, .str v) :: fs)) =
      decide (∀ f ∈ fs, f.2.depth ≤ n) := by
    rw [holdable, (Regular.fields hall).isReadable, Bool.true_and, decide_eq_decide,
      depth_tagged_le_iff]
  rw [tagged, splitTag_fields hmem htag, hholdable]
  simp only [hv, entries_fields hnames, decide_eq_true_eq, Option.bind_some]

/-- A tagged value is checked as a whole before its fields are looked at. That refuses nothing that
the fields would not refuse. -/
theorem tagged_fields_of_build {α : Type} {tag : String}
    {variants : List (String × List String)} {build : String → Fields → Option α} {v : String}
    {names : List String} {fs : List (String × Document)} {x : α} {n : Nat}
    (hv : variants.lookup v = some names) (hnames : fits names (fs.map Prod.fst))
    (htag : tag ∉ fs.map Prod.fst) (hregular : ∀ f ∈ fs, f.2.Regular)
    (hbuild : build v ⟨n, .held, fs⟩ = if ∀ f ∈ fs, f.2.depth ≤ n then some x else none)
    (a : Access) :
    tagged tag variants build (n + 1) a (.fields ((tag, .str v) :: fs)) =
      if (Document.fields ((tag, .str v) :: fs)).depth ≤ n + 1 then some x else none := by
  simp only [depth_tagged_le_iff, tagged_fields hv hnames htag hregular, hbuild]
  split
  · rfl
  · next hcheck => rw [if_neg (fun h => hcheck (.inr h))]

end Decode

theorem holds_tagged {α : Type} {tag : String} {variants : List (String × List String)}
    {build : String → Fields → Option α} {v : String} {names : List String}
    {fs : List (String × Document)} {x : α} (hv : variants.lookup v = some names)
    (hnames : Decode.fits names (fs.map Prod.fst)) (htag : tag ∉ fs.map Prod.fst)
    (hregular : ∀ f ∈ fs, f.2.Regular)
    (hbuild : ∀ n, build v ⟨n, .held, fs⟩ =
      if ∀ f ∈ fs, f.2.depth ≤ n then some x else none) :
    Holds (Decode.tagged tag variants build) (.fields ((tag, .str v) :: fs)) x :=
  holds_of_succ (.fields (List.forall_mem_cons.2 ⟨.str v, hregular⟩)) (Nat.succ_pos _)
    (fun _ => rfl) (fun n => Decode.tagged_fields_of_build hv hnames htag hregular (hbuild n))

end Wiring
