import Wiring.Document.Basic

/-!
# Decoding documents

How plain data is taken from documents. A record is written with its fields by name, in any order
and with other fields among them. Except where it comes straight from YAML text, it may also be a
list of its values in order; fields at the end that have a default may be left out of the list. A
tagged value names its variant in a field of its own, or at the head of a list.

What is inside a tagged value has to be held back until the tag is known, so it is checked as a
whole and then decoded without regard to the text it came from. This is why a decoder is told how
the document is met.
-/

namespace Wiring

/-- How a document is met: straight from JSON text, straight from YAML text, or held back inside a
tagged value. -/
inductive Access where
  | json
  | yaml
  | held
deriving DecidableEq, Repr

/-- A decoder is given the number of lists and records that may still be entered. -/
abbrev Decoder (α : Type) := Nat → Access → Document → Option α

namespace Decode

/-- The scalar that stands for nothing at all, as after a colon in YAML with no value behind it. -/
def isBlank (s : Scalar) : Bool :=
  s.text == some "" && s.value == .null

/-- Whether the document is `null`. -/
def isNull : Document → Bool
  | .scalar s => s.value == .null
  | _ => false

/-- The text of a scalar; held back, only what was text from the start. -/
def textOf (a : Access) (s : Scalar) : Option String :=
  match a with
  | .held =>
    match s.value with
    | .str t => some t
    | _ => none
  | _ => s.text

/-- Which of the names a scalar picks: `none` if it is none of them, and failure if it names
nothing. Held back, a number picks the name at its place. -/
def pick (a : Access) (names : List String) (s : Scalar) : Option (Option String) :=
  match a with
  | .held =>
    match s.value with
    | .str t => some (if names.contains t then some t else none)
    | .nat i => some names[i]?
    | _ => none
  | _ => s.text.map (fun t => if names.contains t then some t else none)

/-! ## Scalars -/

/-- Text. -/
def text : Decoder String := fun _ a doc =>
  match doc with
  | .scalar s => textOf a s
  | _ => none

/-- A truth value. -/
def bool : Decoder Bool := fun _ _ doc =>
  match doc with
  | .scalar ⟨_, .bool b⟩ => some b
  | _ => none

/-- An integer below the bound. Held back, also zero with a minus sign. -/
def natBelow (bound : Nat) : Decoder Nat := fun _ a doc =>
  match doc with
  | .scalar ⟨_, .nat n⟩ => if n < bound then some n else none
  | .scalar ⟨_, .int z⟩ => if a = .held ∧ 0 ≤ z ∧ z.toNat < bound then some z.toNat else none
  | _ => none

/-- An integer of 32 bits. -/
def u32 : Decoder UInt32 := fun n a doc =>
  (natBelow UInt32.size n a doc).map UInt32.ofNat

/-- An integer of 64 bits. -/
def u64 : Decoder UInt64 := fun n a doc =>
  (natBelow UInt64.size n a doc).map UInt64.ofNat

/-- One of some words. JSON and held content also take a record with the word as its only name and
nothing as its value; held content takes an empty record for nothing. -/
def word {α : Type} (table : List (String × α)) : Decoder α := fun n a doc =>
  match doc with
  | .scalar s => (textOf a s).bind (fun w => table.lookup w)
  | .record [(k, v)] =>
    match a with
    | .json => if n ≠ 0 ∧ isNull v then k.text.bind (fun w => table.lookup w) else none
    | .yaml => none
    | .held =>
      let named := (pick .held (table.map Prod.fst) k).join.bind (fun w => table.lookup w)
      match v with
      | .scalar ⟨_, .null⟩ => named
      | .record [] => named
      | _ => none
  | _ => none

/-! ## Lists and optional values -/

/-- Nothing, or a value. -/
def nullable {α : Type} (dec : Decoder α) : Decoder (Option α) := fun n a doc =>
  if isNull doc then some none else (dec n a doc).map some

/-- A list. -/
def list {α : Type} (dec : Decoder α) : Decoder (List α) := fun n a doc =>
  match doc, n with
  | .list items, m + 1 => items.mapM (dec m a)
  | .scalar s, _ => if a ≠ .held ∧ isBlank s then some [] else none
  | _, _ => none

/-- Values by name, in the order of the document and with repeated names. -/
def mapOf {α : Type} (dec : Decoder α) : Decoder (List (String × α)) := fun n a doc =>
  match doc, n with
  | .record fs, m + 1 =>
    fs.mapM (fun f => (textOf a f.1).bind (fun k => (dec m a f.2).map (fun v => (k, v))))
  | .scalar s, _ => if a ≠ .held ∧ isBlank s then some [] else none
  | _, _ => none

/-! ## Records -/

end Decode

/-- The known fields of a record, and how their values are met. -/
structure Fields where
  depth : Nat
  access : Access
  entries : List (String × Document)

namespace Fields

/-- A field that must be there. -/
def need {α : Type} (fs : Fields) (name : String) (dec : Decoder α) : Option α :=
  (fs.entries.lookup name).bind (dec fs.depth fs.access)

/-- A field with a default. -/
def maybe {α : Type} (fs : Fields) (name : String) (default : α) (dec : Decoder α) : Option α :=
  match fs.entries.lookup name with
  | none => some default
  | some doc => dec fs.depth fs.access doc

end Fields

namespace Decode

/-- Whether no name comes twice. -/
def distinct : List String → Bool
  | [] => true
  | k :: ks => !ks.contains k && distinct ks

/-- The known fields among those of a record, which must not be repeated. -/
def knownFields (a : Access) (names : List String) :
    List (Scalar × Document) → Option (List (String × Document))
  | [] => some []
  | (k, d) :: fs =>
    match pick a names k, knownFields a names fs with
    | some (some name), some es => some ((name, d) :: es)
    | some none, some es => some es
    | _, _ => none

/-- The known fields of a record, by name or in order. Straight from YAML text they are always
named. -/
def entries (a : Access) (names : List String) : Document → Option (List (String × Document))
  | .record fs =>
    match knownFields a names fs with
    | some es => if distinct (es.map Prod.fst) then some es else none
    | none => none
  | .list items =>
    if a ≠ .yaml ∧ items.length ≤ names.length then some (names.zip items) else none
  | .scalar s => if a ≠ .held ∧ isBlank s then some [] else none

/-- A record with the given fields in order. -/
def record {α : Type} (names : List String) (build : Fields → Option α) : Decoder α :=
  fun n a doc =>
    match doc, n with
    | .scalar _, _ => (entries a names doc).bind (fun es => build ⟨0, a, es⟩)
    | _, m + 1 => (entries a names doc).bind (fun es => build ⟨m, a, es⟩)
    | _, 0 => none

/-- The variant that a tag names. -/
def variant (a : Access) (names : List String) : Document → Option String
  | .scalar s => (pick a names s).join
  | _ => none

/-- Takes the tag off a tagged value: its variant, and what is left. -/
def splitTag (a : Access) (tag : String) (names : List String) :
    Document → Option (String × Document)
  | .record fs =>
    match fs.filter (fun f => f.1.value == .str tag) with
    | [(_, t)] =>
      (variant a names t).map
        (fun v => (v, .record (fs.filter (fun f => !(f.1.value == .str tag)))))
    | _ => none
  | .list (t :: items) => (variant a names t).map (fun v => (v, .list items))
  | _ => none

/-- Whether a document can be held back: it is readable and not too deep. -/
def holdable (n : Nat) (doc : Document) : Bool :=
  doc.isReadable && doc.depth ≤ n

/-- A tagged value, each of its variants with its fields in order. -/
def tagged {α : Type} (tag : String) (variants : List (String × List String))
    (build : String → Fields → Option α) : Decoder α :=
  fun n a doc =>
    match n with
    | 0 => none
    | m + 1 =>
      if a = .held ∨ holdable (m + 1) doc then
        match splitTag a tag (variants.map Prod.fst) doc with
        | none => none
        | some (v, body) =>
          match variants.lookup v with
          | none => none
          | some names =>
            (entries .held names body).bind (fun es => build v ⟨m, .held, es⟩)
      else none

end Decode

end Wiring
