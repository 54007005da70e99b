/-!
# Documents

A document is a tree of scalars, lists and records, as JSON or YAML text gives it. Records keep
the order of their fields and also fields of the same name. A scalar keeps apart the text that it
offers where text is wanted and the value that it has by itself: an unquoted `12` in YAML is the
text `12` in a place for text and the number twelve elsewhere, while JSON writes text in one way
only.
-/

namespace Wiring

/-- What a scalar is by itself. -/
inductive Value where
  | null
  | bool (b : Bool)
  /-- An integer below 2^64 written without a minus sign. -/
  | nat (n : Nat)
  /-- An integer of 64 bits written with a minus sign. -/
  | int (z : Int)
  /-- Any other number in the range of a double. -/
  | real
  | str (s : String)
  /-- A list or record where a field has its name: it names nothing, and nests to this depth. -/
  | nested (depth : Nat)
  /-- Well formed in the text, but nothing that can be held: half a surrogate pair, or a number out
  of range. -/
  | unreadable
deriving DecidableEq, Repr, Inhabited

/-- A scalar with the text it offers and the value it has. -/
structure Scalar where
  text : Option String
  value : Value
deriving DecidableEq, Repr, Inhabited

namespace Scalar

/-- Text that is written as such. -/
def str (s : String) : Scalar :=
  ⟨some s, .str s⟩

/-- A value that offers no text. -/
def only (v : Value) : Scalar :=
  ⟨none, v⟩

/-- Whether the scalar can be held. -/
def isReadable (s : Scalar) : Bool :=
  match s.value with
  | .unreadable => false
  | _ => true

/-- The number of lists and records in it, which only a name can have. -/
def depth (s : Scalar) : Nat :=
  match s.value with
  | .nested n => n
  | _ => 0

end Scalar

/-- A tree of scalars, lists and records. -/
inductive Document where
  | scalar (s : Scalar)
  | list (items : List Document)
  | record (fields : List (Scalar × Document))
deriving Repr, Inhabited

namespace Document

/-- The document that says nothing. -/
def null : Document :=
  .scalar (.only .null)

/-- A truth value. -/
def bool (b : Bool) : Document :=
  .scalar (.only (.bool b))

/-- A number. -/
def nat (n : Nat) : Document :=
  .scalar (.only (.nat n))

/-- Text. -/
def str (s : String) : Document :=
  .scalar (.str s)

/-- A record with named fields. -/
def fields (fs : List (String × Document)) : Document :=
  .record (fs.map (fun f => (Scalar.str f.1, f.2)))

mutual
/-- The number of lists and records around the deepest place. -/
def depth : Document → Nat
  | .scalar _ => 0
  | .list items => depthItems items + 1
  | .record fs => depthFields fs + 1

/-- The greatest depth in a list. -/
def depthItems : List Document → Nat
  | [] => 0
  | d :: ds => max (depth d) (depthItems ds)

/-- The greatest depth in a record, in its names as well as in its values. -/
def depthFields : List (Scalar × Document) → Nat
  | [] => 0
  | (k, d) :: fs => max (max k.depth (depth d)) (depthFields fs)
end

mutual
/-- Whether every scalar, names of fields included, can be held. -/
def isReadable : Document → Bool
  | .scalar s => s.isReadable
  | .list items => areReadable items
  | .record fs => haveReadable fs

/-- Whether every document of a list can be held. -/
def areReadable : List Document → Bool
  | [] => true
  | d :: ds => isReadable d && areReadable ds

/-- Whether every name and value of a record can be held. -/
def haveReadable : List (Scalar × Document) → Bool
  | [] => true
  | (k, d) :: fs => k.isReadable && isReadable d && haveReadable fs
end

end Document

end Wiring
