import Wiring.TypeRef

/-!
# Services

A service is requested by its type and, if it is registered under a key, by that key too.
-/

namespace Wiring

/-- What a service is registered and requested as. Registrations under different keys, or with and
without a key, never meet. -/
structure ServiceIdentity where
  ty : TypeRef
  key : Option String
deriving DecidableEq, Repr, Inhabited

namespace ServiceIdentity

/-- The identity without a key. -/
def of (ty : TypeRef) : ServiceIdentity :=
  ⟨ty, none⟩

/-- The identity under a key. -/
def keyed (ty : TypeRef) (key : String) : ServiceIdentity :=
  ⟨ty, some key⟩

/-- Another type under the same key. -/
def withTy (s : ServiceIdentity) (ty : TypeRef) : ServiceIdentity :=
  ⟨ty, s.key⟩

/-- Whether the service type is a generic definition. -/
def isOpen (s : ServiceIdentity) : Bool :=
  s.ty.isOpen

/-- The generic definition under the same key that a closed generic service instantiates. -/
def openDefinition (s : ServiceIdentity) : Option ServiceIdentity :=
  s.ty.openDefinition.map s.withTy

/-- The type, followed by the key if there is one. -/
def text (s : ServiceIdentity) : String :=
  match s.key with
  | some k => s.ty.text ++ " [key: " ++ k ++ "]"
  | none => s.ty.text

instance : ToString ServiceIdentity := ⟨text⟩

/-- No key comes before every key. -/
def cmpKey : Option String → Option String → Ordering
  | none, none => .eq
  | none, some _ => .lt
  | some _, none => .gt
  | some a, some b => compare a b

/-- By type, then by key. -/
def cmp (a b : ServiceIdentity) : Ordering :=
  (a.ty.cmp b.ty).then (cmpKey a.key b.key)

instance : Ord ServiceIdentity := ⟨cmp⟩

/-- The order of `cmp` as a test for sorting. -/
def le (a b : ServiceIdentity) : Bool :=
  (cmp a b).isLE

/-- Identities in ascending order; equal ones keep their places. -/
def sort (ids : List ServiceIdentity) : List ServiceIdentity :=
  ids.mergeSort le

end ServiceIdentity

end Wiring
