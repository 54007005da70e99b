import Wiring.Document.Decoder
import Wiring.Service

/-!
# Type references and services in documents
-/

namespace Wiring

namespace TypeRef

mutual
/-- The document of a type reference; arguments are left out if there are none. -/
def toDocument : TypeRef → Document
  | .closed n [] => .fields [("kind", .str "closed"), ("name", .str n)]
  | .closed n (a :: as) =>
    .fields [("kind", .str "closed"), ("name", .str n),
      ("args", .list (toDocument a :: toDocuments as))]
  | .generic n k => .fields [("kind", .str "open"), ("name", .str n), ("arity", .nat k.toNat)]
  | .param n => .fields [("kind", .str "param"), ("name", .str n)]

/-- The documents of a list of type references. -/
def toDocuments : List TypeRef → List Document
  | [] => []
  | t :: ts => toDocument t :: toDocuments ts
end

/-- The variants of a type reference with their fields. -/
def variants : List (String × List String) :=
  [("closed", ["name", "args"]), ("open", ["name", "arity"]), ("param", ["name"])]

/-- A type reference of a variant, its arguments as their own decoder reads them. -/
def ofFields (args : Decoder (List TypeRef)) (v : String) (fs : Fields) : Option TypeRef :=
  match v with
  | "closed" => do return .closed (← fs.need "name" Decode.text) (← fs.maybe "args" [] args)
  | "open" => do return .generic (← fs.need "name" Decode.text) (← fs.need "arity" Decode.u64)
  | _ => do return .param (← fs.need "name" Decode.text)

/-- A type reference. Its arguments are two levels further in. -/
def decode : Decoder TypeRef
  | 0 => fun _ _ => none
  | 1 => fun a doc => Decode.tagged "kind" variants (ofFields (fun _ _ _ => none)) 1 a doc
  | n + 2 => fun a doc =>
    Decode.tagged "kind" variants (ofFields (fun _ => Decode.list (fun _ => decode n) 1)) (n + 2)
      a doc

end TypeRef

namespace ServiceIdentity

/-- The document of a service; the key is left out if there is none. -/
def toDocument (s : ServiceIdentity) : Document :=
  match s.key with
  | none => .fields [("ty", s.ty.toDocument)]
  | some k => .fields [("ty", s.ty.toDocument), ("key", .str k)]

/-- A service. -/
def decode : Decoder ServiceIdentity :=
  Decode.record ["ty", "key"] (fun fs => do
    return ⟨← fs.need "ty" TypeRef.decode, ← fs.maybe "key" none (Decode.nullable Decode.text)⟩)

end ServiceIdentity

end Wiring
