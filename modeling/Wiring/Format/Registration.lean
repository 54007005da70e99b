import Wiring.Format.Location
import Wiring.Format.Type
import Wiring.Registration

/-!
# Shapes and registrations in documents
-/

namespace Wiring

namespace Dependency

/-- The document of a dependency. -/
def toDocument (d : Dependency) : Document :=
  .fields [("required", d.required.toDocument), ("is_enumerable", .bool d.isEnumerable),
    ("has_default_or_optional", .bool d.isOptional)]

/-- A dependency. -/
def decode : Decoder Dependency :=
  Decode.record ["required", "is_enumerable", "has_default_or_optional"] (fun fs => do
    return ⟨← fs.need "required" ServiceIdentity.decode,
      ← fs.maybe "is_enumerable" false Decode.bool,
      ← fs.maybe "has_default_or_optional" false Decode.bool⟩)

end Dependency

namespace TypeShape

/-- The document of a shape. -/
def toDocument (s : TypeShape) : Document :=
  .fields [("identity", s.identity.toDocument), ("type_params", .list (s.typeParams.map .str)),
    ("capabilities", .list (TypeRef.toDocuments s.capabilities)),
    ("constructor_dependencies", .list (s.dependencies.map Dependency.toDocument)),
    ("is_disposable", .bool s.isDisposable), ("is_async_disposable", .bool s.isAsyncDisposable)]

/-- A shape; only the type itself must be there. -/
def decode : Decoder TypeShape :=
  Decode.record ["identity", "type_params", "capabilities", "constructor_dependencies",
      "is_disposable", "is_async_disposable"] (fun fs => do
    return ⟨← fs.need "identity" TypeRef.decode,
      ← fs.maybe "type_params" [] (Decode.list Decode.text),
      ← fs.maybe "capabilities" [] (Decode.list TypeRef.decode),
      ← fs.maybe "constructor_dependencies" [] (Decode.list Dependency.decode),
      ← fs.maybe "is_disposable" false Decode.bool,
      ← fs.maybe "is_async_disposable" false Decode.bool⟩)

end TypeShape

namespace Lifetime

/-- A lifetime by its word. -/
def decode : Decoder Lifetime :=
  Decode.word (all.map (fun l => (l.word, l)))

end Lifetime

namespace TypeForm

/-- The word for the form. -/
def word : TypeForm → String
  | .genericArguments => "generic_arguments"
  | .runtimeTypes => "runtime_types"

/-- A form by its word. -/
def decode : Decoder TypeForm :=
  Decode.word ([genericArguments, runtimeTypes].map (fun f => (f.word, f)))

end TypeForm

namespace Implementation

/-- The document of an implementation, what is not known included. -/
def toDocument : Implementation → Document
  | .type ty form =>
    .fields [("kind", .str "type"), ("ty", ty.toDocument), ("form", .str form.word)]
  | .factory none => .fields [("kind", .str "factory"), ("calls", .null)]
  | .factory (some calls) =>
    .fields [("kind", .str "factory"), ("calls", .list (calls.map Dependency.toDocument))]
  | .ready none => .fields [("kind", .str "instance"), ("ty", .null)]
  | .ready (some ty) => .fields [("kind", .str "instance"), ("ty", ty.toDocument)]

/-- The variants of an implementation with their fields. -/
def variants : List (String × List String) :=
  [("type", ["ty", "form"]), ("factory", ["calls"]), ("instance", ["ty"])]

/-- An implementation. -/
def decode : Decoder Implementation :=
  Decode.tagged "kind" variants (fun v fs =>
    match v with
    | "type" => do
      return .type (← fs.need "ty" TypeRef.decode)
        (← fs.maybe "form" .genericArguments TypeForm.decode)
    | "factory" => do
      return .factory
        (← fs.maybe "calls" none (Decode.nullable (Decode.list Dependency.decode)))
    | _ => do return .ready (← fs.maybe "ty" none (Decode.nullable TypeRef.decode)))

end Implementation

namespace Registration

/-- The document of a registration. -/
def toDocument (r : Registration) : Document :=
  .fields [("service", r.service.toDocument), ("implementation", r.implementation.toDocument),
    ("lifetime", .str r.lifetime.word), ("location", r.location.toDocument),
    ("insertion_index", .nat r.insertionIndex.toNat), ("is_conditional", .bool r.isConditional)]

/-- A registration; it is unconditional unless it says so. -/
def decode : Decoder Registration :=
  Decode.record ["service", "implementation", "lifetime", "location", "insertion_index",
      "is_conditional"] (fun fs => do
    return ⟨← fs.need "service" ServiceIdentity.decode,
      ← fs.need "implementation" Implementation.decode, ← fs.need "lifetime" Lifetime.decode,
      ← fs.need "location" Location.decode, ← fs.need "insertion_index" Decode.u64,
      ← fs.maybe "is_conditional" false Decode.bool⟩)

end Registration

end Wiring
