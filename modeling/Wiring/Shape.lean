import Wiring.Service

/-!
# Shapes of implementation types

What is known of a type from its declaration: the types it can be used as, and the parameters of its
constructor. The shape of a generic definition may mention its type parameters.
-/

namespace Wiring

/-- A constructor parameter, or a service that a factory asks for. -/
structure Dependency where
  /-- The service asked for; of an enumerable parameter, the element. -/
  required : ServiceIdentity
  /-- The parameter takes all registrations of the service. -/
  isEnumerable : Bool
  /-- The parameter has a default, so the service may be missing. -/
  isOptional : Bool
deriving DecidableEq, Repr, Inhabited

namespace Dependency

/-- A service that must be there. -/
def require (ty : TypeRef) : Dependency :=
  ⟨.of ty, false, false⟩

/-- A service under a key that must be there. -/
def keyed (ty : TypeRef) (key : String) : Dependency :=
  ⟨.keyed ty key, false, false⟩

/-- All registrations of a service. -/
def enumerable (element : TypeRef) : Dependency :=
  ⟨.of element, true, false⟩

/-- A service that may be missing. -/
def optional (ty : TypeRef) : Dependency :=
  ⟨.of ty, false, true⟩

/-- The same parameter with type parameters replaced. -/
def substitute (params : List String) (args : List TypeRef) (d : Dependency) : Dependency :=
  { d with required := d.required.withTy (d.required.ty.substitute params args) }

end Dependency

/-- The shape of an implementation type. -/
structure TypeShape where
  identity : TypeRef
  typeParams : List String
  /-- Implemented interfaces and base types. -/
  capabilities : List TypeRef
  dependencies : List Dependency
  isDisposable : Bool
  isAsyncDisposable : Bool
deriving DecidableEq, Repr, Inhabited

namespace TypeShape

/-- A type of which nothing but the name is known. -/
def ofType (identity : TypeRef) : TypeShape :=
  ⟨identity, [], [], [], false, false⟩

/-- A generic definition with the given parameters. -/
def ofDefinition (name : String) (params : List String) : TypeShape :=
  { ofType (.generic name (UInt64.ofNat params.length)) with typeParams := params }

/-- Adds a type that the shape can be used as. -/
def implements (s : TypeShape) (capability : TypeRef) : TypeShape :=
  { s with capabilities := s.capabilities ++ [capability] }

/-- Adds a constructor parameter. -/
def dependsOn (s : TypeShape) (d : Dependency) : TypeShape :=
  { s with dependencies := s.dependencies ++ [d] }

/-- Marks the type as disposable. -/
def disposable (s : TypeShape) : TypeShape :=
  { s with isDisposable := true }

/-- Marks the type as disposable asynchronously. -/
def asyncDisposable (s : TypeShape) : TypeShape :=
  { s with isAsyncDisposable := true }

/-- Whether the type, closed over its own parameters, can be used as the service type. -/
def offers (s : TypeShape) (service : TypeRef) : Bool :=
  s.identity.closeOver s.typeParams == some service || s.capabilities.contains service

/-- The dependencies with the type parameters replaced; as declared if there is nothing to
replace. -/
def dependenciesClosedOver (s : TypeShape) (args : List TypeRef) : List Dependency :=
  if args.isEmpty || s.typeParams.isEmpty then s.dependencies
  else s.dependencies.map (Dependency.substitute s.typeParams args)

end TypeShape

end Wiring
