import Wiring.Lifetime
import Wiring.Location
import Wiring.Shape

/-!
# Registrations

One call that tells the container what to build when a service is requested.
-/

namespace Wiring

/-- How the registration names its implementation type. -/
inductive TypeForm where
  /-- As a generic argument, so that the compiler has checked it. -/
  | genericArguments
  /-- As a type object, checked only when an instance is built. -/
  | runtimeTypes
deriving DecidableEq, Repr, Inhabited

/-- What the container builds. -/
inductive Implementation where
  /-- An instance of a type, from its constructor. -/
  | type (ty : TypeRef) (form : TypeForm)
  /-- The result of a factory; the services it asks for, unless its body is opaque. -/
  | factory (calls : Option (List Dependency))
  /-- A ready instance, of a type that may be known. -/
  | ready (ty : Option TypeRef)
deriving DecidableEq, Repr, Inhabited

namespace Implementation

/-- The implementation type, if one is named. -/
def typeRef : Implementation → Option TypeRef
  | .type ty _ => some ty
  | .factory _ => none
  | .ready ty => ty

/-- Whether a factory builds the service. -/
def isFactory : Implementation → Bool
  | .factory _ => true
  | _ => false

/-- Whether the container builds the service from the constructor of a type. -/
def isType : Implementation → Bool
  | .type _ _ => true
  | _ => false

/-- A short description. -/
def describe : Implementation → String
  | .type ty _ => ty.text
  | .factory (some _) => "factory"
  | .factory none => "factory (opaque)"
  | .ready (some ty) => "instance of " ++ ty.text
  | .ready none => "instance"

end Implementation

/-- A registration. Its place among the other registrations is `insertionIndex`, whatever the order
in which registrations are listed. -/
structure Registration where
  service : ServiceIdentity
  implementation : Implementation
  lifetime : Lifetime
  location : Location
  insertionIndex : UInt64
  /-- The call registers only if the service has no registration yet. -/
  isConditional : Bool
deriving DecidableEq, Repr, Inhabited

namespace Registration

/-- The name of the registration call. -/
def callName (r : Registration) : String :=
  (if r.isConditional then "TryAdd" else "Add") ++ r.lifetime.text

end Registration

end Wiring
