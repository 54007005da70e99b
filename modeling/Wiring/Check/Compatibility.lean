import Wiring.Check.Poll
import Wiring.Graph

/-!
# Compatibility of implementations

An implementation named by a type object is checked by nobody before an instance is built. It must
be usable as the service: as itself or through one of its capabilities, and with as many type
parameters if both are generic definitions.
-/

namespace Wiring

namespace Compatibility

/-- Why an implementation cannot provide a service. -/
inductive Mismatch where
  | arity (service implementation : Nat)
  | notImplemented (service : TypeRef)
  | openService
  | openImplementation
deriving DecidableEq, Repr

/-- The reason in words. -/
def Mismatch.text : Mismatch → String
  | .arity service implementation =>
    "open generic arity " ++ toString service ++ " does not match implementation arity " ++
      toString implementation
  | .notImplemented service => "it does not implement '" ++ service.text ++ "'"
  | .openService => "an open generic service needs an open generic implementation"
  | .openImplementation => "an open generic implementation cannot provide a closed service"

/-- Whether a shape, closed over type arguments if there are any, can be used as a closed type. -/
def offersClosed (shape : TypeShape) (args : List TypeRef) (service : TypeRef) : Bool :=
  if args.isEmpty then shape.offers service
  else
    (shape.identity.closeOver shape.typeParams).map
        (TypeRef.substitute shape.typeParams args) == some service ||
      shape.capabilities.any
        (fun cap => TypeRef.substitute shape.typeParams args cap == service)

/-- Why the implementation, of which the shape is known, cannot provide the service. -/
def mismatch? (service implementation : TypeRef) (shape : TypeShape) (args : List TypeRef) :
    Option Mismatch :=
  match service, implementation with
  | .generic name k, .generic _ l =>
    if k = l then
      match (TypeRef.generic name k).closeOver shape.typeParams with
      | none => none
      | some closed => if shape.offers closed then none else some (.notImplemented closed)
    else some (.arity k.toNat l.toNat)
  | .generic _ _, _ => some .openService
  | _, .generic _ _ => some .openImplementation
  | _, _ => if offersClosed shape args service then none else some (.notImplemented service)

/-- The finding for a node. -/
def report (n : Node) (implementation : TypeRef) (reason : Mismatch) : Diagnostic :=
  .of .implementationTypeMismatch
    ("Implementation type '" ++ implementation.text ++ "' cannot be used for service '" ++
      n.service.text ++ "': " ++ reason.text)
    n.registration.location []

/-- The finding for a node, if it names its implementation by a type object of known shape that
cannot provide the service. -/
def finding? (g : Graph) (n : Node) : Option Diagnostic :=
  match n.registration.implementation with
  | .type ty .runtimeTypes =>
    match g.shapeFor? ty with
    | none => none
    | some (shape, args) => (mismatch? n.service.ty ty shape args).map (report n ty)
  | _ => none

/-- The findings for all nodes. -/
def findings (g : Graph) : List Diagnostic :=
  g.nodes.filterMap (finding? g)

/-- The check under a token. -/
def check (g : Graph) (cancelled : Bool) : Except Error (List Diagnostic) :=
  pollEach cancelled g.nodes (findings g)

end Compatibility

end Wiring
