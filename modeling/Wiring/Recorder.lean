import Wiring.Facts

/-!
# Recording facts

The calls of a composition root, one after the other. Each registration is given its place in the
order of calls, and a location in the recorded file with the number of the registration as its
line.
-/

namespace Wiring

/-- The facts recorded so far, for a file. -/
structure Recorder where
  file : String
  facts : Facts
deriving Repr, Inhabited

/-- The calls that can be recorded. -/
inductive Call where
  | add (lifetime : Lifetime) (service : ServiceIdentity) (implementation : Implementation)
  | tryAdd (lifetime : Lifetime) (service : ServiceIdentity) (implementation : Implementation)
  /-- One type for another. -/
  | addType (lifetime : Lifetime) (service implementation : TypeRef)
  /-- One type for another, unless the service is registered already. -/
  | tryAddType (lifetime : Lifetime) (service implementation : TypeRef)
  /-- One type for another under a key. -/
  | addKeyed (lifetime : Lifetime) (service : TypeRef) (key : String) (implementation : TypeRef)
  /-- A factory that asks for some services. -/
  | addFactory (lifetime : Lifetime) (service : TypeRef) (calls : List Dependency)
  | addOpaqueFactory (lifetime : Lifetime) (service : TypeRef)
  /-- A ready instance, which is a singleton. -/
  | addInstance (service : TypeRef) (type : Option TypeRef)
  | addShape (shape : TypeShape)
  | addProcedure (procedure : Procedure)
  | addAssignment (assignment : StaticAssignment)
deriving Repr

namespace Recorder

/-- The file that is recorded unless another is named. -/
def defaultFile : String :=
  "Program.cs"

/-- Nothing recorded yet. -/
def start (file : String) : Recorder :=
  ⟨file, .empty⟩

/-- The number of registrations. -/
def length (r : Recorder) : Nat :=
  r.facts.registrations.length

/-- The next registration. -/
def next (r : Recorder) (lifetime : Lifetime) (service : ServiceIdentity)
    (implementation : Implementation) (isConditional : Bool) : Registration :=
  ⟨service, implementation, lifetime, ⟨r.file, UInt32.ofNat r.length + 1, 1⟩,
    UInt64.ofNat r.length, isConditional⟩

/-- Adds a registration. -/
def register (r : Recorder) (lifetime : Lifetime) (service : ServiceIdentity)
    (implementation : Implementation) (isConditional : Bool) : Recorder :=
  { r with facts := { r.facts with
      registrations := r.facts.registrations ++
        [r.next lifetime service implementation isConditional] } }

/-- The form in which one type is registered for another: a generic definition cannot be a type
argument. -/
def formFor (service implementation : TypeRef) : TypeForm :=
  if service.isOpen || implementation.isOpen then .runtimeTypes else .genericArguments

/-- Records a call. -/
def record (r : Recorder) : Call → Recorder
  | .add lifetime service implementation => r.register lifetime service implementation false
  | .tryAdd lifetime service implementation => r.register lifetime service implementation true
  | .addType lifetime service implementation =>
    r.register lifetime (.of service) (.type implementation (formFor service implementation)) false
  | .tryAddType lifetime service implementation =>
    r.register lifetime (.of service) (.type implementation .genericArguments) true
  | .addKeyed lifetime service key implementation =>
    r.register lifetime (.keyed service key) (.type implementation .genericArguments) false
  | .addFactory lifetime service calls =>
    r.register lifetime (.of service) (.factory (some calls)) false
  | .addOpaqueFactory lifetime service => r.register lifetime (.of service) (.factory none) false
  | .addInstance service type => r.register .singleton (.of service) (.ready type) false
  | .addShape shape => { r with facts := { r.facts with shapes := r.facts.shapes ++ [shape] } }
  | .addProcedure procedure =>
    { r with facts := { r.facts with procedures := r.facts.procedures ++ [procedure] } }
  | .addAssignment assignment =>
    { r with facts := { r.facts with assignments := r.facts.assignments ++ [assignment] } }

/-- Records calls one after the other. -/
def recordAll (r : Recorder) (calls : List Call) : Recorder :=
  calls.foldl record r

end Recorder

end Wiring
