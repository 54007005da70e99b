import Wiring.Registration
import Wiring.Trace

/-!
# Facts

Everything that is known of a program before the analysis starts.
-/

namespace Wiring

/-- The facts of one program. -/
structure Facts where
  registrations : List Registration
  shapes : List TypeShape
  procedures : List Procedure
  assignments : List StaticAssignment
deriving DecidableEq, Repr, Inhabited

namespace Facts

/-- No facts. -/
def empty : Facts :=
  ⟨[], [], [], []⟩

/-- Whether nothing is known. -/
def isEmpty (f : Facts) : Bool :=
  f.registrations.isEmpty && f.shapes.isEmpty && f.procedures.isEmpty && f.assignments.isEmpty

end Facts

end Wiring
