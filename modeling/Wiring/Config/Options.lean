import Wiring.Check.Resolvability
import Wiring.Diagnostic
import Wiring.Error

/-!
# Options

What can be set for an analysis: which services the host provides, how long a chain of
dependencies is followed, what becomes of traces that make no sense, and the severity and use of
each rule.
-/

namespace Wiring

/-- What becomes of a procedure whose trace makes no sense. -/
inductive TraceErrorPolicy where
  /-- It is left out and listed. -/
  | skip
  /-- The analysis fails. -/
  | fail
deriving DecidableEq, Repr, Inhabited

/-- The word for the policy. -/
def TraceErrorPolicy.word : TraceErrorPolicy → String
  | .skip => "skip"
  | .fail => "fail"

/-- The options of an analysis. -/
structure Options where
  /-- The services of the host count as registered. -/
  assumeFramework : Bool
  /-- More services of the host, by name. -/
  frameworkServices : List String
  /-- The longest chain of dependencies that is followed. -/
  maxDepth : Nat
  traceErrors : TraceErrorPolicy
  /-- The severities that differ from those of the rules, in the order of rules. -/
  severityOverrides : List (Rule × Severity)
  /-- The rules that are not reported, in the order of rules. -/
  disabledRules : List Rule
deriving DecidableEq, Repr, Inhabited

namespace Options

/-- The options unless set otherwise. -/
def default : Options :=
  ⟨true, [], Resolvability.maxDepth, .skip, [], []⟩

/-- The options, if the limit is in its bounds. -/
def validated (o : Options) : Except Error Options :=
  if 1 ≤ o.maxDepth ∧ o.maxDepth ≤ Resolvability.maxDepth then .ok o
  else .error (.config (.depthOutOfBounds o.maxDepth))

/-- The severity with which a rule is reported. -/
def severityFor (o : Options) (r : Rule) : Severity :=
  (o.severityOverrides.lookup r).getD r.defaultSeverity

/-- Whether a rule is reported. -/
def isEnabled (o : Options) (r : Rule) : Bool :=
  !o.disabledRules.contains r

/-- The services that count as registered by the host. -/
def framework (o : Options) : FrameworkServices :=
  .of o.assumeFramework o.frameworkServices

end Options

end Wiring
