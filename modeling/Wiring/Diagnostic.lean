import Wiring.Location

/-!
# Diagnostics

The rules, the findings reported under them, and the sink that puts findings into a fixed order.
-/

namespace Wiring

/-- How grave a finding is. -/
inductive Severity where
  | info
  | warning
  | error
deriving DecidableEq, Repr, Inhabited

namespace Severity

/-- The word for the severity. -/
def word : Severity → String
  | .info => "info"
  | .warning => "warning"
  | .error => "error"

/-- All severities, gravest last. -/
def all : List Severity :=
  [.info, .warning, .error]

end Severity

/-- What can be reported. -/
inductive Rule where
  | captiveDependency
  | openGenericCaptiveDependency
  | unresolvableDependency
  | implementationTypeMismatch
  | undisposedScope
  | scopeEscape
  | useAfterDispose
  | asyncScopeRequired
  | rootProviderNotDisposed
  | staticProviderCache
  | duplicateRegistration
  | tryAddIgnored
deriving DecidableEq, Repr, Inhabited

namespace Rule

/-- All rules in their order. -/
def all : List Rule :=
  [.captiveDependency, .openGenericCaptiveDependency, .unresolvableDependency,
    .implementationTypeMismatch, .undisposedScope, .scopeEscape, .useAfterDispose,
    .asyncScopeRequired, .rootProviderNotDisposed, .staticProviderCache, .duplicateRegistration,
    .tryAddIgnored]

/-- The place of a rule in `all`. -/
def index : Rule → Nat
  | .captiveDependency => 0
  | .openGenericCaptiveDependency => 1
  | .unresolvableDependency => 2
  | .implementationTypeMismatch => 3
  | .undisposedScope => 4
  | .scopeEscape => 5
  | .useAfterDispose => 6
  | .asyncScopeRequired => 7
  | .rootProviderNotDisposed => 8
  | .staticProviderCache => 9
  | .duplicateRegistration => 10
  | .tryAddIgnored => 11

/-- The word for the rule in documents. -/
def word : Rule → String
  | .captiveDependency => "captive_dependency"
  | .openGenericCaptiveDependency => "open_generic_captive_dependency"
  | .unresolvableDependency => "unresolvable_dependency"
  | .implementationTypeMismatch => "implementation_type_mismatch"
  | .undisposedScope => "undisposed_scope"
  | .scopeEscape => "scope_escape"
  | .useAfterDispose => "use_after_dispose"
  | .asyncScopeRequired => "async_scope_required"
  | .rootProviderNotDisposed => "root_provider_not_disposed"
  | .staticProviderCache => "static_provider_cache"
  | .duplicateRegistration => "duplicate_registration"
  | .tryAddIgnored => "try_add_ignored"

/-- The short code of the rule. -/
def code : Rule → String
  | .captiveDependency => "DI001"
  | .openGenericCaptiveDependency => "DI002"
  | .unresolvableDependency => "DI003"
  | .implementationTypeMismatch => "DI004"
  | .undisposedScope => "DI005"
  | .scopeEscape => "DI006"
  | .useAfterDispose => "DI007"
  | .asyncScopeRequired => "DI008"
  | .rootProviderNotDisposed => "DI009"
  | .staticProviderCache => "DI010"
  | .duplicateRegistration => "DI011"
  | .tryAddIgnored => "DI012"

/-- The rule of a short code; upper and lower case of ASCII letters are the same. -/
def ofCode? (code : String) : Option Rule :=
  all.find? (fun r => r.code == String.ofList (code.toList.map Char.toUpper))

/-- The severity unless it is configured otherwise: only a mismatch is certain to fail. -/
def defaultSeverity : Rule → Severity
  | .implementationTypeMismatch => .error
  | .duplicateRegistration => .info
  | .tryAddIgnored => .info
  | _ => .warning

end Rule

/-- A finding. -/
structure Diagnostic where
  rule : Rule
  severity : Severity
  message : String
  primary : Location
  related : List Location
deriving DecidableEq, Repr, Inhabited

namespace Diagnostic

/-- A finding of a rule with the rule's own severity. -/
def of (rule : Rule) (message : String) (primary : Location) (related : List Location) :
    Diagnostic :=
  ⟨rule, rule.defaultSeverity, message, primary, related⟩

/-- One line: place, severity, code and message. -/
def text (d : Diagnostic) : String :=
  d.primary.text ++ ": " ++ d.severity.word ++ " " ++ d.rule.code ++ ": " ++ d.message

instance : ToString Diagnostic := ⟨text⟩

/-- By place, then rule, then message. -/
def cmpBrief (a b : Diagnostic) : Ordering :=
  (a.primary.cmp b.primary).then
    ((compare a.rule.index b.rule.index).then (compare a.message b.message))

/-- By place, rule and message, then related places. The severity has no part in it. -/
def cmp (a b : Diagnostic) : Ordering :=
  (cmpBrief a b).then (Location.cmpAll a.related b.related)

/-- The order of `cmp` as a test for sorting. -/
def le (a b : Diagnostic) : Bool :=
  (cmp a b).isLE

/-- The order of `cmpBrief` as a test for sorting. -/
def leBrief (a b : Diagnostic) : Bool :=
  (cmpBrief a b).isLE

end Diagnostic

/-- Drops the findings at the head that compare equal to the one kept last, and goes on with the
next as the one kept last. -/
def dropRepeatedAfter (last : Diagnostic) : List Diagnostic → List Diagnostic
  | [] => []
  | d :: ds =>
    if last.cmp d = .eq then dropRepeatedAfter last ds else d :: dropRepeatedAfter d ds

/-- Of neighbours that compare equal, the first. -/
def dropRepeated : List Diagnostic → List Diagnostic
  | [] => []
  | d :: ds => d :: dropRepeatedAfter d ds

/-- The findings gathered so far, in the order in which they arrived. -/
structure Sink where
  entries : List Diagnostic
deriving Repr, Inhabited

namespace Sink

/-- A sink without findings. -/
def empty : Sink :=
  ⟨[]⟩

/-- Adds one finding. -/
def push (s : Sink) (d : Diagnostic) : Sink :=
  ⟨s.entries ++ [d]⟩

/-- Adds findings in order. -/
def extend (s : Sink) (ds : List Diagnostic) : Sink :=
  ⟨s.entries ++ ds⟩

/-- The number of findings, repeated ones included. -/
def length (s : Sink) : Nat :=
  s.entries.length

/-- The findings in ascending order, each once. Of findings that differ in severity alone the first
to arrive is kept. -/
def finish (s : Sink) : List Diagnostic :=
  dropRepeated (s.entries.mergeSort Diagnostic.le)

end Sink

end Wiring
