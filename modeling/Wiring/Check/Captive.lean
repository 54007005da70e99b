import Wiring.Check.Poll
import Wiring.Graph

/-!
# Captive dependencies

An instance that outlives one of its dependencies keeps it alive beyond its lifetime.
-/

namespace Wiring

namespace Captive

/-- The finding for an edge whose source outlives its target. -/
def report (e : Edge) : Diagnostic :=
  let message := e.source.lifetime.text ++ " service '" ++ e.source.service.text ++
    "' depends on " ++ e.target.lifetime.word ++ " service '" ++ e.dependency.required.text ++ "'"
  let places := [e.target.registration.location]
  if e.source.isOpen then
    .of .openGenericCaptiveDependency (message ++ "; every closed instantiation inherits this")
      e.source.registration.location places
  else
    .of .captiveDependency message e.source.registration.location places

/-- Whether the source of an edge outlives its target. -/
def isCaptive (e : Edge) : Bool :=
  e.source.lifetime.captures e.target.lifetime

/-- The findings for the edges that leave a node. -/
def findingsAt (links : Links) (n : Node) : List Diagnostic :=
  ((links.leaving n.ix).filter isCaptive).map report

/-- The findings for all nodes. -/
def findings (g : Graph) : List Diagnostic :=
  g.nodes.flatMap (findingsAt g.links)

/-- The check under a token. -/
def check (g : Graph) (cancelled : Bool) : Except Error (List Diagnostic) :=
  pollEach cancelled g.nodes (findings g)

end Captive

end Wiring
