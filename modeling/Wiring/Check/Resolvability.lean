import Wiring.Check.Framework
import Wiring.Check.Poll
import Wiring.Graph

/-!
# Resolvability

Every service that the container builds from a constructor must find its dependencies, and these
theirs. Each such service is a root from which the dependencies are walked depth first, up to the
first one that is missing.

The path from the root cuts cycles: a service on the path counts as resolved. A generic definition
whose arguments only grow along the path is cut in the same way. A service that was walked without a
cut above it is resolved for good; if a cut was above it, the result may hold for this path only, so
it is kept for the current root and no longer. A chain as long as the limit is not followed further.
-/

namespace Wiring

namespace Resolvability

/-- The greatest limit for the length of a chain. -/
def maxDepth : Nat :=
  1024

/-- A limit brought into its bounds. -/
def clampDepth (depth : Nat) : Nat :=
  max 1 (min depth maxDepth)

/-- The services being expanded with the nodes that provide them, from the root on. -/
abbrev Path := List (ServiceIdentity × Node)

namespace Path

/-- The depth at which a service is on the path. -/
def position? (p : Path) (s : ServiceIdentity) : Option Nat :=
  p.findIdx? (fun e => e.1 == s)

end Path

/-- What the walk found below a service. -/
structure Visit where
  /-- The services from this one to the missing one, if one is missing. -/
  chain : Option (List ServiceIdentity)
  /-- The least depth at which a cycle was cut. -/
  low : Option Nat
  /-- Whether the limit stopped the walk somewhere. -/
  truncated : Bool
deriving DecidableEq, Repr

namespace Visit

/-- Nothing is missing, whatever the path. -/
def resolved : Visit :=
  ⟨none, none, false⟩

/-- Cut at a depth of the path. -/
def cutAt (depth : Nat) : Visit :=
  ⟨none, some depth, false⟩

/-- The service is missing. -/
def missing (s : ServiceIdentity) : Visit :=
  ⟨some [s], none, false⟩

/-- The lesser of two depths. -/
def lesser : Option Nat → Option Nat → Option Nat
  | none, b => b
  | some a, none => some a
  | some a, some b => some (min a b)

/-- Whether no cut lies above the depth. -/
def cutsFrom (v : Visit) (depth : Nat) : Bool :=
  match v.low with
  | none => true
  | some l => depth ≤ l

/-- Two visits in a row of which the first found nothing missing. -/
def andThen (v w : Visit) : Visit :=
  ⟨w.chain, lesser v.low w.low, v.truncated || w.truncated⟩

/-- The visit of a service from that of its dependencies. -/
def below (v : Visit) (s : ServiceIdentity) : Visit :=
  { v with chain := v.chain.map (s :: ·) }

end Visit

/-- What the walk remembers. -/
structure Cache where
  /-- Services that are resolved from every path. -/
  resolved : List ServiceIdentity
  /-- Services walked from the current root, and whether the limit stopped that walk. -/
  finished : List (ServiceIdentity × Bool)
  /-- The services expanded from the current root, latest first. -/
  entered : List ServiceIdentity
deriving Repr

namespace Cache

/-- Nothing but the services resolved from every path. -/
def start (resolved : List ServiceIdentity) : Cache :=
  ⟨resolved, [], []⟩

/-- Records that a service is resolved from every path. -/
def resolve (c : Cache) (s : ServiceIdentity) : Cache :=
  { c with resolved := s :: c.resolved }

/-- Records that a service was walked. -/
def finish (c : Cache) (s : ServiceIdentity) (truncated : Bool) : Cache :=
  { c with finished := (s, truncated) :: c.finished }

/-- Records that a service is expanded. -/
def enter (c : Cache) (s : ServiceIdentity) : Cache :=
  { c with entered := s :: c.entered }

end Cache

/-- Whether the new arguments wrap the earlier ones: each is the earlier one or nests it, and they
are not all the same. -/
def widens (earlier new : List TypeRef) : Bool :=
  earlier.length == new.length && earlier != new &&
    (earlier.zip new).all (fun p => p.1 == p.2 || TypeRef.nests p.1 p.2)

/-- The depth of the outermost service on the path that the same node provides and whose arguments
the closing ones wrap. -/
def widened? (p : Path) (n : Node) (closingArgs : List TypeRef) : Option Nat :=
  if closingArgs.isEmpty then none
  else p.findIdx? (fun e => e.2.ix == n.ix && widens e.1.ty.args closingArgs)

/-- The dependencies to walk; nothing is walked below a factory, an instance or a type without a
shape. -/
def expandable? (g : Graph) (t : Target) : Option (List Dependency) :=
  if t.node.registration.implementation.isType then g.dependenciesOf? t.node t.closingArgs
  else none

/-- The visit of one dependency; `expand` visits a registered service that is not on the path. -/
def visitDependency (g : Graph) (fw : FrameworkServices) (p : Path)
    (expand : ServiceIdentity → Cache → Visit × Cache) (d : Dependency) (c : Cache) :
    Visit × Cache :=
  let s := d.required
  if s.ty.isParam || d.isOptional then (.resolved, c)
  else if d.isEnumerable then
    if 0 < g.registrationCount s || fw.contains s then (.resolved, c) else (.missing s, c)
  else
    match p.position? s with
    | some depth => (.cutAt depth, c)
    | none =>
      if (g.resolveTarget? s).isSome then expand s c
      else if fw.contains s then (.resolved, c)
      else (.missing s, c)

/-- Visits in order, up to the first that finds something missing. -/
def visitAll (visit : Dependency → Cache → Visit × Cache) :
    List Dependency → Cache → Visit × Cache
  | [], c => (.resolved, c)
  | d :: ds, c =>
    let (v, c) := visit d c
    if v.chain.isSome then (v, c)
    else
      let (w, c) := visitAll visit ds c
      (v.andThen w, c)

/-- The visit of a registered service at the end of a path on which there is room for `room` more.
-/
def expand (g : Graph) (fw : FrameworkServices) (room : Nat) (p : Path) (s : ServiceIdentity)
    (c : Cache) : Visit × Cache :=
  if c.resolved.contains s then (.resolved, c)
  else
    match c.finished.lookup s with
    | some truncated => (⟨none, some 0, truncated⟩, c)
    | none =>
      match g.resolveTarget? s with
      | none => (.resolved, c)
      | some t =>
        match widened? p t.node t.closingArgs with
        | some depth => (.cutAt depth, c)
        | none =>
          match expandable? g t with
          | none => (.resolved, c.resolve s)
          | some ds =>
            match room with
            | 0 => (⟨none, some 0, true⟩, c)
            | room + 1 =>
              let p' := p ++ [(s, t.node)]
              let (v, c) := visitAll (visitDependency g fw p' (expand g fw room p')) ds (c.enter s)
              if v.chain.isSome then (v.below s, c)
              else if v.cutsFrom p.length && !v.truncated then (.resolved, c.resolve s)
              else (v, c.finish s v.truncated)

/-- The finding for a root: the missing service, the way to it if it is not direct, and the places
of the services between. -/
def report (g : Graph) (root : Node) (chain : List ServiceIdentity) : Diagnostic :=
  let missing := chain.getLastD root.service
  let message := "'" ++ root.service.text ++ "' cannot be resolved: '" ++ missing.text ++
    "' is not registered"
  let way := " (path: " ++ " -> ".intercalate (chain.map ServiceIdentity.text) ++ ")"
  let between := (chain.drop 1).take (chain.length - 2)
  .of .unresolvableDependency (if chain.length ≤ 2 then message else message ++ way)
    root.registration.location
    (between.filterMap (fun s =>
      (g.resolveTarget? s).map (fun t => t.node.registration.location)))

/-- Whether the dependencies of a node are walked. -/
def isRoot (n : Node) : Bool :=
  n.registration.implementation.isType

/-- The findings for the roots among the nodes, given what is resolved already. -/
def findingsFrom (g : Graph) (fw : FrameworkServices) (limit : Nat)
    (resolved : List ServiceIdentity) : List Node → List Diagnostic
  | [] => []
  | n :: ns =>
    if isRoot n then
      let (v, c) := expand g fw limit [] n.service (.start resolved)
      let rest := findingsFrom g fw limit c.resolved ns
      match v.chain with
      | some chain => report g n chain :: rest
      | none => rest
    else findingsFrom g fw limit resolved ns

/-- The findings for all roots, at most one for each. -/
def findings (g : Graph) (fw : FrameworkServices) (limit : Nat) : List Diagnostic :=
  findingsFrom g fw (clampDepth limit) [] g.nodes

/-- The check under a token. -/
def check (g : Graph) (fw : FrameworkServices) (limit : Nat) (cancelled : Bool) :
    Except Error (List Diagnostic) :=
  pollEach cancelled g.nodes (findings g fw limit)

end Resolvability

end Wiring
