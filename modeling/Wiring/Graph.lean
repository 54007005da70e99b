import Wiring.Diagnostic
import Wiring.Registration

/-!
# The graph of effective registrations

Of all registrations of a service one is effective, and the others have no effect unless all
registrations are asked for. The nodes of the graph are the effective registrations in the order of
their declaration, and an edge leads from a node to the node that satisfies one of its dependencies.
-/

namespace Wiring

/-- An effective registration. -/
structure Node where
  /-- The place of the node in the graph. -/
  ix : Nat
  registration : Registration
  /-- All registrations of the service in the order of their declaration. -/
  entries : List Registration
deriving DecidableEq, Repr, Inhabited

namespace Node

/-- The service that the node provides. -/
def service (n : Node) : ServiceIdentity :=
  n.registration.service

/-- The lifetime of the effective registration. -/
def lifetime (n : Node) : Lifetime :=
  n.registration.lifetime

/-- Whether the node provides a generic definition. -/
def isOpen (n : Node) : Bool :=
  n.service.isOpen

end Node

/-! ## Which registration is effective -/

/-- The registrations of a service in the order of their declaration. -/
def entriesOf (rs : List Registration) (s : ServiceIdentity) : List Registration :=
  (rs.filter (fun r => r.service == s)).mergeSort
    (fun a b => a.insertionIndex ≤ b.insertionIndex)

/-- The place of the last unconditional registration. -/
def lastUnconditional? : List Registration → Option Nat
  | [] => none
  | r :: rs =>
    match lastUnconditional? rs with
    | some i => some (i + 1)
    | none => if r.isConditional then none else some 0

/-- The place of the effective one among the registrations of a service. A conditional registration
that comes first stays in force, and otherwise the last unconditional one does. -/
def inForceIx (entries : List Registration) : Nat :=
  match entries with
  | [] => 0
  | first :: _ => if first.isConditional then 0 else (lastUnconditional? entries).getD 0

/-- The effective one among the registrations of a service. -/
def inForce? (entries : List Registration) : Option Registration :=
  entries[inForceIx entries]?

/-- The finding for a registration without effect. -/
def nullified (firstIsConditional : Bool) (effective entry : Registration) : Diagnostic :=
  let subject := entry.callName ++ " for '" ++ entry.service.text ++ "'"
  let place := effective.location.text
  if entry.isConditional then
    .of .tryAddIgnored (subject ++ " is ignored because it is already registered at " ++ place)
      entry.location [effective.location]
  else if firstIsConditional then
    .of .duplicateRegistration
      (subject ++ " has no effect; the earlier " ++ effective.callName ++ " at " ++ place ++
        " wins")
      entry.location [effective.location]
  else
    .of .duplicateRegistration
      (subject ++ " is overridden by the later " ++ effective.callName ++ " at " ++ place)
      entry.location [effective.location]

/-- The findings for the registrations of one service that have no effect. -/
def nullifiedAmong (entries : List Registration) : List Diagnostic :=
  match entries, inForce? entries with
  | first :: _, some effective =>
    (entries.eraseIdx (inForceIx entries)).map (nullified first.isConditional effective)
  | _, _ => []

/-- The registered services in the order in which they are first listed. -/
def servicesOf (rs : List Registration) : List ServiceIdentity :=
  (rs.map Registration.service).eraseDups

/-- The findings for all registrations without effect, by place, rule and message. -/
def nullifiedRegistrations (rs : List Registration) : List Diagnostic :=
  ((servicesOf rs).flatMap (fun s => nullifiedAmong (entriesOf rs s))).mergeSort
    Diagnostic.leBrief

/-! ## The graph -/

/-- The effective registrations, and what is known of implementation types. -/
structure Graph where
  nodes : List Node
  /-- Of shapes of the same type the first counts. -/
  shapes : List TypeShape
deriving Repr, Inhabited

/-- The order of nodes: by the declaration of the effective registration, then by service. -/
def declaredBefore (a b : Registration × List Registration) : Bool :=
  ((compare a.1.insertionIndex b.1.insertionIndex).then (a.1.service.cmp b.1.service)).isLE

namespace Graph

/-- The effective registration of each service with all of its registrations, in the order of
nodes. -/
def effectiveGroups (rs : List Registration) : List (Registration × List Registration) :=
  ((servicesOf rs).filterMap (fun s =>
    (inForce? (entriesOf rs s)).map (fun r => (r, entriesOf rs s)))).mergeSort declaredBefore

/-- The graph of the registrations. -/
def build (rs : List Registration) (shapes : List TypeShape) : Graph :=
  ⟨(effectiveGroups rs).mapIdx (fun i g => ⟨i, g.1, g.2⟩), shapes⟩

end Graph

/-! ## Nodes by service -/

/-- What is kept by service: the number of its node, and the number of its registrations. -/
structure Index where
  numbers : List (ServiceIdentity × Nat)
  counts : List (ServiceIdentity × Nat)
deriving Repr

namespace Index

/-- Nothing kept yet. -/
def empty : Index :=
  ⟨[], []⟩

/-- Enters a node with its number, in the place of what is there for its service. -/
def insert (x : Index) (i : Nat) (n : Node) : Index :=
  ⟨(n.service, i) :: x.numbers, (n.service, n.entries.length) :: x.counts⟩

/-- Enters nodes, which are numbered from `i` on. -/
def enter (x : Index) (i : Nat) : List Node → Index
  | [] => x
  | n :: ns => enter (x.insert i n) (i + 1) ns

end Index

namespace Graph

/-- The nodes of the graph by service. -/
def index (g : Graph) : Index :=
  Index.empty.enter 0 g.nodes

/-- The node that provides exactly this service. -/
def effective? (g : Graph) (s : ServiceIdentity) : Option Node :=
  (g.index.numbers.lookup s).bind (fun i => g.nodes[i]?)

end Graph

/-- Where a request for a service ends: a node, and the type arguments that close it if it
provides a generic definition. -/
structure Target where
  node : Node
  closingArgs : List TypeRef
deriving DecidableEq, Repr

/-- A dependency of one node on another. -/
structure Edge where
  source : Node
  target : Node
  /-- The dependency as the source declares it. -/
  dependency : Dependency
deriving DecidableEq, Repr

namespace Graph

/-- The node that satisfies a request: the one registered for exactly this service, or else the one
registered for the generic definition that the service instantiates. -/
def resolveTarget? (g : Graph) (s : ServiceIdentity) : Option Target :=
  match g.effective? s with
  | some n => some ⟨n, []⟩
  | none => (s.openDefinition.bind g.effective?).map (fun n => ⟨n, s.ty.args⟩)

/-- The number of registrations of exactly this service. -/
def entryCount (g : Graph) (s : ServiceIdentity) : Nat :=
  (g.index.counts.lookup s).getD 0

/-- The number of registrations that a request for all of them receives. -/
def registrationCount (g : Graph) (s : ServiceIdentity) : Nat :=
  g.entryCount s + (s.openDefinition.map g.entryCount).getD 0

/-- The shape declared for exactly this type. -/
def declaredShape? (g : Graph) (ty : TypeRef) : Option TypeShape :=
  g.shapes.find? (fun s => s.identity == ty)

/-- The shape of a type; without one of its own, that of its generic definition and the arguments
that close it. -/
def shapeFor? (g : Graph) (ty : TypeRef) : Option (TypeShape × List TypeRef) :=
  match g.declaredShape? ty with
  | some s => some (s, [])
  | none => (ty.openDefinition.bind g.declaredShape?).map (fun s => (s, ty.args))

/-- What a node depends on, closed over type arguments. Nothing is known of an opaque factory or
of a type without a shape. -/
def dependenciesOf? (g : Graph) (n : Node) (closingArgs : List TypeRef) :
    Option (List Dependency) :=
  match n.registration.implementation with
  | .type ty _ =>
    (g.shapeFor? ty).map (fun s =>
      s.1.dependenciesClosedOver (if closingArgs.isEmpty then s.2 else closingArgs))
  | .factory calls => calls
  | .ready _ => some []

/-- The edges of a node in the order of its dependencies. -/
def edgesFrom (g : Graph) (n : Node) : List Edge :=
  ((g.dependenciesOf? n []).getD []).filterMap (fun d =>
    (g.resolveTarget? d.required).map (fun t => ⟨n, t.node, d⟩))

/-- All edges, node by node. -/
def edges (g : Graph) : List Edge :=
  g.nodes.flatMap g.edgesFrom

end Graph

/-! ## Edges by number -/

/-- The edges of a graph by number, and for each node the numbers of the edges that leave it. -/
structure Links where
  edges : List Edge
  outgoing : List (List Nat)
deriving Repr

namespace Links

/-- Enters edges, which are numbered from `i` on, each under the node that it leaves. -/
def enter (outgoing : List (List Nat)) (i : Nat) : List Edge → List (List Nat)
  | [] => outgoing
  | e :: es => enter (outgoing.modify e.source.ix (fun numbers => numbers ++ [i])) (i + 1) es

/-- The edges that leave the node with this number; none if there is no such node. -/
def leaving (l : Links) (ix : Nat) : List Edge :=
  (l.outgoing.getD ix []).filterMap (fun i => l.edges[i]?)

end Links

/-- The edges of the graph, entered under the nodes that they leave. -/
def Graph.links (g : Graph) : Links :=
  ⟨g.edges, Links.enter (List.replicate g.nodes.length []) 0 g.edges⟩

end Wiring
