import Wiring.Diagnostic
import Wiring.Scope.Flow
import Wiring.Scope.Handles

/-!
# Findings in a procedure

A value resolved from a scope must not leave the procedure while the scope is certain to be alive,
nor be used once the scope is certain to be disposed; a handle that is released by hand must not
be left undisposed on any way out. The first two need a state that is certain, the last one a
state that is possible.
-/

namespace Wiring

namespace Scope

/-- The handles with the states they may be in. -/
abbrev Tracked := List (Handle × States)

namespace Tracked

/-- The handle of a name with its states. -/
def find? (ts : Tracked) (name : String) : Option (Handle × States) :=
  List.find? (fun t => t.1.name == name) ts

/-- The states after an event. -/
def after (ts : Tracked) (e : Event) : Tracked :=
  ts.map (fun t => (t.1, States.after t.1.name t.2 e))

end Tracked

/-- Whether the handle is a scope that is certain to be disposed. -/
def isDisposedScope (t : Handle × States) : Bool :=
  t.1.kind == .scope && t.2 == .onlyDisposed

/-- Whether the handle is a scope that is certain to be alive. -/
def isLiveScope (t : Handle × States) : Bool :=
  t.1.kind == .scope && t.2 == .onlyCreated

/-- The finding for a value used after its scope was disposed. -/
def useAfterDispose (h : Handle) (value : String) (location : Location) : Diagnostic :=
  .of .useAfterDispose ("'" ++ value ++ "' is used after scope '" ++ h.name ++ "' was disposed")
    location [h.createdAt]

/-- Whether the escape is to be reported as a synchronous scope in an asynchronous procedure. -/
def needsAsyncScope (p : Procedure) (h : Handle) : Bool :=
  p.isAsync && !h.isAsync && h.acquisition == .usingStatement

/-- The finding for a value that leaves while its scope is alive. -/
def escape (p : Procedure) (h : Handle) (value : String) (sink : EscapeSink) (location : Location) :
    Diagnostic :=
  if needsAsyncScope p h then
    .of .asyncScopeRequired
      ("'" ++ value ++ "' from scope '" ++ h.name ++
        "' outlives a synchronous using in async method " ++ p.name ++
        "; use CreateAsyncScope with await using")
      location [h.createdAt]
  else
    .of .scopeEscape
      ("'" ++ value ++ "' resolved from scope '" ++ h.name ++ "' is " ++ sink.describe ++
        " before the scope is disposed")
      location [h.createdAt]

/-- The finding for a handle that is left undisposed. -/
def undisposed (p : Procedure) (h : Handle) : Diagnostic :=
  match h.kind with
  | .scope =>
    .of .undisposedScope
      ("Scope '" ++ h.name ++ "' created in " ++ p.name ++ " is not disposed on every path")
      h.createdAt []
  | .rootProvider =>
    .of .rootProviderNotDisposed
      ("Service provider '" ++ h.name ++ "' built in " ++ p.name ++
        " is not disposed on every path")
      h.createdAt []

/-- The handle that a value was resolved from, with its states. -/
def derived? (p : Procedure) (ts : Tracked) (value : String) : Option (Handle × States) :=
  (Procedure.derivedFrom? value p.events).bind ts.find?

/-- The finding that an event gives in the states before it. -/
def finding? (p : Procedure) (ts : Tracked) : Event → Option Diagnostic
  | .resolve h result location =>
    match ts.find? h with
    | some t => if isDisposedScope t then some (useAfterDispose t.1 result location) else none
    | none => none
  | .escape value sink location =>
    match ts.find? value with
    | some _ => none
    | none =>
      match derived? p ts value with
      | some t => if isLiveScope t then some (escape p t.1 value sink location) else none
      | none => none
  | .use value location =>
    match (ts.find? value).or (derived? p ts value) with
    | some t => if isDisposedScope t then some (useAfterDispose t.1 value location) else none
    | none => none
  | _ => none

/-- The findings of the events of a block. -/
def findingsIn (p : Procedure) : Tracked → List Event → List Diagnostic
  | _, [] => []
  | ts, e :: es => (finding? p ts e).toList ++ findingsIn p (ts.after e) es

/-- The handles that the block leaves undisposed as it leaves the procedure. -/
def leftOpen (ts : Tracked) : List Handle :=
  (ts.filter (fun t => !t.1.acquisition.isGuarded && t.2.created)).map Prod.fst

/-- The handles with their states at the start of block `b`, from those at the ends of blocks. -/
def tracked (f : Flow) (outs : List (Handle × List States)) (b : Nat) : Tracked :=
  outs.map (fun o => (o.1, f.entry o.2 b))

/-- The findings of the blocks in order; a handle is reported as undisposed once. -/
def findingsOf (p : Procedure) (f : Flow) (outs : List (Handle × List States)) :
    List Nat → List Handle → List Diagnostic
  | [], _ => []
  | b :: bs, reported =>
    let before := tracked f outs b
    let atEnd := (f.eventsOf b).foldl Tracked.after before
    let isExit := (p.targets b).isEmpty
    let late := if isExit then (leftOpen atEnd).filter (fun h => !reported.contains h) else []
    findingsIn p before (f.eventsOf b) ++ late.map (undisposed p) ++
      findingsOf p f outs bs (reported ++ late)

end Scope

namespace Procedure

/-- The findings in a procedure whose trace makes sense. -/
def findings (p : Procedure) : List Diagnostic :=
  let f := Flow.of p
  Scope.findingsOf p f (p.handles.map (fun h => (h, f.solution h.name))) f.order []

/-- The findings in a procedure. -/
def analyze (p : Procedure) : Except Error (List Diagnostic) :=
  match p.fault? with
  | some e => .error e
  | none => .ok p.findings

end Procedure

/-- The finding for a member that caches a provider for the whole process. -/
def StaticAssignment.finding? (a : StaticAssignment) : Option Diagnostic :=
  let report (what : String) : Diagnostic :=
    .of .staticProviderCache
      ("Static member '" ++ a.member ++ "' caches " ++ what ++ "; inject it instead") a.location []
  match a.storage, a.valueKind with
  | .shared, .serviceProvider => some (report "an IServiceProvider")
  | .shared, .scopeFactory => some (report "an IServiceScopeFactory")
  | _, _ => none

/-- The findings for members that cache a provider. -/
def staticCacheFindings (as : List StaticAssignment) : List Diagnostic :=
  as.filterMap StaticAssignment.finding?

end Wiring
