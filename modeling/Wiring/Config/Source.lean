import Wiring.Config.Options
import Wiring.Text.Blank
import Wiring.Text.Case
import Wiring.Text.Quoted

/-!
# Sources of settings

A source gives settings by key. The text of a setting is an integer if it is written as one, a truth
value if it reads `true` or `false` in any case, and otherwise text. Options take from a source what
it has and keep the rest.
-/

namespace Wiring

/-- A setting as a source gives it. -/
inductive Setting where
  | string (s : String)
  | integer (z : Int)
  | boolean (b : Bool)
deriving DecidableEq, Repr

namespace Setting

/-- The number of a list of decimal digits, which must not be empty. -/
def digits? (cs : List Char) : Option Nat :=
  if cs.isEmpty || !cs.all Char.isDigit then none
  else some (cs.foldl (fun n c => n * 10 + (c.toNat - '0'.toNat)) 0)

/-- An integer of 64 bits with an optional sign. -/
def integer? (cs : List Char) : Option Int :=
  let limit := UInt64.size / 2
  match cs with
  | '-' :: ds => (digits? ds).bind (fun n => if n ≤ limit then some (-(n : Int)) else none)
  | '+' :: ds => (digits? ds).bind (fun n => if n < limit then some (n : Int) else none)
  | ds => (digits? ds).bind (fun n => if n < limit then some (n : Int) else none)

/-- A text in ASCII lower case. -/
def lowerAscii (s : String) : String :=
  String.ofList (s.toList.map Char.toLower)

/-- The setting that a text stands for. -/
def parse (raw : String) : Setting :=
  match integer? raw.toList with
  | some z => .integer z
  | none =>
    if lowerAscii raw = "true" then .boolean true
    else if lowerAscii raw = "false" then .boolean false
    else .string raw

/-- The setting with its kind, as messages show it. -/
def described : Setting → String
  | .string s => "String(" ++ Text.quoted s ++ ")"
  | .integer z => "Integer(" ++ toString z ++ ")"
  | .boolean b => "Boolean(" ++ (if b then "true" else "false") ++ ")"

/-- The setting as text. -/
def asString : Setting → Except Error String
  | .string s => .ok s
  | s => .error (.config (.wrongKind "a string" s.described))

/-- The setting as an integer. -/
def asInteger : Setting → Except Error Int
  | .integer z => .ok z
  | s => .error (.config (.wrongKind "an integer" s.described))

/-- The setting as a truth value. -/
def asBoolean : Setting → Except Error Bool
  | .boolean b => .ok b
  | s => .error (.config (.wrongKind "a boolean" s.described))

end Setting

/-- A source gives the setting of a key, if it has one. -/
abbrev Source := String → Option Setting

namespace Options

/-- The parts of a text between commas. -/
def splitCommas : List Char → List (List Char)
  | [] => [[]]
  | c :: cs =>
    if c = ',' then [] :: splitCommas cs
    else
      match splitCommas cs with
      | part :: parts => (c :: part) :: parts
      | [] => [[c]]

/-- The names in a list with commas, without blanks around them and without empty ones. -/
def splitNames (s : String) : List String :=
  ((splitCommas s.toList).map Text.trim).filterMap (fun part =>
    if part.isEmpty then none else some (String.ofList part))

/-- Takes a setting, if the source has it. -/
def take {α : Type} (source : Source) (key : String) (read : Setting → Except Error α)
    (current : α) : Except Error α :=
  match source key with
  | none => .ok current
  | some s => read s

/-- A limit for chains. -/
def readDepth (s : Setting) : Except Error Nat :=
  match s.asInteger with
  | .error e => .error e
  | .ok z => if 0 ≤ z then .ok z.toNat else .error (.config (.depthNotPositive z))

/-- A policy for traces that make no sense, in any case. -/
def readPolicy (s : Setting) : Except Error TraceErrorPolicy :=
  match s.asString with
  | .error e => .error e
  | .ok word =>
    let lower := Setting.lowerAscii word
    if lower = "skip" then .ok .skip
    else if lower = "fail" then .ok .fail
    else .error (.config (.unknownPolicy lower))

/-- Names of services of the host. -/
def readNames (s : Setting) : Except Error (List String) :=
  match s.asString with
  | .error e => .error e
  | .ok names => .ok (splitNames names)

/-- The options with every setting of the source taken over. -/
def withSource (o : Options) (source : Source) : Except Error Options := do
  let assume ←
    take source "assume_framework_services_registered" Setting.asBoolean o.assumeFramework
  let depth ← take source "max_resolution_depth" readDepth o.maxDepth
  let policy ← take source "trace_errors" readPolicy o.traceErrors
  let names ← take source "framework_services" readNames o.frameworkServices
  validated { o with
    assumeFramework := assume
    maxDepth := depth
    traceErrors := policy
    frameworkServices := names }

end Options

/-! ## Sources -/

/-- A source that holds its settings as text. Of equal keys the first counts. -/
structure MapSource where
  entries : List (String × String)
deriving Repr

namespace MapSource

/-- The setting of a key. -/
def get? (m : MapSource) (key : String) : Option Setting :=
  (m.entries.lookup key).map Setting.parse

/-- Sets a key. -/
def set (m : MapSource) (key value : String) : MapSource :=
  ⟨(key, value) :: m.entries.filter (fun e => e.1 != key)⟩

/-- The settings of both; where both have a key, the second counts. -/
def union (a b : MapSource) : MapSource :=
  ⟨b.entries ++ a.entries⟩

/-- The keys in order, each once. -/
def keys (m : MapSource) : List String :=
  ((m.entries.map Prod.fst).eraseDups).mergeSort (fun a b => (compare a b).isLE)

end MapSource

/-- The environment of a process: variables and their values. -/
structure Environment where
  entries : List (String × String)
deriving Repr

namespace Environment

/-- The variable that holds a key: upper case, behind the prefix and an underscore. -/
def variableOf (pre : Option String) (key : String) : String :=
  match pre with
  | some p => Text.upper p ++ "_" ++ Text.upper key
  | none => Text.upper key

/-- The setting of a key. -/
def get? (env : Environment) (pre : Option String) (key : String) : Option Setting :=
  (env.entries.lookup (variableOf pre key)).map Setting.parse

/-- The key of a variable, if it has the prefix. -/
def keyOf? (pre : Option String) (name : String) : Option String :=
  match pre with
  | some p =>
    let marker := (Text.upper p ++ "_").toList
    if marker.isPrefixOf name.toList then
      some (Text.lower (String.ofList (name.toList.drop marker.length)))
    else none
  | none => some (Text.lower name)

/-- The keys in order. -/
def keys (env : Environment) (pre : Option String) : List String :=
  (env.entries.filterMap (fun v => keyOf? pre v.1)).mergeSort (fun a b => (compare a b).isLE)

end Environment

/-- The default options with the settings of the environment, in variables that begin with the name
of the host. -/
def Options.ofEnvironment (env : Environment) (host : String) : Except Error Options :=
  Options.default.withSource (env.get? (some host))

end Wiring
