import Wiring.Document.Yaml.Plain

/-!
# Tokens of YAML text

The text is taken character by character. Blanks at the start of a line give the structure: a line
that is further in opens a list or record, and one that is further out closes it. A scalar may
turn out to be the name of a field only when the colon behind it is met, so the place of its token
is kept until then.

Anchors, tags, directives and block scalars are not read.
-/

namespace Wiring.Yaml

/-- A token. -/
inductive Token where
  /-- A list or record in lines begins or ends. -/
  | listStart
  | recordStart
  | blockEnd
  | openList
  | closeList
  | openRecord
  | closeRecord
  /-- A dash before an item. -/
  | dash
  | comma
  /-- The name of a field follows. -/
  | key
  /-- The value of a field follows. -/
  | value
  | scalar (s : Scalar)
  /-- The three dashes before a document. -/
  | documentStart
  /-- The three dots after a document. -/
  | documentEnd
deriving DecidableEq, Repr

/-! ## Characters -/

/-- Blanks within a line. -/
def isBlank (c : Char) : Bool :=
  c == ' ' || c == '\t'

/-- The ends of lines. -/
def isBreak (c : Char) : Bool :=
  c == '\n' || c.toNat == 0x2028 || c.toNat == 0x2029

/-- Whether a blank, a line's end or the end of the text comes next. -/
def opensGap : List Char → Bool
  | [] => true
  | c :: _ => isBlank c || isBreak c

/-- Whether a character may stand in YAML text. -/
def isAllowed (c : Char) : Bool :=
  let n := c.toNat
  n == 9 || n == 10 || n == 13 || (0x20 ≤ n && n ≤ 0x7e) || n == 0x85 ||
    (0xa0 ≤ n && n ≤ 0xfffd) || 0x10000 ≤ n

/-- Text with one kind of line end; the separators of Unicode stay. -/
def unifyBreaks : List Char → List Char
  | [] => []
  | '\r' :: '\n' :: cs => '\n' :: unifyBreaks cs
  | '\r' :: cs => '\n' :: unifyBreaks cs
  | c :: cs => (if c.toNat = 0x85 then '\n' else c) :: unifyBreaks cs

/-- Whether three dashes or dots stand by themselves. -/
def isMarker (mark : Char) : List Char → Bool
  | a :: b :: c :: cs => a == mark && b == mark && c == mark && opensGap cs
  | _ => false

/-! ## Scalars in the making -/

/-- The text of a scalar so far, and the blanks and line ends behind it. All lists are in reverse.
-/
structure Draft where
  done : List Char
  /-- Blanks on the line of the text. -/
  blanks : List Char
  /-- The first line end behind the text; none of its own if it was escaped. -/
  fold : Option (List Char)
  /-- Further line ends. -/
  breaks : List Char
deriving Repr

namespace Draft

/-- No text yet. -/
def empty : Draft :=
  ⟨[], [], none, []⟩

/-- What the blanks and line ends stand for: a single line end is a blank, and of several the
first is left out. -/
def gap (d : Draft) : List Char :=
  match d.fold with
  | none => d.blanks
  | some ['\n'] => if d.breaks.isEmpty then [' '] else d.breaks
  | some first => d.breaks ++ first

/-- Adds a character of the text. -/
def push (d : Draft) (c : Char) : Draft :=
  ⟨c :: (d.gap ++ d.done), [], none, []⟩

/-- Adds a blank, which counts only on the line of the text. -/
def blank (d : Draft) (c : Char) : Draft :=
  if d.fold.isSome then d else { d with blanks := c :: d.blanks }

/-- Adds a line end. -/
def lineEnd (d : Draft) (c : Char) : Draft :=
  match d.fold with
  | none => { d with blanks := [], fold := some [c] }
  | some _ => { d with breaks := c :: d.breaks }

/-- Adds a line end that stands for nothing. -/
def escapedEnd (d : Draft) : Draft :=
  ⟨d.gap ++ d.done, [], some [], []⟩

/-- Whether blanks or line ends are behind the text. -/
def hasGap (d : Draft) : Bool :=
  d.fold.isSome || !d.blanks.isEmpty

/-- The text without what is behind it. -/
def trimmed (d : Draft) : String :=
  String.ofList d.done.reverse

/-- The text with what is behind it. -/
def whole (d : Draft) : String :=
  String.ofList (d.gap ++ d.done).reverse

end Draft

/-! ## The state of the scan -/

/-- What the next character belongs to. -/
inductive Mode where
  | between
  | comment
  /-- The last token, for some characters more. -/
  | skip (left : Nat)
  | plain (d : Draft)
  | single (d : Draft)
  /-- The second of two quotes that stand for one. -/
  | singlePair (d : Draft)
  | double (d : Draft)
  | escape (d : Draft)
  /-- A line end behind a backslash. -/
  | escapedBreak (d : Draft)
  /-- The digits of a character's number. -/
  | code (d : Draft) (left value : Nat)
deriving Repr

/-- A place in the tokens where the name of a field may have begun. -/
structure Candidate where
  /-- The number of tokens before it. -/
  number : Nat
  line : Nat
  column : Nat
  index : Nat
  /-- There is no other way to go on from here. -/
  required : Bool
deriving Repr

/-- The scan up to a character. -/
structure Scan where
  mode : Mode
  line : Nat
  column : Nat
  /-- The bytes before it. -/
  index : Nat
  /-- The columns of the open lists and records in lines, the innermost first. -/
  indents : List Nat
  /-- The name that may have begun in the innermost brackets. -/
  candidate : Option Candidate
  /-- The names that may have begun around each open bracket. -/
  outer : List (Option Candidate)
  /-- A name may begin here. -/
  nameAllowed : Bool
  /-- The tokens in reverse, and their number. -/
  tokens : List Token
  count : Nat
deriving Repr

namespace Scan

/-- Before the first character. -/
def start : Scan :=
  ⟨.between, 0, 0, 0, [], none, [], true, [], 0⟩

/-- Whether a bracket is open. -/
def inFlow (s : Scan) : Bool :=
  !s.outer.isEmpty

/-- Whether a column is further in than the innermost open list or record in lines. -/
def isInner (s : Scan) (column : Nat) : Bool :=
  match s.indents with
  | [] => true
  | i :: _ => i < column

/-- The position behind a character. -/
def advance (s : Scan) (c : Char) : Scan :=
  if isBreak c then { s with line := s.line + 1, column := 0, index := s.index + c.utf8Size }
  else { s with column := s.column + 1, index := s.index + c.utf8Size }

/-! ### Tokens -/

/-- Adds a token. -/
def emit (s : Scan) (t : Token) : Scan :=
  { s with tokens := t :: s.tokens, count := s.count + 1 }

/-- Puts a token before the tokens from a number on. -/
def insert (s : Scan) (number : Nat) (t : Token) : Scan :=
  let later := s.count - number
  { s with
    tokens := s.tokens.take later ++ t :: s.tokens.drop later, count := s.count + 1 }

/-- Opens a list or record in lines if the column is further in. -/
def indent (s : Scan) (column number : Nat) (t : Token) : Scan :=
  if !s.inFlow && s.isInner column then
    { s with indents := column :: s.indents }.insert number t
  else s

/-- Closes all lists and records in lines whose column satisfies a test, from the innermost. -/
def dedent (s : Scan) (isOver : Nat → Bool) : Scan :=
  if s.inFlow then s
  else
    let ended := s.indents.takeWhile isOver
    { s with
      indents := s.indents.dropWhile isOver
      tokens := ended.map (fun _ => Token.blockEnd) ++ s.tokens
      count := s.count + ended.length }

/-! ### Names -/

/-- Whether a name that began at the candidate can still end here: on its line, and within 1024
bytes. -/
def isLive (s : Scan) (k : Candidate) : Bool :=
  s.line ≤ k.line && s.index ≤ k.index + 1024

/-- A candidate if it is live; one that is required must be. -/
def review (s : Scan) : Option Candidate → Option (Option Candidate)
  | none => some none
  | some k => if s.isLive k then some (some k) else if k.required then none else some none

/-- Gives up names that cannot end any more. -/
def reviewNames (s : Scan) : Option Scan := do
  let candidate ← s.review s.candidate
  let outer ← s.outer.mapM s.review
  return { s with candidate := candidate, outer := outer }

/-- Gives up the name that may have begun, unless it is required. -/
def dropName (s : Scan) : Option Scan :=
  match s.candidate with
  | none => some s
  | some k => if k.required then none else some { s with candidate := none }

/-- Notes that a name may begin here. -/
def noteName (s : Scan) : Option Scan :=
  if s.nameAllowed then do
    let s ← s.dropName
    let required := !s.inFlow && s.indents.head? == some s.column
    return { s with candidate := some ⟨s.count, s.line, s.column, s.index, required⟩ }
  else some s

/-! ### Token by token -/

/-- An opening bracket. -/
def openBracket (s : Scan) (t : Token) : Option Scan := do
  let s ← s.noteName
  return { s.emit t with outer := s.candidate :: s.outer, candidate := none, nameAllowed := true }

/-- A closing bracket. -/
def closeBracket (s : Scan) (t : Token) : Option Scan := do
  let s ← s.dropName
  let s := { s.emit t with nameAllowed := false }
  match s.outer with
  | [] => return s
  | k :: ks => return { s with candidate := k, outer := ks }

/-- A comma. -/
def comma (s : Scan) : Option Scan := do
  let s ← s.dropName
  return { s.emit .comma with nameAllowed := true }

/-- A dash before an item. -/
def dash (s : Scan) : Option Scan :=
  if !s.inFlow && !s.nameAllowed then none
  else do
    let s ← (s.indent s.column s.count .listStart).dropName
    return { s.emit .dash with nameAllowed := true }

/-- A question mark before a name. -/
def questionMark (s : Scan) : Option Scan :=
  if !s.inFlow && !s.nameAllowed then none
  else do
    let s ← (s.indent s.column s.count .recordStart).dropName
    return { s.emit .key with nameAllowed := !s.inFlow }

/-- A colon before a value. -/
def colon (s : Scan) : Option Scan :=
  match s.candidate with
  | some k =>
    let s := (s.insert k.number .key).indent k.column k.number .recordStart
    some { s.emit .value with candidate := none, nameAllowed := false }
  | none =>
    if !s.inFlow && !s.nameAllowed then none
    else
      let s := s.indent s.column s.count .recordStart
      some { s.emit .value with nameAllowed := !s.inFlow }

/-- Three dashes or dots. -/
def marker (s : Scan) (t : Token) : Option Scan := do
  let s ← (s.dedent (fun _ => true)).dropName
  return { s.emit t with nameAllowed := false, mode := .skip 2 }

/-- The start of a scalar. -/
def scalarStart (s : Scan) (mode : Mode) : Option Scan := do
  let s ← s.noteName
  return { s with nameAllowed := false, mode := mode }

/-- The end of a scalar. -/
def scalarEnd (s : Scan) (v : Scalar) : Scan :=
  { s.emit (.scalar v) with mode := .between }

/-- Characters that cannot begin a plain scalar by themselves. -/
def indicators : List Char :=
  ['\t', '-', '?', ':', ',', '[', ']', '\x7b', '\x7d', '#', '&', '*', '!', '|', '>', '\'', '"', '%',
    '@', '\x60']

/-- The first character of a token. -/
def tokenStart (s : Scan) (c : Char) (next : List Char) : Option Scan := do
  let s ← s.reviewNames
  let s := s.dedent (fun i => s.column < i)
  if s.column == 0 && c == '%' then none
  else if s.column == 0 && isMarker '-' (c :: next) then s.marker .documentStart
  else if s.column == 0 && isMarker '.' (c :: next) then s.marker .documentEnd
  else if c == '[' then s.openBracket .openList
  else if c == '\x7b' then s.openBracket .openRecord
  else if c == ']' then s.closeBracket .closeList
  else if c == '\x7d' then s.closeBracket .closeRecord
  else if c == ',' then s.comma
  else if c == '-' && opensGap next then s.dash
  else if c == '?' && (s.inFlow || opensGap next) then s.questionMark
  else if c == ':' && (s.inFlow || opensGap next) then s.colon
  else if c == '\'' then s.scalarStart (.single .empty)
  else if c == '"' then s.scalarStart (.double .empty)
  else if !indicators.contains c || c == '-' || c == '?' || c == ':' then
    s.scalarStart (.plain (Draft.empty.push c))
  else none

/-- Whether a character only takes up its column: a blank, or a byte order mark that begins a line.
A tab is no blank where it could indent. -/
def isFiller (s : Scan) (c : Char) : Bool :=
  c == ' ' || (c == '\t' && (s.inFlow || !s.nameAllowed)) ||
    (c.toNat == 0xfeff && s.column == 0)

/-- A character between tokens. -/
def inBetween (s : Scan) (c : Char) (next : List Char) : Option Scan :=
  if s.isFiller c then some s
  else if c == '#' then some { s with mode := .comment }
  else if isBreak c then some { s with nameAllowed := s.nameAllowed || !s.inFlow }
  else s.tokenStart c next

/-! ### Scalars -/

/-- The characters that end a plain scalar between brackets. -/
def brackets : List Char :=
  [',', '[', ']', '\x7b', '\x7d']

/-- Whether a plain scalar ends before a character. -/
def endsPlain (s : Scan) (d : Draft) (c : Char) (next : List Char) : Bool :=
  (d.hasGap && ((!s.inFlow && !s.isInner s.column) || c == '#' ||
    (s.column == 0 && (isMarker '-' (c :: next) || isMarker '.' (c :: next))))) ||
  (c == ':' && opensGap next) || (s.inFlow && brackets.contains c)

/-- The end of a plain scalar; on a new line a name may begin. -/
def plainEnd (s : Scan) (d : Draft) : Scan :=
  { s.scalarEnd (plainScalar d.trimmed) with nameAllowed := s.nameAllowed || d.fold.isSome }

/-- Whether a colon between brackets is followed by something that it cannot stand before. -/
def isStuckColon (s : Scan) (c : Char) : List Char → Bool
  | n :: _ => s.inFlow && c == ':' && (n == '?' || brackets.contains n)
  | [] => false

/-- A character in or behind a plain scalar. -/
def inPlain (s : Scan) (d : Draft) (c : Char) (next : List Char) : Option Scan :=
  if isBlank c then
    if c == '\t' && d.fold.isSome && !s.isInner s.column then none
    else some { s with mode := .plain (d.blank c) }
  else if isBreak c then some { s with mode := .plain (d.lineEnd c) }
  else if s.endsPlain d c next then (s.plainEnd d).inBetween c next
  else if s.isStuckColon c next then none
  else some { s with mode := .plain (d.push c) }

/-- Whether a marker of documents stands in quotes. -/
def isStrayMarker (s : Scan) (c : Char) (next : List Char) : Bool :=
  s.column == 0 && (isMarker '-' (c :: next) || isMarker '.' (c :: next))

/-- A character in single quotes. -/
def inSingle (s : Scan) (d : Draft) (c : Char) (next : List Char) : Option Scan :=
  if isBlank c then some { s with mode := .single (d.blank c) }
  else if isBreak c then some { s with mode := .single (d.lineEnd c) }
  else if s.isStrayMarker c next then none
  else if c == '\'' then
    if next.head? == some '\'' then some { s with mode := .singlePair (d.push c) }
    else some (s.scalarEnd (.str d.whole))
  else some { s with mode := .single (d.push c) }

/-- A character in double quotes. -/
def inDouble (s : Scan) (d : Draft) (c : Char) (next : List Char) : Option Scan :=
  if isBlank c then some { s with mode := .double (d.blank c) }
  else if isBreak c then some { s with mode := .double (d.lineEnd c) }
  else if s.isStrayMarker c next then none
  else if c == '"' then some (s.scalarEnd (.str d.whole))
  else if c == '\\' then
    if (next.head?.map isBreak).getD false then some { s with mode := .escapedBreak d }
    else some { s with mode := .escape d }
  else some { s with mode := .double (d.push c) }

/-- The characters with short escapes. -/
def escapes : List (Char × Nat) :=
  [('0', 0), ('a', 7), ('b', 8), ('t', 9), ('\t', 9), ('n', 10), ('v', 11), ('f', 12), ('r', 13),
    ('e', 0x1b), (' ', 0x20), ('"', 0x22), ('/', 0x2f), ('\\', 0x5c), ('N', 0x85), ('_', 0xa0),
    ('L', 0x2028), ('P', 0x2029)]

/-- The character behind a backslash. -/
def inEscape (s : Scan) (d : Draft) (c : Char) : Option Scan :=
  match escapes.lookup c with
  | some n => some { s with mode := .double (d.push (Char.ofNat n)) }
  | none =>
    if c == 'x' then some { s with mode := .code d 2 0 }
    else if c == 'u' then some { s with mode := .code d 4 0 }
    else if c == 'U' then some { s with mode := .code d 8 0 }
    else none

/-- A digit of a character's number. -/
def inCode (s : Scan) (d : Draft) (left value : Nat) (c : Char) : Option Scan := do
  let n := value * 16 + (← digit? 16 c)
  if 1 < left then return { s with mode := .code d (left - 1) n }
  else if n.isValidChar then return { s with mode := .double (d.push (Char.ofNat n)) }
  else none

/-! ### Character by character -/

/-- What a character does, given what comes next. -/
def take (s : Scan) (c : Char) (next : List Char) : Option Scan :=
  match s.mode with
  | .between => s.inBetween c next
  | .comment => if isBreak c then { s with mode := .between }.inBetween c next else some s
  | .skip left => some { s with mode := if 1 < left then .skip (left - 1) else .between }
  | .plain d => s.inPlain d c next
  | .single d => s.inSingle d c next
  | .singlePair d => some { s with mode := .single d }
  | .double d => s.inDouble d c next
  | .escape d => s.inEscape d c
  | .escapedBreak d => some { s with mode := .double d.escapedEnd }
  | .code d left value => s.inCode d left value c

/-- The scan after the text. -/
def run (s : Scan) : List Char → Option Scan
  | [] => some s
  | c :: next =>
    match s.take c next with
    | none => none
    | some s' => run (s'.advance c) next

/-- The tokens, if the scan can end here. -/
def finish (s : Scan) : Option (List Token) := do
  let s ←
    match s.mode with
    | .between => some s
    | .comment => some s
    | .skip _ => some s
    | .plain d => some (s.plainEnd d)
    | _ => none
  let s ← s.reviewNames
  let s ← (s.dedent (fun _ => true)).dropName
  return s.tokens.reverse

end Scan

/-- The tokens of a text. -/
def tokens? (cs : List Char) : Option (List Token) :=
  if cs.all isAllowed then (Scan.start.run (unifyBreaks cs)).bind Scan.finish else none

end Wiring.Yaml
