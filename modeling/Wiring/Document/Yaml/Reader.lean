import Wiring.Document.Yaml.Token

/-!
# Reading YAML text

Tokens are taken one by one. The lists and records that are still open stand on a stack, each with
what it holds so far and what it waits for. Where a value is left out there is an empty one, which
shows only when the next token comes.
-/

namespace Wiring.Yaml

/-- What an open record waits for. -/
inductive Place where
  /-- The next field, or the end. -/
  | entry
  /-- A comma, or the end. -/
  | separator
  /-- The name that was announced. -/
  | name
  /-- The rest of a name that was not announced, and has no value. -/
  | bareName
  /-- The value of a field, or no value. -/
  | colon (key : Scalar)
  /-- The value that was announced. -/
  | value (key : Scalar)
deriving Repr

/-- A list or record that is still open; what it holds is in reverse order. -/
inductive Frame where
  /-- A list in lines; an item follows the last dash or does not. -/
  | items (done : List Document) (awaiting : Bool)
  /-- A list in lines that are not further in than the record around it. -/
  | flatItems (done : List Document) (awaiting : Bool)
  /-- A record in lines. -/
  | fields (done : List (Scalar × Document)) (place : Place)
  /-- A list in brackets; an item or a comma comes next. -/
  | bracketItems (done : List Document) (isSeparated : Bool)
  /-- A field by itself as an item of a list in brackets. -/
  | pair (place : Place)
  /-- A record in brackets. -/
  | bracketFields (done : List (Scalar × Document)) (place : Place)
deriving Repr

/-- How far the text has been read. -/
inductive Progress where
  /-- No document yet. -/
  | before
  /-- A document was announced. -/
  | announced
  /-- In an open list or record, and those around it. -/
  | within (top : Frame) (stack : List Frame)
  /-- Behind the document, and whether its end was marked. -/
  | after (d : Document) (isMarked : Bool)
deriving Repr

/-- The value that is left out. -/
def blank : Document :=
  .scalar (plainScalar "")

/-- The name that a document gives to a field. Of a list or record it keeps only what counts for
holding it back. -/
def keyOf : Document → Scalar
  | .scalar s => s
  | d => .only (if d.isReadable then .nested d.depth else .unreadable)

/-- Takes a value that is complete. -/
def complete (d : Document) : List Frame → Option Progress
  | [] => some (.after d false)
  | .items done _ :: fs => some (.within (.items (d :: done) false) fs)
  | .flatItems done _ :: fs => some (.within (.flatItems (d :: done) false) fs)
  | .bracketItems done _ :: fs => some (.within (.bracketItems (d :: done) true) fs)
  | .fields done .name :: fs => some (.within (.fields done (.colon (keyOf d))) fs)
  | .fields done (.value k) :: fs => some (.within (.fields ((k, d) :: done) .entry) fs)
  | .pair .name :: fs => some (.within (.pair (.colon (keyOf d))) fs)
  | .pair (.value k) :: .bracketItems done _ :: fs =>
    some (.within (.bracketItems (.record [(k, d)] :: done) true) fs)
  | .bracketFields done .name :: fs => some (.within (.bracketFields done (.colon (keyOf d))) fs)
  | .bracketFields done .bareName :: fs =>
    some (.within (.bracketFields ((keyOf d, blank) :: done) .separator) fs)
  | .bracketFields done (.value k) :: fs =>
    some (.within (.bracketFields ((k, d) :: done) .separator) fs)
  | _ => none

/-- The start of a value: whether lists and records in lines may stand here, and whether they may be
lists that are not further in. -/
def startValue (inLines flat : Bool) (stack : List Frame) : Token → Option Progress
  | .scalar s => complete (.scalar s) stack
  | .openList => some (.within (.bracketItems [] false) stack)
  | .openRecord => some (.within (.bracketFields [] .entry) stack)
  | .listStart => if inLines then some (.within (.items [] false) stack) else none
  | .recordStart => if inLines then some (.within (.fields [] .entry) stack) else none
  | .dash => if flat then some (.within (.flatItems [] true) stack) else none
  | _ => none

/-- Whether a token shows that a value in lines was left out. -/
def endsField : Token → Bool
  | .key => true
  | .value => true
  | .blockEnd => true
  | _ => false

/-- Whether a token shows that a value in brackets was left out. -/
def endsBracketField : Token → Bool
  | .comma => true
  | .closeList => true
  | .closeRecord => true
  | _ => false

/-- Fills in the value that a token shows to be left out in the innermost list or record. -/
def fillIn (t : Token) : Frame → Frame
  | .items done true =>
    if t = .dash ∨ t = .blockEnd then .items (blank :: done) false else .items done true
  | .flatItems done true =>
    if t = .dash ∨ endsField t then .flatItems (blank :: done) false else .flatItems done true
  | .fields done .name =>
    if t = .value then .fields done (.colon (keyOf blank))
    else if endsField t then .fields ((keyOf blank, blank) :: done) .entry
    else .fields done .name
  | .fields done (.colon k) =>
    if t = .value then .fields done (.colon k) else .fields ((k, blank) :: done) .entry
  | .fields done (.value k) =>
    if endsField t then .fields ((k, blank) :: done) .entry else .fields done (.value k)
  | .bracketFields done .name =>
    if t = .value then .bracketFields done (.colon (keyOf blank))
    else if endsBracketField t then .bracketFields ((keyOf blank, blank) :: done) .separator
    else .bracketFields done .name
  | .bracketFields done (.colon k) =>
    if t = .value then .bracketFields done (.colon k)
    else .bracketFields ((k, blank) :: done) .separator
  | .bracketFields done (.value k) =>
    if endsBracketField t then .bracketFields ((k, blank) :: done) .separator
    else .bracketFields done (.value k)
  | f => f

/-- Fills in what is left out, and closes a list or pair that ends without a token of its own. -/
def settle (t : Token) (top : Frame) (stack : List Frame) : Option Progress :=
  match fillIn t top, stack with
  | .flatItems done false, parent :: stack =>
    if t = .dash then some (.within (.flatItems done false) (parent :: stack))
    else
      match complete (.list done.reverse) (parent :: stack) with
      | some (.within f fs) => some (.within (fillIn t f) fs)
      | p => p
  | .pair (.colon k), .bracketItems done _ :: stack =>
    if t = .value then some (.within (.pair (.colon k)) (.bracketItems done false :: stack))
    else some (.within (.bracketItems (.record [(k, blank)] :: done) true) stack)
  | .pair (.value k), .bracketItems done _ :: stack =>
    if endsBracketField t then
      some (.within (.bracketItems (.record [(k, blank)] :: done) true) stack)
    else some (.within (.pair (.value k)) (.bracketItems done false :: stack))
  | f, stack => some (.within f stack)

/-- A token in the innermost list or record, when nothing before it was left out. -/
def inFrame (t : Token) (top : Frame) (stack : List Frame) : Option Progress :=
  match top with
  | .items done true => startValue true false (.items done true :: stack) t
  | .items done false =>
    match t with
    | .dash => some (.within (.items done true) stack)
    | .blockEnd => complete (.list done.reverse) stack
    | _ => none
  | .flatItems done true => startValue true false (.flatItems done true :: stack) t
  | .flatItems done false =>
    match t with
    | .dash => some (.within (.flatItems done true) stack)
    | _ => none
  | .fields done .entry =>
    match t with
    | .key => some (.within (.fields done .name) stack)
    | .blockEnd => complete (.record done.reverse) stack
    | _ => none
  | .fields done (.colon k) =>
    match t with
    | .value => some (.within (.fields done (.value k)) stack)
    | _ => none
  | .fields done place => startValue true true (.fields done place :: stack) t
  | .bracketItems done true =>
    match t with
    | .comma => some (.within (.bracketItems done false) stack)
    | .closeList => complete (.list done.reverse) stack
    | _ => none
  | .bracketItems done false =>
    match t with
    | .closeList => complete (.list done.reverse) stack
    | .key => some (.within (.pair .name) (.bracketItems done false :: stack))
    | _ => startValue false false (.bracketItems done false :: stack) t
  | .pair .name =>
    -- A token that shows the name to be left out is used up by it.
    if t = .value ∨ t = .comma ∨ t = .closeList then
      some (.within (.pair (.colon (keyOf blank))) stack)
    else startValue false false (.pair .name :: stack) t
  | .pair (.colon k) =>
    match t with
    | .value => some (.within (.pair (.value k)) stack)
    | _ => none
  | .pair place => startValue false false (.pair place :: stack) t
  | .bracketFields done .separator =>
    match t with
    | .comma => some (.within (.bracketFields done .entry) stack)
    | .closeRecord => complete (.record done.reverse) stack
    | _ => none
  | .bracketFields done .entry =>
    match t with
    | .closeRecord => complete (.record done.reverse) stack
    | .key => some (.within (.bracketFields done .name) stack)
    | _ => startValue false false (.bracketFields done .bareName :: stack) t
  | .bracketFields done (.colon k) =>
    match t with
    | .value => some (.within (.bracketFields done (.value k)) stack)
    | _ => none
  | .bracketFields done place => startValue false false (.bracketFields done place :: stack) t

/-- One token. A text holds at most one document. -/
def step : Progress → Token → Option Progress
  | .before, .documentStart => some .announced
  | .before, t => startValue true false [] t
  | .announced, .documentEnd => some (.after blank true)
  | .announced, t => startValue true false [] t
  | .within top stack, t =>
    match settle t top stack with
    | some (.within top' stack') => inFrame t top' stack'
    | _ => none
  | .after d _, .documentEnd => some (.after d true)
  | .after _ _, _ => none

/-- The document that tokens give; without any it is blank. -/
def ofTokens? (ts : List Token) : Option Document :=
  match ts.foldlM step .before with
  | some .before => some blank
  | some .announced => some blank
  | some (.after d _) => some d
  | _ => none

/-- The document that the text holds. -/
def read? (cs : List Char) : Option Document :=
  (tokens? cs).bind ofTokens?

end Wiring.Yaml
