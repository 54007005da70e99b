import Wiring.Document.Json.Token

/-!
# Reading JSON text

Tokens are taken one by one. The lists and records that are still open stand on a stack, each with
what it holds so far, and the state says what may come next. The text is one document if the last
token completes a value with nothing left open.
-/

namespace Wiring.Json

/-- A list or record that is still open; what it holds is in reverse order. A record waits for the
value of the field `key`. -/
inductive Frame where
  | items (done : List Document)
  | fields (done : List (Scalar × Document)) (key : Scalar)
deriving Repr

/-- What may come next. -/
inductive State where
  /-- A value must come. -/
  | value (stack : List Frame)
  /-- A list has just been opened: a value or its end. -/
  | listStart (stack : List Frame)
  /-- A record has just been opened: a name or its end. -/
  | recordStart (stack : List Frame)
  /-- After a comma in a record: a name. -/
  | name (done : List (Scalar × Document)) (stack : List Frame)
  /-- After a name: a colon. -/
  | colon (done : List (Scalar × Document)) (key : Scalar) (stack : List Frame)
  /-- After a value: a comma or the end of what is open. -/
  | after (d : Document) (stack : List Frame)
deriving Repr

/-- A token where a value must come. -/
def startValue (stack : List Frame) : Token → Option State
  | .openList => some (.listStart stack)
  | .openRecord => some (.recordStart stack)
  | .text s => some (.after (.scalar s) stack)
  | .atom v => some (.after (.scalar (.only v)) stack)
  | _ => none

/-- A token after the value `d`. -/
def afterValue (d : Document) : List Frame → Token → Option State
  | .items done :: stack, .comma => some (.value (.items (d :: done) :: stack))
  | .items done :: stack, .closeList => some (.after (.list (d :: done).reverse) stack)
  | .fields done key :: stack, .comma => some (.name ((key, d) :: done) stack)
  | .fields done key :: stack, .closeRecord =>
    some (.after (.record ((key, d) :: done).reverse) stack)
  | _, _ => none

/-- One token. -/
def step : State → Token → Option State
  | .value stack, t => startValue stack t
  | .listStart stack, .closeList => some (.after (.list []) stack)
  | .listStart stack, t => startValue (.items [] :: stack) t
  | .recordStart stack, .closeRecord => some (.after (.record []) stack)
  | .recordStart stack, .text k => some (.colon [] k stack)
  | .recordStart _, _ => none
  | .name done stack, .text k => some (.colon done k stack)
  | .name _ _, _ => none
  | .colon done k stack, .colon => some (.value (.fields done k :: stack))
  | .colon _ _ _, _ => none
  | .after d stack, t => afterValue d stack t

/-- The state after all tokens of the text. -/
def run (st : State) (cs : List Char) : Option State :=
  match _h : token? (skipBlanks cs) with
  | none => if (skipBlanks cs).isEmpty then some st else none
  | some (t, rest) =>
    match step st t with
    | none => none
    | some st' => run st' rest
termination_by cs.length
decreasing_by
  have h1 := token?_lt _h
  have h2 := skipBlanks_le cs
  simp only at h1
  omega

/-- The document that the text holds. -/
def read? (cs : List Char) : Option Document :=
  match run (.value []) cs with
  | some (.after d []) => some d
  | _ => none

end Wiring.Json
