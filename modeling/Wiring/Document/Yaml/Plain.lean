import Wiring.Document.Basic

/-!
# Plain scalars

What a scalar without quotes is by itself: nothing, a truth value, a number, or else text.
Integers are written in decimal digits or after `0x`, `0o` or `0b`; decimal digits with a needless
zero in front are text, as are numbers out of the range of a double.
-/

namespace Wiring.Yaml

/-- The value of a digit to a base of at most sixteen. -/
def digit? (base : Nat) (c : Char) : Option Nat :=
  let d? :=
    if '0' ≤ c ∧ c ≤ '9' then some (c.toNat - '0'.toNat)
    else if 'a' ≤ c ∧ c ≤ 'f' then some (c.toNat - 'a'.toNat + 10)
    else if 'A' ≤ c ∧ c ≤ 'F' then some (c.toNat - 'A'.toNat + 10)
    else none
  d?.filter (fun d => d < base)

/-- The number that digits stand for, at least one of them. -/
def number? (base : Nat) (cs : List Char) : Option Nat :=
  if cs.isEmpty then none
  else (cs.mapM (digit? base)).map (fun ds => ds.foldl (fun n d => n * base + d) 0)

/-- The number that digits stand for, in the base that they name. -/
def magnitude? : List Char → Option Nat
  | '0' :: 'x' :: cs => number? 16 cs
  | '0' :: 'o' :: cs => number? 8 cs
  | '0' :: 'b' :: cs => number? 2 cs
  | cs => number? 10 cs

/-- The text after a sign, if there is one. -/
def afterSign : List Char → List Char
  | '+' :: cs => cs
  | '-' :: cs => cs
  | cs => cs

/-- Whether the text is digits with a needless zero in front. -/
def isPadded (cs : List Char) : Bool :=
  match afterSign cs with
  | '0' :: d :: ds => (d :: ds).all Char.isDigit
  | _ => false

/-- An integer as it is held: one beyond 64 bits cannot be, and one beyond 128 bits is none. -/
def integer? (cs : List Char) : Option Value :=
  if isPadded cs then none
  else
    match cs with
    | '-' :: ds =>
      (magnitude? ds).bind (fun n =>
        if n ≤ UInt64.size / 2 then some (.int (-(n : Int)))
        else if n ≤ Nat.pow 2 127 then some .unreadable
        else none)
    | cs =>
      (magnitude? (match cs with | '+' :: ds => ds | ds => ds)).bind (fun n =>
        if n < UInt64.size then some (.nat n)
        else if n < Nat.pow 2 128 then some .unreadable
        else none)

/-- The exponent at the end of a number, zero if there is none. -/
def exponent? : List Char → Option Int
  | [] => some 0
  | c :: cs =>
    if c = 'e' ∨ c = 'E' then
      match cs with
      | '-' :: ds => (number? 10 ds).map (fun n => -(n : Int))
      | '+' :: ds => (number? 10 ds).map (fun n => (n : Int))
      | ds => (number? 10 ds).map (fun n => (n : Int))
    else none

/-- Whether `m` times ten to the power `e` is in the range of a double. -/
def isFinite (m : Nat) (e : Int) : Bool :=
  let magnitude := ((Nat.toDigits 10 m).length : Int) + e
  let bound := Nat.pow 2 1024 - Nat.pow 2 970
  if m = 0 ∨ magnitude ≤ 308 then true
  else if 310 ≤ magnitude then false
  else if 0 ≤ e then m * Nat.pow 10 e.toNat < bound
  else m < bound * Nat.pow 10 (-e).toNat

/-- Whether the text is a decimal number in the range of a double. -/
def isDecimal (cs : List Char) : Bool :=
  let body := afterSign cs
  let whole := body.takeWhile Char.isDigit
  let (places, rest) :=
    match body.dropWhile Char.isDigit with
    | '.' :: ds => (ds.takeWhile Char.isDigit, ds.dropWhile Char.isDigit)
    | ds => ([], ds)
  match number? 10 (whole ++ places), exponent? rest with
  | some m, some e => isFinite m (e - places.length)
  | _, _ => false

/-- The texts for numbers that are not finite. -/
def unbounded : List String :=
  [".inf", ".Inf", ".INF", "+.inf", "+.Inf", "+.INF", "-.inf", "-.Inf", "-.INF", ".nan", ".NaN",
    ".NAN"]

/-- The texts that stand for nothing. -/
def nulls : List String :=
  ["", "~", "null", "Null", "NULL"]

/-- What a plain scalar is by itself. -/
def plainValue (text : String) : Value :=
  if nulls.contains text then .null
  else if ["true", "True", "TRUE"].contains text then .bool true
  else if ["false", "False", "FALSE"].contains text then .bool false
  else
    match integer? text.toList with
    | some v => v
    | none =>
      if !isPadded text.toList && (unbounded.contains text || isDecimal text.toList) then .real
      else .str text

/-- A plain scalar. -/
def plainScalar (text : String) : Scalar :=
  ⟨some text, plainValue text⟩

end Wiring.Yaml
