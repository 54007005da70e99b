/-!
# Source locations

Where in the analysed sources a fact was found.
-/

namespace Wiring

/-- A file, a line counted from one, and a column counted from one, or zero if it is not known. -/
structure Location where
  file : String
  line : UInt32
  column : UInt32
deriving DecidableEq, Repr, Inhabited

namespace Location

/-- File and line; the column only if it is known. -/
def text (l : Location) : String :=
  let place := l.file ++ ":" ++ toString l.line.toNat
  if l.column = 0 then place else place ++ ":" ++ toString l.column.toNat

instance : ToString Location := ⟨text⟩

/-- By file, then line, then column. -/
def cmp (a b : Location) : Ordering :=
  (compare a.file b.file).then ((compare a.line b.line).then (compare a.column b.column))

instance : Ord Location := ⟨cmp⟩

/-- Lists of locations from the left; a list comes before its extensions. -/
def cmpAll : List Location → List Location → Ordering
  | [], [] => .eq
  | [], _ :: _ => .lt
  | _ :: _, [] => .gt
  | a :: as, b :: bs => (cmp a b).then (cmpAll as bs)

end Location

end Wiring
