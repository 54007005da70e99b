import Wiring.Document.Json.Number
import Wiring.Document.Json.Text

/-!
# Tokens of JSON text

Brackets, colons, commas, quoted text and the other scalars, with blanks between them left out.
-/

namespace Wiring.Json

/-- A token. Quoted text is apart from the other scalars, as only it can name a field. -/
inductive Token where
  | openList
  | closeList
  | openRecord
  | closeRecord
  | colon
  | comma
  | text (s : Scalar)
  | atom (v : Value)
deriving DecidableEq, Repr

/-- The blanks of JSON. -/
def isBlank (c : Char) : Bool :=
  c == ' ' || c == '\n' || c == '\t' || c == '\r'

/-- Text without the blanks at its head. -/
def skipBlanks (cs : List Char) : List Char :=
  cs.dropWhile isBlank

/-- The token at the head and what follows it. -/
def token? : List Char → Option (Token × List Char)
  | '[' :: cs => some (.openList, cs)
  | ']' :: cs => some (.closeList, cs)
  | '{' :: cs => some (.openRecord, cs)
  | '}' :: cs => some (.closeRecord, cs)
  | ':' :: cs => some (.colon, cs)
  | ',' :: cs => some (.comma, cs)
  | '"' :: cs => (text? cs).map (fun p => (.text p.1, p.2))
  | 'n' :: 'u' :: 'l' :: 'l' :: cs => some (.atom .null, cs)
  | 't' :: 'r' :: 'u' :: 'e' :: cs => some (.atom (.bool true), cs)
  | 'f' :: 'a' :: 'l' :: 's' :: 'e' :: cs => some (.atom (.bool false), cs)
  | cs => (number? cs).map (fun p => (.atom p.1, p.2))

theorem token?_lt {cs : List Char} {p : Token × List Char} (h : token? cs = some p) :
    p.2.length < cs.length := by
  unfold token? at h
  split at h
  case h_7 =>
    obtain ⟨q, hq, rfl⟩ := Option.map_eq_some_iff.1 h
    have := text?_lt hq
    simp only [List.length_cons]
    omega
  case h_11 =>
    obtain ⟨q, hq, rfl⟩ := Option.map_eq_some_iff.1 h
    exact number?_lt hq
  all_goals
    obtain rfl := Option.some.inj h
    simp only [List.length_cons]
    omega

theorem skipBlanks_le (cs : List Char) : (skipBlanks cs).length ≤ cs.length :=
  (List.dropWhile_sublist isBlank).length_le

end Wiring.Json
