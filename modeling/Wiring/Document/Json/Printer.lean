import Wiring.Document.Json.Text

/-!
# Writing JSON text

Two layouts: one line without blanks, and one entry to a line with two blanks of indentation for
each level. The printers put their text before a given rest.
-/

namespace Wiring.Json

/-- A value without quotes or brackets. A value that cannot be held has no text of its own. -/
def atom : Value → String
  | .null => "null"
  | .bool true => "true"
  | .bool false => "false"
  | .nat n => toString n
  | .int z => toString z
  | .real => "null"
  | .str _ => "null"
  | .nested _ => "null"
  | .unreadable => "null"

/-- A scalar: text in quotes, any other value by itself. -/
def scalar (s : Scalar) (rest : List Char) : List Char :=
  match s.value with
  | .str t => quote t rest
  | v => (atom v).toList ++ rest

mutual
/-- The document on one line. -/
def compact : Document → List Char → List Char
  | .scalar s, rest => scalar s rest
  | .list [], rest => '[' :: ']' :: rest
  | .list (d :: ds), rest => '[' :: compact d (compactItems ds (']' :: rest))
  | .record [], rest => '{' :: '}' :: rest
  | .record ((k, d) :: fs), rest =>
    '{' :: scalar k (':' :: compact d (compactFields fs ('}' :: rest)))

/-- Items, each after a comma. -/
def compactItems : List Document → List Char → List Char
  | [], rest => rest
  | d :: ds, rest => ',' :: compact d (compactItems ds rest)

/-- Fields, each after a comma. -/
def compactFields : List (Scalar × Document) → List Char → List Char
  | [], rest => rest
  | (k, d) :: fs, rest => ',' :: scalar k (':' :: compact d (compactFields fs rest))
end

/-- The end of a line and the indentation of the next. -/
def newline (level : Nat) (rest : List Char) : List Char :=
  '\n' :: (List.replicate (2 * level) ' ' ++ rest)

mutual
/-- The document with one entry to a line. -/
def pretty (level : Nat) : Document → List Char → List Char
  | .scalar s, rest => scalar s rest
  | .list [], rest => '[' :: ']' :: rest
  | .list (d :: ds), rest =>
    '[' :: newline (level + 1)
      (pretty (level + 1) d (prettyItems (level + 1) ds (newline level (']' :: rest))))
  | .record [], rest => '{' :: '}' :: rest
  | .record ((k, d) :: fs), rest =>
    '{' :: newline (level + 1) (scalar k (':' :: ' ' ::
      pretty (level + 1) d (prettyFields (level + 1) fs (newline level ('}' :: rest)))))

/-- Items, each after a comma on a line of its own. -/
def prettyItems (level : Nat) : List Document → List Char → List Char
  | [], rest => rest
  | d :: ds, rest => ',' :: newline level (pretty level d (prettyItems level ds rest))

/-- Fields, each after a comma on a line of its own. -/
def prettyFields (level : Nat) : List (Scalar × Document) → List Char → List Char
  | [], rest => rest
  | (k, d) :: fs, rest =>
    ',' :: newline level (scalar k (':' :: ' ' :: pretty level d (prettyFields level fs rest)))
end

end Wiring.Json

namespace Wiring.Document

/-- JSON text on one line. -/
def toJson (d : Document) : String :=
  String.ofList (Json.compact d [])

/-- JSON text with one entry to a line. -/
def toPrettyJson (d : Document) : String :=
  String.ofList (Json.pretty 0 d [])

end Wiring.Document
