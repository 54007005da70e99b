import Wiring.Document.Yaml.Token

/-!
# Writing YAML text

Lists and records are written in lines, a list not further in than the record around it. Text is
written plain if it reads back as the same text, and otherwise in single quotes. Text with
characters that cannot stand for themselves is written in double quotes, with escapes for them.
-/

namespace Wiring.Yaml

/-- Characters that cannot begin plain text. -/
def quotedStarts : List Char :=
  ['#', ',', '[', ']', '\x7b', '\x7d', '&', '*', '!', '|', '>', '\'', '"', '%', '@', '\x60']

/-- Whether a colon before a gap, or a number sign behind one, stands in the text. -/
def hasSeparator : List Char → Bool
  | [] => false
  | c :: cs =>
    (c == ':' && opensGap cs) || (isBlank c && cs.head? == some '#') || hasSeparator cs

/-- Whether a character can stand for itself: no control, no line end, no byte order mark and
neither of the two numbers at the end of the basic plane that are no characters. -/
def isPrintable (c : Char) : Bool :=
  let n := c.toNat
  (0x20 ≤ n && n ≤ 0x7e) ||
    (0xa0 ≤ n && !([0x2028, 0x2029, 0xfeff, 0xfffe, 0xffff].contains n))

/-- Whether the characters of a text let it be plain. -/
def isPlainText (cs : List Char) : Bool :=
  match cs with
  | [] => false
  | c :: rest =>
    !quotedStarts.contains c && !((c == '-' || c == '?') && opensGap rest) && !hasSeparator cs &&
      c != ' ' && cs.getLast? != some ' ' &&
      !(['-', '-', '-'].isPrefixOf cs) && !(['.', '.', '.'].isPrefixOf cs)

/-- Whether a text reads back as the same text when it is plain. -/
def isPlain (s : String) : Bool :=
  plainValue s == .str s && !isPadded s.toList && isPlainText s.toList && s.toList.all isPrintable

/-- A character in single quotes: the quote itself stands twice. -/
def singleQuotedChar (c : Char) : List Char :=
  if c = '\'' then ['\'', '\''] else [c]

/-- Text in single quotes. -/
def singleQuoted (s : String) : String :=
  String.ofList ('\'' :: s.toList.flatMap singleQuotedChar ++ ['\''])

/-- The digits of a number to the base sixteen in upper case, with zeros in front up to a width. -/
def hexDigits (width n : Nat) : List Char :=
  let ds := (Nat.toDigits 16 n).map Char.toUpper
  List.replicate (width - ds.length) '0' ++ ds

/-- The escape of a character: a letter if it has one, and otherwise its number. -/
def escaped (c : Char) : List Char :=
  let n := c.toNat
  match Scan.escapes.find? (fun e => e.2 == n) with
  | some (letter, _) => ['\\', letter]
  | none =>
    if n ≤ 0xff then '\\' :: 'x' :: hexDigits 2 n
    else if n ≤ 0xffff then '\\' :: 'u' :: hexDigits 4 n
    else '\\' :: 'U' :: hexDigits 8 n

/-- A character in double quotes. -/
def doubleQuotedChar (c : Char) : List Char :=
  if isPrintable c && c != '"' && c != '\\' then [c] else escaped c

/-- Text in double quotes. -/
def doubleQuoted (s : String) : String :=
  String.ofList ('"' :: s.toList.flatMap doubleQuotedChar ++ ['"'])

/-- Text in the first way of writing that it allows. -/
def written (s : String) : String :=
  if isPlain s then s
  else if s.toList.all isPrintable then singleQuoted s
  else doubleQuoted s

/-- A scalar. -/
def scalarText (s : Scalar) : String :=
  match s.value with
  | .null => "null"
  | .bool true => "true"
  | .bool false => "false"
  | .nat n => toString n
  | .int z => toString z
  | .real => "null"
  | .str t => written t
  | .nested _ => "null"
  | .unreadable => "null"

/-- The blanks before a line. -/
def margin (level : Nat) : String :=
  String.ofList (List.replicate (2 * level) ' ')

/-- The name of a field up to its value; a long one stands on a line of its own. -/
def nameText (level : Nat) (k : Scalar) : String :=
  let t := scalarText k
  if (match k.value with | .str s => s.utf8ByteSize | _ => t.utf8ByteSize) ≤ 128 then t ++ ":"
  else "? " ++ t ++ "\n" ++ margin level ++ ":"

mutual
/-- The lines of a document at a level, the first without its margin. -/
def block (level : Nat) : Document → String
  | .scalar s => scalarText s ++ "\n"
  | .list [] => "[]\n"
  | .list (d :: ds) => "- " ++ block (level + 1) d ++ blockItems level ds
  | .record [] => "\x7b\x7d\n"
  | .record ((k, d) :: fs) => nameText level k ++ fieldValue level d ++ blockFields level fs

/-- The lines of further items. -/
def blockItems (level : Nat) : List Document → String
  | [] => ""
  | d :: ds => margin level ++ "- " ++ block (level + 1) d ++ blockItems level ds

/-- The lines of further fields. -/
def blockFields (level : Nat) : List (Scalar × Document) → String
  | [] => ""
  | (k, d) :: fs => margin level ++ nameText level k ++ fieldValue level d ++ blockFields level fs

/-- The value of a field: on its line if it is a scalar or empty, and otherwise on the lines
below. -/
def fieldValue (level : Nat) : Document → String
  | .scalar s => " " ++ scalarText s ++ "\n"
  | .list [] => " []\n"
  | .list (d :: ds) =>
    "\n" ++ margin level ++ "- " ++ block (level + 1) d ++ blockItems level ds
  | .record [] => " \x7b\x7d\n"
  | .record ((k, d) :: fs) =>
    "\n" ++ margin (level + 1) ++ nameText (level + 1) k ++ fieldValue (level + 1) d ++
      blockFields (level + 1) fs
end

end Wiring.Yaml

namespace Wiring.Document

/-- YAML text. -/
def toYaml (d : Document) : String :=
  Yaml.block 0 d

end Wiring.Document
