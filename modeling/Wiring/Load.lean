import Wiring.Document.Json.Reader
import Wiring.Document.Yaml.Reader
import Wiring.Format.Options

/-!
# Facts and options in files

The name of a file tells its format: JSON or YAML.
-/

namespace Wiring

/-- The formats of documents. -/
inductive TextFormat where
  | json
  | yaml
deriving DecidableEq, Repr

namespace TextFormat

/-- The format that an extension stands for. -/
def ofExtension? : String → Option TextFormat
  | "json" => some .json
  | "yaml" => some .yaml
  | "yml" => some .yaml
  | _ => none

/-- The document that a text holds. -/
def read? : TextFormat → String → Option Document
  | .json, text => Json.read? text.toList
  | .yaml, text => Yaml.read? text.toList

/-- Decodes a document from a text in the format. -/
def decode? {α : Type} (f : TextFormat) (dec : Decoder α) (doc : Document) : Option α :=
  match f with
  | .json => dec Json.maxDepth .json doc
  | .yaml => dec Yaml.maxDepth .yaml doc

end TextFormat

/-- The facts in a document from a text in the format. -/
def Facts.ofDocument (f : TextFormat) (doc : Document) : Except Error Facts :=
  match f.decode? Facts.decode doc with
  | some facts => .ok facts
  | none => .error .malformedFacts

/-- The facts that a text holds. -/
def Facts.ofText (f : TextFormat) (text : String) : Except Error Facts :=
  match f.read? text with
  | some doc => Facts.ofDocument f doc
  | none => .error .malformedFacts

/-- The options in a document from a text in the format. -/
def Options.ofDocument (f : TextFormat) (doc : Document) : Except Error Options :=
  match f.decode? Options.decode doc with
  | some o => o.validated
  | none => .error (.config .malformed)

/-- The options that a text holds. -/
def Options.ofText (f : TextFormat) (text : String) : Except Error Options :=
  match f.read? text with
  | some doc => Options.ofDocument f doc
  | none => .error (.config .malformed)

/-! ## Files -/

/-- A file: its name, and its bytes if there is such a file. -/
structure File where
  name : String
  bytes : Option ByteArray

namespace File

/-- The text of the file. -/
def text (f : File) : Except Error String :=
  match f.bytes.bind String.fromUTF8? with
  | some t => .ok t
  | none => .error .unreadableFile

/-- What follows the last point of a name. A point at its start is part of the name. -/
def extensionOf (name : List Char) : Option String :=
  let backward := name.reverse
  match backward.dropWhile (fun c => c != '.') with
  | _ :: before =>
    if before.isEmpty || name == ['.', '.'] then none
    else some (String.ofList (backward.takeWhile (fun c => c != '.')).reverse)
  | [] => none

/-- The extension of the file. -/
def extension (f : File) : Option String :=
  extensionOf (f.name.toList.reverse.takeWhile (fun c => c != '/')).reverse

/-- The extension as messages show it. -/
def shownExtension (f : File) : String :=
  f.extension.getD "<none>"

end File

/-- The facts in a file. -/
def Facts.load (f : File) : Except Error Facts :=
  match f.text with
  | .error e => .error e
  | .ok text =>
    match f.extension.bind TextFormat.ofExtension? with
    | some format => Facts.ofText format text
    | none => .error (.unsupportedFactExtension f.shownExtension)

/-- The options in a file. -/
def Options.load (f : File) : Except Error Options :=
  match f.text with
  | .error e => .error e
  | .ok text =>
    match f.extension.bind TextFormat.ofExtension? with
    | some format => Options.ofText format text
    | none => .error (.config (.unsupportedExtension f.shownExtension))

end Wiring
