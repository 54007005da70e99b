/-!
# Errors

Why an operation can fail, and the message for each cause.
-/

namespace Wiring

/-- Why settings are refused. -/
inductive ConfigError where
  /-- The document is no options record. -/
  | malformed
  /-- The depth limit is out of bounds. -/
  | depthOutOfBounds (depth : Nat)
  /-- A source gives a negative depth limit. -/
  | depthNotPositive (depth : Int)
  /-- A source gives a trace error policy that there is not. -/
  | unknownPolicy (word : String)
  /-- A source gives a value of the wrong kind: what was expected, and the value in words. -/
  | wrongKind (expected : String) (got : String)
  /-- The file is of no known format. -/
  | unsupportedExtension (extension : String)
deriving DecidableEq, Repr

/-- Why an operation fails. -/
inductive Error where
  /-- The operation was cancelled. -/
  | cancelled
  /-- A trace disposes or resolves from a handle that is never created. -/
  | danglingHandle (handle : String) (procedure : String)
  /-- A block names a successor that there is not. -/
  | malformedTrace (procedure : String) (block successor count : Nat)
  /-- The document does not hold what it should. -/
  | malformedFacts
  /-- The file is of no known format. -/
  | unsupportedFactExtension (extension : String)
  | config (cause : ConfigError)
  /-- The file cannot be read as text. -/
  | unreadableFile
deriving DecidableEq, Repr

/-- The message of a refused setting; a document that cannot be decoded has none. -/
def ConfigError.message : ConfigError → Option String
  | .malformed => none
  | .depthOutOfBounds depth =>
    some ("max_resolution_depth must be between 1 and 1024, got " ++ toString depth)
  | .depthNotPositive depth =>
    some ("max_resolution_depth must be positive, got " ++ toString depth)
  | .unknownPolicy word => some ("trace_errors must be 'skip' or 'fail', got '" ++ word ++ "'")
  | .wrongKind expected got => some ("expected " ++ expected ++ ", got " ++ got)
  | .unsupportedExtension extension =>
    some ("unsupported configuration file extension: " ++ extension)

/-- The message of an error; a document or file that cannot be read has none. -/
def Error.message : Error → Option String
  | .cancelled => some "Analysis cancelled"
  | .danglingHandle handle procedure =>
    some ("Dangling handle '" ++ handle ++ "' in procedure " ++ procedure)
  | .malformedTrace procedure block successor count =>
    some ("Malformed trace for procedure " ++ procedure ++ ": block " ++ toString block ++
      " names successor " ++ toString successor ++ " of " ++ toString count)
  | .malformedFacts => none
  | .unsupportedFactExtension extension =>
    some ("Invalid facts: unsupported fact file extension: " ++ extension)
  | .config cause => cause.message.map (fun m => "Configuration error: " ++ m)
  | .unreadableFile => none

end Wiring
