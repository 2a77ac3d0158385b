/-! What a run of the command needs from the system around it. -/
namespace CeylonFromJava.Cli
set_option autoImplicit false

/-- Why the system refuses to open, read or make something. -/
inductive FileError where
  | missing
  | exists
  | notDirectory
  | isDirectory
  | notText
  | other (message : String)
  deriving DecidableEq, Repr

def FileError.message : FileError → String
  | .missing => "No such file or directory (os error 2)"
  | .exists => "File exists (os error 17)"
  | .notDirectory => "Not a directory (os error 20)"
  | .isDirectory => "Is a directory (os error 21)"
  | .notText => "stream did not contain valid UTF-8"
  | .other message => message

/-- How much a log line matters. -/
inductive Severity where
  | warning
  | progress
  deriving DecidableEq, Repr

/-- Files, the standard streams, and a log. -/
class Host (m : Type → Type) where
  isFile (path : String) : m Bool
  readFile (path : String) : m (Except FileError String)
  /-- Makes a directory and those above it; one that is there already is fine. -/
  makeDirectories (path : String) : m (Except FileError Unit)
  /-- Makes an empty file, or empties one. -/
  createFile (path : String) : m (Except FileError Unit)
  /-- Writes a text into a file just made. -/
  writeFile (path text : String) : m (Except FileError Unit)
  readInput : m (Except FileError String)
  print (text : String) : m (Except FileError Unit)
  log (severity : Severity) (text : String) : m Unit

end CeylonFromJava.Cli
