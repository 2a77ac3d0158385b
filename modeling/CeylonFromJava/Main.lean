import CeylonFromJava.Cli.Command

/-! The command line program: the system's files and streams as a host, and the exit codes. -/
namespace CeylonFromJava.Cli
set_option autoImplicit false

/-- The system itself; the environment says whether progress is logged. -/
abbrev OperatingSystem := ReaderT Bool IO

def FileError.ofSystem : IO.Error → FileError
  | .noFileOrDirectory _ _ _ => .missing
  | .alreadyExists _ _ _ => .exists
  | .inappropriateType _ code _ => if code = 21 then .isDirectory else .notDirectory
  | e => .other (toString e)

/-- Carries out an action of the system, with its refusal as a value. -/
def attempt {α : Type} (act : IO α) : OperatingSystem (Except FileError α) := do
  try
    return .ok (← act)
  catch e => return .error (.ofSystem e)

/-- Text from bytes, which have to be UTF-8. -/
def decodeText (act : IO ByteArray) : OperatingSystem (Except FileError String) := do
  match ← attempt act with
  | .error e => return .error e
  | .ok bytes =>
    match String.fromUTF8? bytes with
    | some text => return .ok text
    | none => return .error .notText

instance : Host OperatingSystem where
  isFile path := do
    try
      return (← (← IO.FS.realPath path).metadata).type == .file
    catch _ => return false
  readFile path := decodeText (IO.FS.readBinFile path)
  makeDirectories path := attempt (IO.FS.createDirAll path)
  createFile path := attempt (IO.FS.writeFile path "")
  writeFile path text := attempt (IO.FS.writeFile path text)
  readInput := decodeText do (← IO.getStdin).readBinToEnd
  print text := attempt do
    let out ← IO.getStdout
    out.putStr text
    out.flush
  log severity text := do
    match severity with
    | .warning => IO.eprintln ("WARN " ++ text)
    | .progress => if ← read then IO.eprintln ("INFO " ++ text)

/-- Runs the command; the result is its exit code. -/
def runCommand (args : List String) : IO UInt32 := do
  match Request.ofArguments? args with
  | none =>
    IO.eprint usageText
    return 2
  | some .version =>
    IO.print versionText
    return 0
  | some .help =>
    IO.print helpText
    return 0
  | some (.convert options) =>
    let globalPath := Settings.globalPath (← IO.getEnv "XDG_CONFIG_HOME") (← IO.getEnv "HOME")
    match ← (options.run (m := OperatingSystem) globalPath).run.run options.verbose with
    | .ok () => return 0
    | .error cause =>
      IO.eprintln ("error: " ++ cause.message)
      return 1

end CeylonFromJava.Cli

def main (args : List String) : IO UInt32 := CeylonFromJava.Cli.runCommand args
