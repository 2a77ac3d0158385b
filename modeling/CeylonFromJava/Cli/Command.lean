import CeylonFromJava.Cli.Arguments
import CeylonFromJava.Cli.Host
import CeylonFromJava.Cli.Settings
import CeylonFromJava.Conversion.Unit
import CeylonFromJava.Java.Reader

/-! A run of the command: settings are gathered, inputs are read, and what they convert to is
written. A run stops at the first thing that goes wrong. -/
namespace CeylonFromJava.Cli
set_option autoImplicit false

/-- What can go wrong in a run. -/
inductive Failure where
  | readSettings (path : String) (e : FileError)
  | parseSettings (path : String)
  | severalInputs (count : Nat)
  | readInput (e : FileError)
  | readFile (path : String) (e : FileError)
  | parse (path : String) (e : Java.ReadError)
  | inputIntoDirectory
  | noFileName (path : String)
  | create (path : String) (e : FileError)
  | write (path : String) (e : FileError)
  deriving DecidableEq

def Failure.message : Failure → String
  | .readSettings path e => "failed to read config " ++ path ++ ": " ++ e.message
  | .parseSettings path => "failed to parse config " ++ path
  | .severalInputs count =>
    toString count ++ " inputs given; use --out-dir to translate several"
  | .readInput e => "failed to read stdin: " ++ e.message
  | .readFile path e => "failed to read " ++ path ++ ": " ++ e.message
  | .parse path e => "failed to parse " ++ path ++ ": " ++ e.message
  | .inputIntoDirectory => "stdin input cannot be written to an output directory"
  | .noFileName path => "no file name in " ++ path
  | .create path e => "failed to create " ++ path ++ ": " ++ e.message
  | .write path e => "failed to write " ++ path ++ ": failed to write output: " ++ e.message

/-- Where converted units go. -/
inductive Destination where
  | printed
  | file (path : String)
  | directory (path : String)
  deriving DecidableEq, Repr

def Options.destination (o : Options) : Destination :=
  match o.outDir, o.output with
  | some dir, _ => .directory dir
  | none, some path => .file path
  | none, none => .printed

/-- Does an input path stand for the standard input? -/
def isStandardInput (path : String) : Bool := Path.components path == [.name "-"]

/-- The file in a directory that the unit read from `input` goes to. -/
def outputPath (dir input : String) : Except Failure String :=
  if isStandardInput input then .error .inputIntoDirectory
  else
    match Path.stem? input with
    | none => .error (.noFileName input)
    | some stem => .ok (Path.join dir (stem ++ ".ceylon"))

/-- The input of a run that takes one only. -/
def single (inputs : List String) : Except Failure String :=
  match inputs with
  | [input] => .ok input
  | _ => .error (.severalInputs inputs.length)

section
variable {m : Type → Type} [Monad m] [Host m]

/-- Names the failure that a refusal of the system means. -/
def orFail {α : Type} (failure : FileError → Failure) (act : m (Except FileError α)) :
    ExceptT Failure m α :=
  ExceptT.mk do return (← act).mapError failure

/-! ## Settings -/

/-- Reads a settings file that has to be there. -/
def readSettings (path : String) : ExceptT Failure m Settings := do
  let text ← orFail (.readSettings path) (Host.readFile path)
  match Settings.parse? text with
  | none => throw (.parseSettings path)
  | some settings =>
    Host.log (m := m) .progress ("loaded config " ++ path)
    return settings

/-- Reads a settings file if there is one. One that cannot be used is passed over. -/
def readSettingsIfAny (path : String) : m Settings := do
  if ← Host.isFile path then
    match ← (readSettings path).run with
    | .ok settings => return settings
    | .error failure =>
      Host.log .warning ("ignoring config file " ++ path ++ ": " ++ failure.message)
      return .empty
  else return .empty

/-- The user's settings, over them the project's, over them those of a file named on the command
line. -/
def gatherSettings (globalPath explicit : Option String) : ExceptT Failure m Settings := do
  let user ← match globalPath with
    | none => pure .empty
    | some path => readSettingsIfAny (m := m) path
  let project ← readSettingsIfAny (m := m) Settings.projectPath
  let named ← match explicit with
    | none => pure .empty
    | some path => readSettings path
  return (user.merge project).merge named

/-! ## Inputs and outputs -/

def readUnit (input : String) : ExceptT Failure m Java.CompilationUnit := do
  let text ←
    if isStandardInput input then orFail .readInput Host.readInput
    else orFail (.readFile input) (Host.readFile input)
  match Java.readUnit text with
  | .ok u => return u
  | .error e => throw (.parse input e)

def writeUnit (config : Conversion.Config) (path : String) (u : Java.CompilationUnit) :
    ExceptT Failure m Unit := do
  orFail (.create path) (Host.createFile path)
  orFail (.write path) (Host.writeFile path (Conversion.text config u))

/-- Converts one input into a file of a directory. -/
def convertIntoDirectory (config : Conversion.Config) (dir input : String) :
    ExceptT Failure m Unit := do
  let path ← outputPath dir input
  writeUnit config path (← readUnit input)
  Host.log (m := m) .progress ("converted " ++ input ++ " to " ++ path)

def convert (config : Conversion.Config) (inputs : List String) (destination : Destination) :
    ExceptT Failure m Unit := do
  match destination with
  | .directory dir =>
    orFail (.create dir) (Host.makeDirectories dir)
    inputs.forM (convertIntoDirectory config dir)
  | .file path => writeUnit config path (← readUnit (← single inputs))
  | .printed =>
    let u ← readUnit (← single inputs)
    orFail (.write "stdout") (Host.print (Conversion.text config u))

/-- Carries out what a command line asks for. `globalPath` is where the user's settings are. -/
def Options.run (globalPath : Option String) (o : Options) : ExceptT Failure m Unit := do
  let settings ← gatherSettings globalPath o.config
  convert (settings.resolve o.convertGetters o.declareMutable) o.inputs o.destination

end

/-! ## The texts of the command itself -/

def versionText : String := Settings.commandName ++ " 0.2.0\n"

/-- Text of whole lines. -/
def lines (ls : List String) : String := String.join (ls.map (· ++ "\n"))

def usageLine : String := "Usage: java2ceylon [OPTIONS] <INPUTS>..."

def helpText : String :=
  lines [
    "Translate Java ASTs into Ceylon source",
    "",
    usageLine,
    "",
    "Arguments:",
    "  <INPUTS>...  JSON AST files, use - for stdin",
    "",
    "Options:",
    "  -o, --output <OUTPUT>    Output file (stdout if not specified)",
    "      --out-dir <OUT_DIR>  Directory receiving one <stem>.ceylon per input",
    "      --convert-getters    Rewrite zero-argument getFoo()/isFoo() calls to attribute reads",
    "      --declare-mutable    Declare every field, parameter and local as variable",
    "      --config <FILE>      Extra config file, applied after the global and project ones",
    "  -v, --verbose            Log translation progress to stderr",
    "  -h, --help               Print help",
    "  -V, --version            Print version"]

/-- What a command line that is not well formed is answered with. -/
def usageText : String :=
  lines ["error: invalid arguments", "", usageLine, "", "For more information, try '--help'."]

end CeylonFromJava.Cli
