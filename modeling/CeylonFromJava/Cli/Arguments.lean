/-! The command line: options, their values, and input paths. -/
namespace CeylonFromJava.Cli
set_option autoImplicit false

structure Options where
  inputs : List String
  output : Option String
  outDir : Option String
  config : Option String
  convertGetters : Bool
  declareMutable : Bool
  verbose : Bool
  deriving DecidableEq, Repr

/-- What the command line asks for. -/
inductive Request where
  | convert (options : Options)
  | version
  | help
  deriving DecidableEq, Repr

/-- An option that takes a value. -/
inductive Setting where
  | output
  | outDir
  | config
  deriving DecidableEq, Repr

/-- An option that takes none. -/
inductive Switch where
  | convertGetters
  | declareMutable
  | verbose
  | version
  | help
  deriving DecidableEq, Repr

namespace Options

def empty : Options := ⟨[], none, none, none, false, false, false⟩

/-- Adds an input. A path is never empty. -/
def addInput (o : Options) (path : String) : Option Options :=
  if path = "" then none else some { o with inputs := o.inputs ++ [path] }

/-- Sets an option, once only. -/
def set (o : Options) (s : Setting) (value : String) : Option Options :=
  if value = "" then none
  else
    match s with
    | .output => if o.output.isSome then none else some { o with output := some value }
    | .outDir => if o.outDir.isSome then none else some { o with outDir := some value }
    | .config => if o.config.isSome then none else some { o with config := some value }

end Options

/-- What comes after an argument: more arguments, the value of an option, or nothing. -/
inductive Next where
  | more (o : Options)
  | value (s : Setting) (o : Options)
  | stop (r : Request)

/-- Turns a switch on, once only. The version and the help are asked for on the spot. -/
def Switch.apply (s : Switch) (o : Options) : Option Next :=
  match s with
  | .convertGetters =>
    if o.convertGetters then none else some (.more { o with convertGetters := true })
  | .declareMutable =>
    if o.declareMutable then none else some (.more { o with declareMutable := true })
  | .verbose => if o.verbose then none else some (.more { o with verbose := true })
  | .version => some (.stop .version)
  | .help => some (.stop .help)

/-- The options by their long names. -/
def longOption? : String → Option (Setting ⊕ Switch)
  | "output" => some (.inl .output)
  | "out-dir" => some (.inl .outDir)
  | "config" => some (.inl .config)
  | "convert-getters" => some (.inr .convertGetters)
  | "declare-mutable" => some (.inr .declareMutable)
  | "verbose" => some (.inr .verbose)
  | "version" => some (.inr .version)
  | "help" => some (.inr .help)
  | _ => none

/-- The options by their letters. -/
def shortOption? : Char → Option (Setting ⊕ Switch)
  | 'o' => some (.inl .output)
  | 'v' => some (.inr .verbose)
  | 'V' => some (.inr .version)
  | 'h' => some (.inr .help)
  | _ => none

/-- The text after two dashes: a name, with or without a value behind an equals sign. -/
def readLong (o : Options) (text : List Char) : Option Next :=
  let name := String.ofList (text.takeWhile (· != '='))
  match longOption? name, text.dropWhile (· != '=') with
  | some (.inl s), [] => some (.value s o)
  | some (.inl s), _ :: value => (o.set s (String.ofList value)).map .more
  | some (.inr s), [] => s.apply o
  | _, _ => none

/-- The text after one dash: letters of switches, then at most one letter of an option with a value.
The value is the rest of the text, without an equals sign in front, or the next argument. -/
def readShort (o : Options) : List Char → Option Next
  | [] => some (.more o)
  | c :: cs =>
    match shortOption? c with
    | none => none
    | some (.inl s) =>
      match cs with
      | [] => some (.value s o)
      | '=' :: value => (o.set s (String.ofList value)).map .more
      | value => (o.set s (String.ofList value)).map .more
    | some (.inr s) =>
      match s.apply o with
      | some (.more o) => readShort o cs
      | result => result

/-- The options of a whole command line must name an input, and one kind of output at most. -/
def Options.request (o : Options) : Option Request :=
  if o.inputs.isEmpty || (o.output.isSome && o.outDir.isSome) then none else some (.convert o)

/-- Reads one argument, with `rest` after it. `waiting` is the option that it is the value of; a
value does not start with a dash, but may be one. After two dashes come inputs only. -/
def readArgument (waiting : Option Setting) (o : Options) (arg : String) (rest : List String) :
    Option Next :=
  match waiting, arg.toList with
  | none, ['-', '-'] =>
    ((rest.foldlM Options.addInput o).bind Options.request).map .stop
  | none, '-' :: '-' :: text => readLong o text
  | none, '-' :: c :: cs => readShort o (c :: cs)
  | none, _ => (o.addInput arg).map .more
  | some _, '-' :: _ :: _ => none
  | some s, _ => (o.set s arg).map .more

/-- Reads arguments from left to right. -/
def readArguments (waiting : Option Setting) (o : Options) : List String → Option Request
  | [] =>
    match waiting with
    | none => o.request
    | some _ => none
  | arg :: rest =>
    match readArgument waiting o arg rest with
    | none => none
    | some (.more o) => readArguments none o rest
    | some (.value s o) => readArguments (some s) o rest
    | some (.stop r) => some r

/-- What a command line asks for; `none` if it is not well formed. -/
def Request.ofArguments? (args : List String) : Option Request := readArguments none .empty args

end CeylonFromJava.Cli
