import CeylonFromJava.Cli.Path
import CeylonFromJava.Conversion.Config
import CeylonFromJava.Toml.Document

/-! Settings files: what one of them says, how several are laid over each other, and where they are
looked for. -/
namespace CeylonFromJava.Cli
set_option autoImplicit false

/-- What a settings file says. What it leaves open stays as it is below it. -/
structure Settings where
  convertGetters : Option Bool
  declareMutable : Option Bool
  deriving DecidableEq, Repr

namespace Settings

def empty : Settings := ⟨none, none⟩

/-- Lays other settings over these. -/
def merge (lower upper : Settings) : Settings :=
  ⟨upper.convertGetters <|> lower.convertGetters, upper.declareMutable <|> lower.declareMutable⟩

/-- A switch that may be absent. `none` for anything but a truth value. -/
def switch? : Option Toml.Value → Option (Option Bool)
  | none => some none
  | some (.bool b) => some (some b)
  | some _ => none

def ofSwitches (convertGetters declareMutable : Option Toml.Value) : Option Settings := do
  return ⟨← switch? convertGetters, ← switch? declareMutable⟩

/-- The settings of a document, from the value named `translate`: a table with the switches by name,
or a list with the switches in order. A date there holds no switches. -/
def ofDocument (root : Toml.Entries) : Option Settings :=
  match root.find? "translate" with
  | none => some empty
  | some (.table _ entries) =>
    ofSwitches (Toml.Entries.find? entries "convert_getters")
      (Toml.Entries.find? entries "declare_mutable_by_default")
  | some (.array items) => ofSwitches items[0]? items[1]?
  | some (.moment _) => some empty
  | some _ => none

def parse? (text : String) : Option Settings := (Toml.parse? text).bind ofDocument

/-- The switches in force. Those given on the command line can only switch on. -/
def resolve (s : Settings) (convertGetters declareMutable : Bool) : Conversion.Config :=
  ⟨convertGetters || s.convertGetters.getD false, declareMutable || s.declareMutable.getD false⟩

/-- The name that the command goes by. -/
def commandName : String := "java2ceylon"

def fileName : String := "config.toml"

/-- The settings file of a user, under the directory for settings if there is one. -/
def globalPath (configHome home : Option String) : Option String :=
  let base := configHome <|> (home.filter (· != "")).map (Path.join · ".config")
  base.map fun dir => Path.join (Path.join dir commandName) fileName

/-- The settings file of the project in the working directory. -/
def projectPath : String := Path.join ("." ++ commandName) fileName

end Settings

end CeylonFromJava.Cli
