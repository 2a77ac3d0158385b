import CeylonFromJava.Java.Decode
import CeylonFromJava.Text.WhiteSpace

/-! The reader of compilation units passed as JSON text. -/
namespace CeylonFromJava.Java
set_option autoImplicit false

inductive ReadError where
  | empty
  | malformed (fault : Json.Fault)
  deriving DecidableEq

def ReadError.message : ReadError → String
  | .empty => "unsupported input: empty input"
  | .malformed fault => "parse error: " ++ fault.message

/-- Reads a unit; a text of white space only is refused before anything else. -/
def readUnit (text : String) : Except ReadError CompilationUnit :=
  if text.toList.all Text.isWhiteSpace then .error .empty
  else (Json.Decoder.decodeText Decode.unit text).mapError .malformed

/-- The format that `readUnit` reads. -/
def readerLanguage : String := "json"

/-- The file extensions of that format. -/
def readerExtensions : List String := ["json"]

end CeylonFromJava.Java
