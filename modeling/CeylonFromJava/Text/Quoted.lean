import CeylonFromJava.Text.GraphemeExtend
import CeylonFromJava.Text.Unprintable

/-! Quoted text for messages: printable characters as they stand, the usual short escapes, and the
code point in hexadecimal for everything else. -/
namespace CeylonFromJava.Text
set_option autoImplicit false

/-- The code point of `c` between braces, as `\u` writes it. -/
def codePointEscape (c : Char) : String :=
  "\\u\x7b" ++ String.ofList (Nat.toDigits 16 c.toNat) ++ "\x7d"

/-- Whether `c` is a mark that would join the character before it. The halfwidth sound marks of
Katakana extend that character too, but stand beside it. -/
def joinsPrevious (c : Char) : Bool :=
  isGraphemeExtend c && !(c == '\uff9e' || c == '\uff9f')

/-- A character between double quotes. A mark that would join the character before it is written
as its code point, printable or not. -/
def quotedChar (c : Char) : String :=
  match c with
  | '"' => "\\\""
  | '\\' => "\\\\"
  | '\n' => "\\n"
  | '\r' => "\\r"
  | '\t' => "\\t"
  | '\x00' => "\\0"
  | c => if joinsPrevious c || isUnprintable c then codePointEscape c else c.toString

def quoted (s : String) : String :=
  "\"" ++ String.join (s.toList.map quotedChar) ++ "\""

end CeylonFromJava.Text
