import CeylonFromJava.Text.Lowercase

/-! Ceylon identifiers: reserved words, the marker that makes any word an identifier with a small
initial, and the property names of accessor methods. -/
namespace CeylonFromJava.Ceylon
set_option autoImplicit false

namespace Name

/-- In front of a word, makes it an identifier with a small initial. -/
def marker : String := "\\i"

/-- Words that are no identifiers. -/
def reservedWords : List String :=
  ["assembly", "abstracts", "alias", "assert", "assign", "break", "case", "catch", "class",
   "continue", "dynamic", "else", "exists", "extends", "finally", "for", "function", "given", "if",
   "import", "in", "interface", "is", "module", "nonempty", "object", "of", "out", "outer",
   "package", "return", "satisfies", "super", "switch", "then", "this", "throw", "try", "value",
   "void", "while"]

def isReserved (name : String) : Bool := reservedWords.contains name

/-- Whether a name has a first character and that is not small. -/
def startsLarge (name : String) : Bool :=
  match name.toList with
  | [] => false
  | c :: _ => !Text.isLowercase c

/-- A name where any identifier may stand. -/
def word (name : String) : String :=
  if isReserved name then marker ++ name else name

/-- A name where an identifier with a small initial must stand: attributes, methods, values. -/
def small (name : String) : String :=
  if isReserved name || startsLarge name then marker ++ name else name

/-- What follows `get`, or else what follows `is`. -/
def accessorSuffix : List Char → Option (List Char)
  | 'g' :: 'e' :: 't' :: rest => some rest
  | 'i' :: 's' :: rest => some rest
  | _ => none

/-- The property that an accessor method reads: `getName` and `isName` read `name`. The first letter
must be a plain capital and the others plain letters, digits or low lines. -/
def property (method : String) : Option String :=
  match accessorSuffix method.toList with
  | some (c :: rest) =>
    if c.isUpper && rest.all fun d => d.isAlphanum || d == '_' then
      some (String.ofList (c.toLower :: rest))
    else none
  | _ => none

end Name

end CeylonFromJava.Ceylon
