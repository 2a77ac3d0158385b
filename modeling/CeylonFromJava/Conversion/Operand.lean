import CeylonFromJava.Java.Tree
import CeylonFromJava.Text.Alphabetic
import CeylonFromJava.Text.SmallForm

/-! Properties of Java expressions that decide how they are written as operands. -/
namespace CeylonFromJava.Conversion
set_option autoImplicit false

open Java

/-- The console of the standard library, as a dotted name or as a field. -/
def isSystemOut (e : Expr) : Bool :=
  match e.unparenthesized with
  | .name name => name == "System.out"
  | .field target name =>
    name == "out" && match target.unparenthesized with
      | .name owner => owner == "System"
      | _ => false
  | _ => false

/-- A single identifier, which an existence test can narrow as it stands. -/
def isSimpleName (e : Expr) : Bool :=
  match e.unparenthesized with
  | .name name => !name.toList.contains '.'
  | .thisRef => true
  | _ => false

/-- Whether running the expression twice does the same as running it once. -/
def isPure : Expr → Bool
  | .literal _ | .name _ | .thisRef | .superRef => true
  | .paren e | .field e _ | .cast _ e | .instanceOf e _ => isPure e
  | .index a b | .binary a _ b => isPure a && isPure b
  | .unary op e => !op.isIncrement && isPure e
  | .conditional a b c => isPure a && isPure b && isPure c
  | .call _ _ _ _ | .create _ _ _ | .createArray _ _ _ _ | .arrayInit _ | .assign _ _ _ => false

/-- The sign that an operand of a prefix operator starts with when it is written. -/
def leadingSign : Expr → Option Char
  | .unary op operand =>
    match op with
    | .plus | .preIncrement => some '+'
    | .minus | .preDecrement => some '-'
    | .not => none
    | .complement | .postIncrement | .postDecrement => leadingSign operand
  | .cast _ operand => leadingSign operand
  | .literal (.number text) =>
    match text.toList with
    | '+' :: _ => some '+'
    | '-' :: _ => some '-'
    | _ => none
  | _ => none

/-- The first word of an expression as it is written, parentheses and casts left aside. -/
def leftmostToken : Expr → Option String
  | .paren e | .cast _ e | .instanceOf e _ | .unary _ e | .field e _ | .index e _ | .binary e _ _
  | .assign e _ _ | .conditional e _ _ => leftmostToken e
  | .call (some target) _ _ _ => leftmostToken target
  | .call none _ name _ | .name name => some name
  | .thisRef => some "this"
  | .superRef => some "super"
  | .create ty _ _ => ty.head?.map (·.name)
  | .createArray _ _ _ _ | .arrayInit _ => none
  | .literal (.number text) | .literal (.char text) | .literal (.string text) => some text
  | .literal .null | .literal (.bool _) => none

/-- The name that an existence test binds to a compound expression: its first letter, small. -/
def bindingName (e : Expr) : String :=
  match (leftmostToken e).map String.toList with
  | some (c :: _) =>
    if Text.isAlphabetic c || c == '_' then String.ofList (Text.toLowercase c) else "x"
  | _ => "x"

end CeylonFromJava.Conversion
