import CeylonFromJava.Java.Tree

/-! Anonymous classes in expressions. Without one, an expression holds no statements. -/
namespace CeylonFromJava.Java
set_option autoImplicit false

mutual
/-- Whether an anonymous class has its body in the expression. -/
def Expr.hasBody : Expr → Bool
  | .literal _ | .name _ | .thisRef | .superRef => false
  | .paren e | .field e _ | .unary _ e | .instanceOf e _ | .cast _ e => e.hasBody
  | .call target _ _ args => Expr.hasBodyOption target || Expr.hasBodyList args
  | .create _ args body => body.isSome || Expr.hasBodyList args
  | .createArray _ dims _ none => Expr.hasBodyList dims
  | .createArray _ dims _ (some elements) => Expr.hasBodyList dims || Expr.hasBodyList elements
  | .arrayInit elements => Expr.hasBodyList elements
  | .index a b | .assign a _ b | .binary a _ b => a.hasBody || b.hasBody
  | .conditional a b c => a.hasBody || b.hasBody || c.hasBody

def Expr.hasBodyOption : Option Expr → Bool
  | none => false
  | some e => e.hasBody

def Expr.hasBodyList : List Expr → Bool
  | [] => false
  | e :: es => e.hasBody || Expr.hasBodyList es
end

end CeylonFromJava.Java
