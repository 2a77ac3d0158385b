import CeylonFromJava.Java.Tree

/-! Expressions that denote the same operand.

Parentheses do not count. Names, literals, operators and types must agree exactly. A creation or an
assignment makes something new each time it runs, so it is never the same as anything, itself
included. -/
namespace CeylonFromJava.Java
set_option autoImplicit false

mutual
def Expr.sameStructure : Expr → Expr → Bool
  | .paren a, b => a.sameStructure b
  | .literal a, b =>
    match b.unparenthesized with
    | .literal b => a == b
    | _ => false
  | .name a, b =>
    match b.unparenthesized with
    | .name b => a == b
    | _ => false
  | .thisRef, b =>
    match b.unparenthesized with
    | .thisRef => true
    | _ => false
  | .superRef, b =>
    match b.unparenthesized with
    | .superRef => true
    | _ => false
  | .field target m, b =>
    match b.unparenthesized with
    | .field target' n => m == n && target.sameStructure target'
    | _ => false
  | .call target typeArgs m args, b =>
    match b.unparenthesized with
    | .call target' typeArgs' n args' =>
      m == n && typeArgs == typeArgs' && Expr.sameOption target target' &&
        Expr.sameList args args'
    | _ => false
  | .index array i, b =>
    match b.unparenthesized with
    | .index array' j => array.sameStructure array' && i.sameStructure j
    | _ => false
  | .unary op operand, b =>
    match b.unparenthesized with
    | .unary op' operand' => op == op' && operand.sameStructure operand'
    | _ => false
  | .binary left op right, b =>
    match b.unparenthesized with
    | .binary left' op' right' =>
      op == op' && left.sameStructure left' && right.sameStructure right'
    | _ => false
  | .instanceOf operand ty, b =>
    match b.unparenthesized with
    | .instanceOf operand' ty' => ty == ty' && operand.sameStructure operand'
    | _ => false
  | .cast ty operand, b =>
    match b.unparenthesized with
    | .cast ty' operand' => ty == ty' && operand.sameStructure operand'
    | _ => false
  | .conditional cond then' otherwise, b =>
    match b.unparenthesized with
    | .conditional cond' then'' otherwise' =>
      cond.sameStructure cond' && then'.sameStructure then'' && otherwise.sameStructure otherwise'
    | _ => false
  | .create _ _ _, _ | .createArray _ _ _ _, _ | .arrayInit _, _ | .assign _ _ _, _ => false
termination_by structural e => e

def Expr.sameOption : Option Expr → Option Expr → Bool
  | none, none => true
  | some a, some b => a.sameStructure b
  | _, _ => false
termination_by structural e => e

def Expr.sameList : List Expr → List Expr → Bool
  | [], [] => true
  | a :: as, b :: bs => a.sameStructure b && Expr.sameList as bs
  | _, _ => false
termination_by structural e => e
end

end CeylonFromJava.Java
