import CeylonFromJava.Java.Tree

/-! Where a `continue` may stand: inside a loop of the same method, constructor or initializer.

The body of an anonymous class starts anew, wherever the class stands. The loops around the expression
it is in do not count. -/
namespace CeylonFromJava.Java
set_option autoImplicit false

mutual
/-- Whether each `continue` in the anonymous classes of an expression has a loop of its own. -/
def Expr.continuesBound : Expr → Bool
  | .literal _ | .name _ | .thisRef | .superRef => true
  | .paren e | .field e _ | .unary _ e | .instanceOf e _ | .cast _ e => e.continuesBound
  | .call target _ _ args => Expr.continuesBoundOption target && Expr.continuesBoundList args
  | .create _ args none => Expr.continuesBoundList args
  | .create _ args (some body) => Expr.continuesBoundList args && Member.continuesBoundList body
  | .createArray _ dims _ none => Expr.continuesBoundList dims
  | .createArray _ dims _ (some elements) =>
    Expr.continuesBoundList dims && Expr.continuesBoundList elements
  | .arrayInit elements => Expr.continuesBoundList elements
  | .index a b | .assign a _ b | .binary a _ b => a.continuesBound && b.continuesBound
  | .conditional a b c => a.continuesBound && b.continuesBound && c.continuesBound

def Expr.continuesBoundOption : Option Expr → Bool
  | none => true
  | some e => e.continuesBound

def Expr.continuesBoundList : List Expr → Bool
  | [] => true
  | e :: es => e.continuesBound && Expr.continuesBoundList es

def Declarator.continuesBoundList : List Declarator → Bool
  | [] => true
  | ⟨_, init⟩ :: ds => Expr.continuesBoundOption init && Declarator.continuesBoundList ds

def ForInit.continuesBound : Option ForInit → Bool
  | none => true
  | some (.declare ⟨_, _, ds⟩) => Declarator.continuesBoundList ds
  | some (.exprs es) => Expr.continuesBoundList es

def SwitchLabel.continuesBoundList : List SwitchLabel → Bool
  | [] => true
  | .case e :: labels => e.continuesBound && SwitchLabel.continuesBoundList labels
  | .default :: labels => SwitchLabel.continuesBoundList labels

def SwitchGroup.continuesBoundList : List SwitchGroup → Bool → Bool
  | [], _ => true
  | ⟨labels, body⟩ :: groups, inLoop =>
    SwitchLabel.continuesBoundList labels && Stmt.continuesBoundList body inLoop &&
      SwitchGroup.continuesBoundList groups inLoop

def Resource.continuesBoundList : List Resource → Bool
  | [] => true
  | ⟨_, _, init⟩ :: rs => init.continuesBound && Resource.continuesBoundList rs

def CatchClause.continuesBoundList : List CatchClause → Bool → Bool
  | [], _ => true
  | ⟨_, _, body⟩ :: cs, inLoop =>
    Stmt.continuesBoundList body inLoop && CatchClause.continuesBoundList cs inLoop

/-- Whether each `continue` of a statement has a loop around it; `inLoop` says that the statement
itself is in one. -/
def Stmt.continuesBound : Stmt → Bool → Bool
  | .block body, inLoop => Stmt.continuesBoundList body inLoop
  | .localVar ⟨_, _, ds⟩, _ => Declarator.continuesBoundList ds
  | .expr e, _ | .throwValue e, _ => e.continuesBound
  | .ifElse cond s otherwise, inLoop =>
    cond.continuesBound && s.continuesBound inLoop && Stmt.continuesBoundOption otherwise inLoop
  | .whileLoop cond body, _ => cond.continuesBound && body.continuesBound true
  | .doWhile body cond, _ => body.continuesBound true && cond.continuesBound
  | .forLoop init cond update body, _ =>
    ForInit.continuesBound init && Expr.continuesBoundOption cond &&
      Expr.continuesBoundList update && body.continuesBound true
  | .forEach _ _ iterable body, _ => iterable.continuesBound && body.continuesBound true
  | .switch selector groups, inLoop =>
    selector.continuesBound && SwitchGroup.continuesBoundList groups inLoop
  | .breakTo _, _ | .empty, _ => true
  | .continueTo _, inLoop => inLoop
  | .labeled _ body, inLoop => body.continuesBound inLoop
  | .synchronized lock body, inLoop =>
    lock.continuesBound && Stmt.continuesBoundList body inLoop
  | .constructorCall _ args, _ => Expr.continuesBoundList args
  | .returnValue value, _ => Expr.continuesBoundOption value
  | .tryCatch rs body cs last, inLoop =>
    Resource.continuesBoundList rs && Stmt.continuesBoundList body inLoop &&
      CatchClause.continuesBoundList cs inLoop && Stmt.continuesBoundBlock last inLoop

def Stmt.continuesBoundOption : Option Stmt → Bool → Bool
  | none, _ => true
  | some s, inLoop => s.continuesBound inLoop

def Stmt.continuesBoundBlock : Option (List Stmt) → Bool → Bool
  | none, _ => true
  | some body, inLoop => Stmt.continuesBoundList body inLoop

def Stmt.continuesBoundList : List Stmt → Bool → Bool
  | [], _ => true
  | s :: ss, inLoop => s.continuesBound inLoop && Stmt.continuesBoundList ss inLoop

/-- The bodies of members are in no loop. -/
def Member.continuesBound : Member → Bool
  | .field ⟨_, _, ds⟩ => Declarator.continuesBoundList ds
  | .method ⟨_, _, _, _, _, body⟩ => Stmt.continuesBoundBlock body false
  | .constructor ⟨_, _, _, body⟩ => Stmt.continuesBoundList body false
  | .type decl => decl.continuesBound
  | .initializer body => Stmt.continuesBoundList body false

def Member.continuesBoundList : List Member → Bool
  | [] => true
  | m :: ms => m.continuesBound && Member.continuesBoundList ms

def EnumConstant.continuesBoundList : List EnumConstant → Bool
  | [] => true
  | ⟨_, args⟩ :: cs => Expr.continuesBoundList args && EnumConstant.continuesBoundList cs

def TypeDecl.continuesBound : TypeDecl → Bool
  | .ofClass ⟨_, _, _, _, _, body⟩ => Member.continuesBoundList body
  | .ofInterface ⟨_, _, _, _, body⟩ => Member.continuesBoundList body
  | .ofEnum ⟨_, _, _, constants, body⟩ =>
    EnumConstant.continuesBoundList constants && Member.continuesBoundList body
end

/-- Whether each `continue` of a unit is inside a loop of the body it belongs to. -/
def CompilationUnit.continuesBound (u : CompilationUnit) : Bool :=
  u.types.all TypeDecl.continuesBound

end CeylonFromJava.Java
