import CeylonFromJava.Java.Tree

/-! How deep loop tails are nested.

The tail of a loop is what it runs at the end of each round: the updates of a counting loop, the
condition of a `do` loop. A tail is made of expressions, but an anonymous class in it can hold loops
with tails of their own. The depth counts a tail with the tails inside it. -/
namespace CeylonFromJava.Java
set_option autoImplicit false

mutual
def Expr.tailDepth : Expr → Nat
  | .literal _ | .name _ | .thisRef | .superRef => 0
  | .paren e | .field e _ | .unary _ e | .instanceOf e _ | .cast _ e => e.tailDepth
  | .call target _ _ args => max (Expr.tailDepthOption target) (Expr.tailDepthList args)
  | .create _ args none => Expr.tailDepthList args
  | .create _ args (some body) => max (Expr.tailDepthList args) (Member.tailDepthList body)
  | .createArray _ dims _ none => Expr.tailDepthList dims
  | .createArray _ dims _ (some elements) =>
    max (Expr.tailDepthList dims) (Expr.tailDepthList elements)
  | .arrayInit elements => Expr.tailDepthList elements
  | .index a b | .assign a _ b | .binary a _ b => max a.tailDepth b.tailDepth
  | .conditional a b c => max a.tailDepth (max b.tailDepth c.tailDepth)

def Expr.tailDepthOption : Option Expr → Nat
  | none => 0
  | some e => e.tailDepth

def Expr.tailDepthList : List Expr → Nat
  | [] => 0
  | e :: es => max e.tailDepth (Expr.tailDepthList es)

def Declarator.tailDepthList : List Declarator → Nat
  | [] => 0
  | ⟨_, init⟩ :: ds => max (Expr.tailDepthOption init) (Declarator.tailDepthList ds)

def ForInit.tailDepth : Option ForInit → Nat
  | none => 0
  | some (.declare ⟨_, _, ds⟩) => Declarator.tailDepthList ds
  | some (.exprs es) => Expr.tailDepthList es

def SwitchLabel.tailDepthList : List SwitchLabel → Nat
  | [] => 0
  | .case e :: labels => max e.tailDepth (SwitchLabel.tailDepthList labels)
  | .default :: labels => SwitchLabel.tailDepthList labels

def SwitchGroup.tailDepthList : List SwitchGroup → Nat
  | [] => 0
  | ⟨labels, body⟩ :: groups =>
    max (max (SwitchLabel.tailDepthList labels) (Stmt.tailDepthList body))
      (SwitchGroup.tailDepthList groups)

def Resource.tailDepthList : List Resource → Nat
  | [] => 0
  | ⟨_, _, init⟩ :: rs => max init.tailDepth (Resource.tailDepthList rs)

def CatchClause.tailDepthList : List CatchClause → Nat
  | [] => 0
  | ⟨_, _, body⟩ :: cs => max (Stmt.tailDepthList body) (CatchClause.tailDepthList cs)

def Stmt.tailDepth : Stmt → Nat
  | .block body => Stmt.tailDepthList body
  | .localVar ⟨_, _, ds⟩ => Declarator.tailDepthList ds
  | .expr e | .throwValue e => e.tailDepth
  | .ifElse cond s none => max cond.tailDepth s.tailDepth
  | .ifElse cond s (some t) => max cond.tailDepth (max s.tailDepth t.tailDepth)
  | .whileLoop cond body => max cond.tailDepth body.tailDepth
  | .doWhile body cond => max body.tailDepth (cond.tailDepth + 1)
  | .forLoop init cond update body =>
    max (max (ForInit.tailDepth init) (Expr.tailDepthOption cond))
      (max (Expr.tailDepthList update + 1) body.tailDepth)
  | .forEach _ _ iterable body => max iterable.tailDepth body.tailDepth
  | .switch selector groups => max selector.tailDepth (SwitchGroup.tailDepthList groups)
  | .breakTo _ | .continueTo _ | .empty => 0
  | .labeled _ body => body.tailDepth
  | .synchronized lock body => max lock.tailDepth (Stmt.tailDepthList body)
  | .constructorCall _ args => Expr.tailDepthList args
  | .returnValue value => Expr.tailDepthOption value
  | .tryCatch rs body cs none =>
    max (Resource.tailDepthList rs) (max (Stmt.tailDepthList body) (CatchClause.tailDepthList cs))
  | .tryCatch rs body cs (some last) =>
    max (max (Resource.tailDepthList rs) (Stmt.tailDepthList body))
      (max (CatchClause.tailDepthList cs) (Stmt.tailDepthList last))

def Stmt.tailDepthList : List Stmt → Nat
  | [] => 0
  | s :: ss => max s.tailDepth (Stmt.tailDepthList ss)

def Member.tailDepth : Member → Nat
  | .field ⟨_, _, ds⟩ => Declarator.tailDepthList ds
  | .method ⟨_, _, _, _, _, none⟩ => 0
  | .method ⟨_, _, _, _, _, some body⟩ => Stmt.tailDepthList body
  | .constructor ⟨_, _, _, body⟩ => Stmt.tailDepthList body
  | .type decl => decl.tailDepth
  | .initializer body => Stmt.tailDepthList body

def Member.tailDepthList : List Member → Nat
  | [] => 0
  | m :: ms => max m.tailDepth (Member.tailDepthList ms)

def EnumConstant.tailDepthList : List EnumConstant → Nat
  | [] => 0
  | ⟨_, args⟩ :: cs => max (Expr.tailDepthList args) (EnumConstant.tailDepthList cs)

def TypeDecl.tailDepth : TypeDecl → Nat
  | .ofClass ⟨_, _, _, _, _, body⟩ => Member.tailDepthList body
  | .ofInterface ⟨_, _, _, _, body⟩ => Member.tailDepthList body
  | .ofEnum ⟨_, _, _, constants, body⟩ =>
    max (EnumConstant.tailDepthList constants) (Member.tailDepthList body)
end

def CompilationUnit.tailDepth (u : CompilationUnit) : Nat :=
  u.types.foldr (fun t n => max t.tailDepth n) 0

end CeylonFromJava.Java
