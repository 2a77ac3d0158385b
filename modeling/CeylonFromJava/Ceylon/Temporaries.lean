import CeylonFromJava.Ceylon.Tree

/-! How many temporary numbers a tree takes. An element update takes one if its array or its index
is bound first, and the numbers go to the updates in the order in which they are written. -/
namespace CeylonFromJava.Ceylon
set_option autoImplicit false

/-- The number of an update itself. -/
def Slot.ownTemps (array index : Slot) : Nat :=
  if array.isBound || index.isBound then 1 else 0

mutual
def Expr.temps : Expr → Nat
  | .literal _ | .name _ | .thisRef | .superRef => 0
  | .paren e | .property e _ | .before _ e | .after e _ | .existence _ _ e | .isType e _ => e.temps
  | .call target _ _ args => Expr.tempsOption target + Expr.tempsList args
  | .instantiate _ args | .array args => Expr.tempsList args
  | .object _ args body => Expr.tempsList args + Member.tempsList body
  | .get a b | .assign a _ b | .binary a _ b => a.temps + b.temps
  | .set a b c => a.temps + b.temps + c.temps
  | .update array index _ value =>
    Slot.ownTemps array index + array.temps + index.temps + value.temps
  | .conditional conditions a b => Condition.tempsList conditions + a.temps + b.temps

def Expr.tempsOption : Option Expr → Nat
  | none => 0
  | some e => e.temps

def Expr.tempsList : List Expr → Nat
  | [] => 0
  | e :: es => e.temps + Expr.tempsList es

def Slot.temps : Slot → Nat
  | .direct e | .bound e => e.temps

def Condition.temps : Condition → Nat
  | .isType _ e | .holds e => e.temps

def Condition.tempsList : List Condition → Nat
  | [] => 0
  | c :: cs => c.temps + Condition.tempsList cs

def Stmt.temps : Stmt → Nat
  | .block body => Stmt.tempsList body
  | .declare _ _ _ init => Expr.tempsOption init
  | .assertType _ _ e | .expr e | .breakIf e | .throwValue e => e.temps
  | .update array index _ value =>
    Slot.ownTemps array index + array.temps + index.temps + value.temps
  | .ifElse conditions body otherwise =>
    Condition.tempsList conditions + Stmt.tempsList body + otherwise.temps
  | .whileLoop cond body => cond.temps + Stmt.tempsList body
  | .forIn _ _ iterable body => iterable.temps + Stmt.tempsList body
  | .breakLoop | .continueLoop => 0
  | .switch selector cases otherwise =>
    selector.temps + Case.tempsList cases + Stmt.tempsOption otherwise
  | .delegate _ args => Expr.tempsList args
  | .returnValue value => Expr.tempsOption value
  | .tryCatch resources body catches finally' =>
    Resource.tempsList resources + Stmt.tempsList body + Catch.tempsList catches +
      Stmt.tempsOption finally'

def Stmt.tempsOption : Option (List Stmt) → Nat
  | none => 0
  | some body => Stmt.tempsList body

def Stmt.tempsList : List Stmt → Nat
  | [] => 0
  | s :: ss => s.temps + Stmt.tempsList ss

def Else.temps : Else → Nat
  | .absent => 0
  | .block body => Stmt.tempsList body
  | .chained conditions body otherwise =>
    Condition.tempsList conditions + Stmt.tempsList body + otherwise.temps

def Case.tempsList : List Case → Nat
  | [] => 0
  | ⟨label, body⟩ :: cases => label.temps + Stmt.tempsList body + Case.tempsList cases

def Resource.tempsList : List Resource → Nat
  | [] => 0
  | ⟨_, _, init⟩ :: resources => init.temps + Resource.tempsList resources

def Catch.tempsList : List Catch → Nat
  | [] => 0
  | ⟨_, _, body⟩ :: catches => Stmt.tempsList body + Catch.tempsList catches

def Declarator.tempsList : List Declarator → Nat
  | [] => 0
  | ⟨_, init⟩ :: declarators => Expr.tempsOption init + Declarator.tempsList declarators

def Member.temps : Member → Nat
  | .fields _ _ _ declarators => Declarator.tempsList declarators
  | .method ⟨_, _, _, _, _, _, _, body⟩ => Stmt.tempsOption body
  | .constructor _ _ body | .enumConstructor _ _ body | .statements body => Stmt.tempsList body
  | .type decl => decl.temps

def Member.tempsList : List Member → Nat
  | [] => 0
  | m :: ms => m.temps + Member.tempsList ms

def Constant.tempsList : List Constant → Nat
  | [] => 0
  | ⟨_, args⟩ :: constants => Expr.tempsList args + Constant.tempsList constants

def TypeDecl.temps : TypeDecl → Nat
  | .ofClass ⟨_, _, _, _, _, _, _, body⟩ => Member.tempsList body
  | .ofInterface ⟨_, _, _, _, body⟩ => Member.tempsList body
  | .ofEnumeration ⟨_, _, _, body, constants⟩ =>
    Member.tempsList body + Constant.tempsList constants
end

end CeylonFromJava.Ceylon
