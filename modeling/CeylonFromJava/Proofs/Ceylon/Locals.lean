import CeylonFromJava.Ceylon.Source

/-! The local values of a tree, in the order in which they are written. -/
namespace CeylonFromJava.Ceylon
set_option autoImplicit false

/-- A local value: its type, its name, and whether it is asserted to have the type. -/
structure Local where
  ty : Ty
  name : String
  asserted : Bool

/-- The line of a local with its initial value: `assert (is T x = e);` or `T x = e;`. -/
def Local.line (l : Local) (isVariable : Bool) (init : Option Expr) (k : Nat) : List Output.Piece :=
  let value := match init with
    | none => []
    | some e => .text " = " :: e.pieces k
  if l.asserted then
    [.text "assert (is ", .text l.ty.text, .text " ", .text l.name] ++ value ++
      [.text ")", .text ";", .newline]
  else
    wordIf isVariable "variable " ++ [.text l.ty.text, .text " ", .text l.name] ++ value ++
      [.text ";", .newline]

mutual
@[simp] def Expr.locals : Expr → List Local
  | .literal _ | .name _ | .thisRef | .superRef => []
  | .paren e | .property e _ | .before _ e | .after e _ | .existence _ _ e | .isType e _ => e.locals
  | .call target _ _ args => Expr.localsOption target ++ Expr.localsList args
  | .instantiate _ args | .array args => Expr.localsList args
  | .object _ args body => Expr.localsList args ++ Member.localsList body
  | .get a b | .assign a _ b | .binary a _ b => a.locals ++ b.locals
  | .set a b c => a.locals ++ b.locals ++ c.locals
  | .update array index _ value => array.locals ++ index.locals ++ value.locals
  | .conditional conditions a b => Condition.localsList conditions ++ a.locals ++ b.locals

@[simp] def Expr.localsOption : Option Expr → List Local
  | none => []
  | some e => e.locals

@[simp] def Expr.localsList : List Expr → List Local
  | [] => []
  | e :: es => e.locals ++ Expr.localsList es

@[simp] def Slot.locals : Slot → List Local
  | .direct e | .bound e => e.locals

@[simp] def Condition.locals : Condition → List Local
  | .isType _ e | .holds e => e.locals

@[simp] def Condition.localsList : List Condition → List Local
  | [] => []
  | c :: cs => c.locals ++ Condition.localsList cs

@[simp] def Stmt.locals : Stmt → List Local
  | .block body => Stmt.localsList body
  | .declare _ ty name init => ⟨ty, name, false⟩ :: Expr.localsOption init
  | .assertType ty name init => ⟨ty, name, true⟩ :: init.locals
  | .expr e | .breakIf e | .throwValue e => e.locals
  | .update array index _ value => array.locals ++ index.locals ++ value.locals
  | .ifElse conditions body otherwise =>
    Condition.localsList conditions ++ Stmt.localsList body ++ otherwise.locals
  | .whileLoop cond body => cond.locals ++ Stmt.localsList body
  | .forIn _ _ iterable body => iterable.locals ++ Stmt.localsList body
  | .breakLoop | .continueLoop => []
  | .switch selector cases otherwise =>
    selector.locals ++ Case.localsList cases ++ Stmt.localsOption otherwise
  | .delegate _ args => Expr.localsList args
  | .returnValue value => Expr.localsOption value
  | .tryCatch resources body catches finally' =>
    Resource.localsList resources ++ Stmt.localsList body ++ Catch.localsList catches ++
      Stmt.localsOption finally'

@[simp] def Stmt.localsOption : Option (List Stmt) → List Local
  | none => []
  | some body => Stmt.localsList body

@[simp] def Stmt.localsList : List Stmt → List Local
  | [] => []
  | s :: ss => s.locals ++ Stmt.localsList ss

@[simp] def Else.locals : Else → List Local
  | .absent => []
  | .block body => Stmt.localsList body
  | .chained conditions body otherwise =>
    Condition.localsList conditions ++ Stmt.localsList body ++ otherwise.locals

@[simp] def Case.localsList : List Case → List Local
  | [] => []
  | ⟨label, body⟩ :: cases => label.locals ++ Stmt.localsList body ++ Case.localsList cases

@[simp] def Resource.localsList : List Resource → List Local
  | [] => []
  | ⟨_, _, init⟩ :: resources => init.locals ++ Resource.localsList resources

@[simp] def Catch.localsList : List Catch → List Local
  | [] => []
  | ⟨_, _, body⟩ :: catches => Stmt.localsList body ++ Catch.localsList catches

@[simp] def Declarator.localsList : List Declarator → List Local
  | [] => []
  | ⟨_, init⟩ :: declarators => Expr.localsOption init ++ Declarator.localsList declarators

@[simp] def Member.locals : Member → List Local
  | .fields _ _ _ declarators => Declarator.localsList declarators
  | .method ⟨_, _, _, _, _, _, _, body⟩ => Stmt.localsOption body
  | .constructor _ _ body | .enumConstructor _ _ body | .statements body => Stmt.localsList body
  | .type decl => decl.locals

@[simp] def Member.localsList : List Member → List Local
  | [] => []
  | m :: ms => m.locals ++ Member.localsList ms

@[simp] def Constant.localsList : List Constant → List Local
  | [] => []
  | ⟨_, args⟩ :: constants => Expr.localsList args ++ Constant.localsList constants

@[simp] def TypeDecl.locals : TypeDecl → List Local
  | .ofClass ⟨_, _, _, _, _, _, _, body⟩ => Member.localsList body
  | .ofInterface ⟨_, _, _, _, body⟩ => Member.localsList body
  | .ofEnumeration ⟨_, _, _, body, constants⟩ =>
    Member.localsList body ++ Constant.localsList constants
end

def Source.locals (s : Source) : List Local := s.types.flatMap TypeDecl.locals

theorem Stmt.localsList_append (ss ss' : List Stmt) :
    Stmt.localsList (ss ++ ss') = Stmt.localsList ss ++ Stmt.localsList ss' := by
  induction ss with
  | nil => rfl
  | cons s ss ih => simp [ih]

theorem Stmt.localsList_singleton (s : Stmt) : Stmt.localsList [s] = s.locals := by
  rw [Stmt.localsList, Stmt.localsList, List.append_nil]

theorem Condition.localsList_append (cs cs' : List Condition) :
    Condition.localsList (cs ++ cs') = Condition.localsList cs ++ Condition.localsList cs' := by
  induction cs with
  | nil => rfl
  | cons c cs ih => simp [ih]

end CeylonFromJava.Ceylon
