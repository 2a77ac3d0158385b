import CeylonFromJava.Java.Tree
import CeylonFromJava.Proofs.Output.Brackets

/-! Trees with clean words: no name, type name or literal has brackets or line ends in it.

With `strict`, words also start without a blank, class types have a name, and no array is given by its
elements. Words that are dropped may be anything: labels, types of casts, names of constructors. -/
namespace CeylonFromJava.Java
set_option autoImplicit false

open Output (isClean)

/-! ## Leaves -/

def Literal.clean (strict : Bool) : Literal → Bool
  | .null | .bool _ => true
  | .number text => isClean strict text
  | .char text | .string text => isClean false text

mutual
def TypeRef.clean (strict : Bool) : TypeRef → Bool
  | .primitive _ => true
  | .classType segments => !(strict && segments.isEmpty) && TypeSegment.cleanList strict segments
  | .array element _ => element.clean strict

def TypeSegment.cleanList (strict : Bool) : List TypeSegment → Bool
  | [] => true
  | ⟨name, args⟩ :: segments =>
    isClean strict name && TypeArg.cleanList strict args && TypeSegment.cleanList strict segments

def TypeArg.clean (strict : Bool) : TypeArg → Bool
  | .exactly ty | .extending ty | .superOf ty => ty.clean strict
  | .unbounded => true

def TypeArg.cleanList (strict : Bool) : List TypeArg → Bool
  | [] => true
  | arg :: args => arg.clean strict && TypeArg.cleanList strict args
end

def ClassType.clean (strict : Bool) (ty : ClassType) : Bool := (TypeRef.classType ty).clean strict

def TypeParam.clean (strict : Bool) (p : TypeParam) : Bool :=
  isClean strict p.name && p.bounds.all (ClassType.clean strict)

def Param.clean (strict : Bool) (p : Param) : Bool := p.ty.clean strict && isClean strict p.name

/-! ## Trees -/

mutual
def Expr.clean (strict : Bool) : Expr → Bool
  | .literal value => value.clean strict
  | .name name => isClean strict name
  | .thisRef | .superRef => true
  | .paren e | .unary _ e | .cast _ e => e.clean strict
  | .field e name => e.clean strict && isClean strict name
  | .call target typeArgs name args =>
    Expr.cleanOption strict target && typeArgs.all (TypeRef.clean strict) && isClean strict name &&
      Expr.cleanList strict args
  | .create ty args none => ClassType.clean strict ty && Expr.cleanList strict args
  | .create ty args (some body) =>
    ClassType.clean strict ty && Expr.cleanList strict args && Member.cleanList strict body
  | .createArray element dims _ none => element.clean strict && Expr.cleanList strict dims
  | .createArray _ _ _ (some elements) | .arrayInit elements =>
    !strict && Expr.cleanList strict elements
  | .index a b | .assign a _ b | .binary a _ b => a.clean strict && b.clean strict
  | .instanceOf e ty => e.clean strict && ty.clean strict
  | .conditional a b c => a.clean strict && b.clean strict && c.clean strict

def Expr.cleanOption (strict : Bool) : Option Expr → Bool
  | none => true
  | some e => e.clean strict

def Expr.cleanList (strict : Bool) : List Expr → Bool
  | [] => true
  | e :: es => e.clean strict && Expr.cleanList strict es

def Declarator.cleanList (strict : Bool) : List Declarator → Bool
  | [] => true
  | ⟨name, init⟩ :: ds =>
    isClean strict name && Expr.cleanOption strict init && Declarator.cleanList strict ds

def ForInit.clean (strict : Bool) : Option ForInit → Bool
  | none => true
  | some (.declare ⟨_, ty, ds⟩) => ty.clean strict && Declarator.cleanList strict ds
  | some (.exprs es) => Expr.cleanList strict es

def SwitchLabel.cleanList (strict : Bool) : List SwitchLabel → Bool
  | [] => true
  | .case e :: labels => e.clean strict && SwitchLabel.cleanList strict labels
  | .default :: labels => SwitchLabel.cleanList strict labels

def SwitchGroup.cleanList (strict : Bool) : List SwitchGroup → Bool
  | [] => true
  | ⟨labels, body⟩ :: groups =>
    SwitchLabel.cleanList strict labels && Stmt.cleanList strict body &&
      SwitchGroup.cleanList strict groups

def Resource.cleanList (strict : Bool) : List Resource → Bool
  | [] => true
  | ⟨ty, name, init⟩ :: rs =>
    ty.clean strict && isClean strict name && init.clean strict && Resource.cleanList strict rs

def CatchClause.cleanList (strict : Bool) : List CatchClause → Bool
  | [] => true
  | ⟨types, name, body⟩ :: cs =>
    types.all (TypeRef.clean strict) && isClean strict name && Stmt.cleanList strict body &&
      CatchClause.cleanList strict cs

def Stmt.clean (strict : Bool) : Stmt → Bool
  | .block body | .synchronized _ body => Stmt.cleanList strict body
  | .localVar ⟨_, ty, ds⟩ => ty.clean strict && Declarator.cleanList strict ds
  | .expr e | .throwValue e => e.clean strict
  | .ifElse cond s otherwise =>
    cond.clean strict && s.clean strict && Stmt.cleanOption strict otherwise
  | .whileLoop cond body | .doWhile body cond => cond.clean strict && body.clean strict
  | .forLoop init cond update body =>
    ForInit.clean strict init && Expr.cleanOption strict cond && Expr.cleanList strict update &&
      body.clean strict
  | .forEach ty name iterable body =>
    ty.clean strict && isClean strict name && iterable.clean strict && body.clean strict
  | .switch selector groups => selector.clean strict && SwitchGroup.cleanList strict groups
  | .breakTo _ | .continueTo _ | .empty => true
  | .labeled _ body => body.clean strict
  | .constructorCall _ args => Expr.cleanList strict args
  | .returnValue value => Expr.cleanOption strict value
  | .tryCatch rs body cs last =>
    Resource.cleanList strict rs && Stmt.cleanList strict body && CatchClause.cleanList strict cs &&
      Stmt.cleanBlock strict last

def Stmt.cleanOption (strict : Bool) : Option Stmt → Bool
  | none => true
  | some s => s.clean strict

def Stmt.cleanBlock (strict : Bool) : Option (List Stmt) → Bool
  | none => true
  | some body => Stmt.cleanList strict body

def Stmt.cleanList (strict : Bool) : List Stmt → Bool
  | [] => true
  | s :: ss => s.clean strict && Stmt.cleanList strict ss

def Member.clean (strict : Bool) : Member → Bool
  | .field ⟨_, ty, ds⟩ => ty.clean strict && Declarator.cleanList strict ds
  | .method ⟨_, typeParams, result, name, params, body⟩ =>
    typeParams.all (TypeParam.clean strict) && result.all (TypeRef.clean strict) &&
      isClean strict name && params.all (Param.clean strict) && Stmt.cleanBlock strict body
  | .constructor ⟨_, _, params, body⟩ =>
    params.all (Param.clean strict) && Stmt.cleanList strict body
  | .type decl => decl.clean strict
  | .initializer body => Stmt.cleanList strict body

def Member.cleanList (strict : Bool) : List Member → Bool
  | [] => true
  | m :: ms => m.clean strict && Member.cleanList strict ms

def EnumConstant.cleanList (strict : Bool) : List EnumConstant → Bool
  | [] => true
  | ⟨name, args⟩ :: cs =>
    isClean strict name && Expr.cleanList strict args && EnumConstant.cleanList strict cs

def TypeDecl.clean (strict : Bool) : TypeDecl → Bool
  | .ofClass ⟨_, name, typeParams, superclass, interfaces, body⟩ =>
    isClean strict name && typeParams.all (TypeParam.clean strict) &&
      superclass.all (ClassType.clean strict) && interfaces.all (ClassType.clean strict) &&
      Member.cleanList strict body
  | .ofInterface ⟨_, name, typeParams, extended, body⟩ =>
    isClean strict name && typeParams.all (TypeParam.clean strict) &&
      extended.all (ClassType.clean strict) && Member.cleanList strict body
  | .ofEnum ⟨_, name, interfaces, constants, body⟩ =>
    isClean strict name && interfaces.all (ClassType.clean strict) &&
      EnumConstant.cleanList strict constants && Member.cleanList strict body
end

/-! ## Lists of trees -/

section

variable {strict : Bool}

theorem Expr.cleanList_eq (es : List Expr) : Expr.cleanList strict es = es.all (Expr.clean strict) := by
  induction es with
  | nil => rfl
  | cons e es ih => rw [Expr.cleanList, ih, List.all_cons]

theorem Declarator.cleanList_eq (ds : List Declarator) :
    Declarator.cleanList strict ds =
      ds.all fun d => isClean strict d.name && Expr.cleanOption strict d.init := by
  induction ds with
  | nil => rfl
  | cons d ds ih =>
    cases d
    rw [Declarator.cleanList, ih, List.all_cons]

theorem SwitchLabel.clean_of_mem {labels : List SwitchLabel}
    (h : SwitchLabel.cleanList strict labels = true) {e : Expr} (he : .case e ∈ labels) :
    e.clean strict = true := by
  induction labels with
  | nil => cases he
  | cons label labels ih =>
    cases label with
    | «case» value =>
      rw [SwitchLabel.cleanList, Bool.and_eq_true] at h
      obtain rfl | he := by simpa using he
      · exact h.1
      · exact ih h.2 he
    | default => exact ih h (by simpa using he)

theorem Stmt.cleanList_eq (ss : List Stmt) : Stmt.cleanList strict ss = ss.all (Stmt.clean strict) := by
  induction ss with
  | nil => rfl
  | cons s ss ih => rw [Stmt.cleanList, ih, List.all_cons]

theorem SwitchGroup.cleanList_eq (groups : List SwitchGroup) :
    SwitchGroup.cleanList strict groups =
      groups.all fun g => SwitchLabel.cleanList strict g.labels && Stmt.cleanList strict g.body := by
  induction groups with
  | nil => rfl
  | cons g groups ih =>
    cases g
    rw [SwitchGroup.cleanList, ih, List.all_cons]

theorem Resource.cleanList_eq (rs : List Resource) :
    Resource.cleanList strict rs =
      rs.all fun r => r.ty.clean strict && isClean strict r.name && r.init.clean strict := by
  induction rs with
  | nil => rfl
  | cons r rs ih =>
    cases r
    rw [Resource.cleanList, ih, List.all_cons]

theorem CatchClause.cleanList_eq (cs : List CatchClause) :
    CatchClause.cleanList strict cs = cs.all fun c =>
      c.types.all (TypeRef.clean strict) && isClean strict c.name && Stmt.cleanList strict c.body := by
  induction cs with
  | nil => rfl
  | cons c cs ih =>
    cases c
    rw [CatchClause.cleanList, ih, List.all_cons]

theorem Member.cleanList_eq (ms : List Member) :
    Member.cleanList strict ms = ms.all (Member.clean strict) := by
  induction ms with
  | nil => rfl
  | cons m ms ih => rw [Member.cleanList, ih, List.all_cons]

theorem EnumConstant.cleanList_eq (cs : List EnumConstant) :
    EnumConstant.cleanList strict cs =
      cs.all fun c => isClean strict c.name && Expr.cleanList strict c.args := by
  induction cs with
  | nil => rfl
  | cons c cs ih =>
    cases c
    rw [EnumConstant.cleanList, ih, List.all_cons]

end

/-! ## Units -/

def ImportMember.clean (strict : Bool) : ImportMember → Bool
  | .single name => isClean strict name
  | .wildcard => true

def Import.clean (strict : Bool) (i : Import) : Bool :=
  isClean strict i.package && i.member.clean strict

def CompilationUnit.clean (strict : Bool) (u : CompilationUnit) : Bool :=
  u.imports.all (Import.clean strict) && u.types.all (TypeDecl.clean strict)

end CeylonFromJava.Java
