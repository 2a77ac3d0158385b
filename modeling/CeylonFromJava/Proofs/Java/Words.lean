import CeylonFromJava.Java.Tree

/-! The words of a tree.

Names in expressions may be dotted, so a word may have several identifiers in it. -/
namespace CeylonFromJava.Java
set_option autoImplicit false

/-- A word and where it stands: a name, a field or a method of an expression, or anything else, such as
a declared name, a name in a type or a label. -/
inductive Word where
  | name (text : String)
  | field (text : String)
  | method (text : String)
  | other (text : String)
  deriving DecidableEq

def Word.text : Word → String
  | .name text | .field text | .method text | .other text => text

/-- The parts of a text between points. -/
def segments (s : String) : List String := (s.toList.splitOn '.').map String.ofList

theorem segments_of_not_mem {s : String} (h : '.' ∉ s.toList) : segments s = [s] := by
  simp [segments, List.splitOn_eq_singleton h]

theorem segments_intercalate {xs : List String} (hne : xs ≠ []) (h : ∀ x ∈ xs, '.' ∉ x.toList) :
    segments (String.intercalate "." xs) = xs := by
  have hparts : ∀ cs ∈ xs.map String.toList, '.' ∉ cs := by simpa using h
  have hpoint : ".".toList = ['.'] := rfl
  rw [segments, String.toList_intercalate, hpoint, List.splitOn_intercalate '.' hparts (by simpa)]
  simp

/-! ## Types -/

mutual
def TypeRef.words : TypeRef → List Word
  | .primitive _ => []
  | .classType segments => TypeSegment.wordsList segments
  | .array element _ => element.words

def TypeSegment.wordsList : List TypeSegment → List Word
  | [] => []
  | ⟨name, args⟩ :: segments =>
    .other name :: (TypeArg.wordsList args ++ TypeSegment.wordsList segments)

def TypeArg.words : TypeArg → List Word
  | .exactly ty | .extending ty | .superOf ty => ty.words
  | .unbounded => []

def TypeArg.wordsList : List TypeArg → List Word
  | [] => []
  | arg :: args => arg.words ++ TypeArg.wordsList args
end

def ClassType.words (ty : ClassType) : List Word := TypeSegment.wordsList ty

def TypeParam.words (p : TypeParam) : List Word := .other p.name :: p.bounds.flatMap ClassType.words

def Param.words (p : Param) : List Word := p.ty.words ++ [.other p.name]

/-! ## Trees -/

mutual
def Expr.words : Expr → List Word
  | .literal _ | .thisRef | .superRef => []
  | .name name => [.name name]
  | .paren e | .unary _ e => e.words
  | .cast ty e => ty.words ++ e.words
  | .field e name => e.words ++ [.field name]
  | .call target typeArgs name args =>
    Expr.wordsOption target ++ typeArgs.flatMap TypeRef.words ++ .method name :: Expr.wordsList args
  | .create ty args none => ClassType.words ty ++ Expr.wordsList args
  | .create ty args (some body) => ClassType.words ty ++ Expr.wordsList args ++ Member.wordsList body
  | .createArray element dims _ none => element.words ++ Expr.wordsList dims
  | .createArray element dims _ (some elements) =>
    element.words ++ Expr.wordsList dims ++ Expr.wordsList elements
  | .arrayInit elements => Expr.wordsList elements
  | .index a b | .assign a _ b | .binary a _ b => a.words ++ b.words
  | .instanceOf e ty => e.words ++ ty.words
  | .conditional a b c => a.words ++ b.words ++ c.words

def Expr.wordsOption : Option Expr → List Word
  | none => []
  | some e => e.words

def Expr.wordsList : List Expr → List Word
  | [] => []
  | e :: es => e.words ++ Expr.wordsList es

def Declarator.wordsList : List Declarator → List Word
  | [] => []
  | ⟨name, init⟩ :: ds => .other name :: (Expr.wordsOption init ++ Declarator.wordsList ds)

def ForInit.words : Option ForInit → List Word
  | none => []
  | some (.declare ⟨_, ty, ds⟩) => ty.words ++ Declarator.wordsList ds
  | some (.exprs es) => Expr.wordsList es

def SwitchLabel.wordsList : List SwitchLabel → List Word
  | [] => []
  | .case e :: labels => e.words ++ SwitchLabel.wordsList labels
  | .default :: labels => SwitchLabel.wordsList labels

def SwitchGroup.wordsList : List SwitchGroup → List Word
  | [] => []
  | ⟨labels, body⟩ :: groups =>
    SwitchLabel.wordsList labels ++ Stmt.wordsList body ++ SwitchGroup.wordsList groups

def Resource.wordsList : List Resource → List Word
  | [] => []
  | ⟨ty, name, init⟩ :: rs => ty.words ++ .other name :: init.words ++ Resource.wordsList rs

def CatchClause.wordsList : List CatchClause → List Word
  | [] => []
  | ⟨types, name, body⟩ :: cs =>
    types.flatMap TypeRef.words ++ .other name :: Stmt.wordsList body ++ CatchClause.wordsList cs

def Stmt.words : Stmt → List Word
  | .block body => Stmt.wordsList body
  | .synchronized lock body => lock.words ++ Stmt.wordsList body
  | .localVar ⟨_, ty, ds⟩ => ty.words ++ Declarator.wordsList ds
  | .expr e | .throwValue e => e.words
  | .ifElse cond s otherwise => cond.words ++ s.words ++ Stmt.wordsOption otherwise
  | .whileLoop cond body | .doWhile body cond => cond.words ++ body.words
  | .forLoop init cond update body =>
    ForInit.words init ++ Expr.wordsOption cond ++ Expr.wordsList update ++ body.words
  | .forEach ty name iterable body => ty.words ++ .other name :: iterable.words ++ body.words
  | .switch selector groups => selector.words ++ SwitchGroup.wordsList groups
  | .breakTo label | .continueTo label => label.toList.map .other
  | .empty => []
  | .labeled label body => .other label :: body.words
  | .constructorCall _ args => Expr.wordsList args
  | .returnValue value => Expr.wordsOption value
  | .tryCatch rs body cs last =>
    Resource.wordsList rs ++ Stmt.wordsList body ++ CatchClause.wordsList cs ++ Stmt.wordsBlock last

def Stmt.wordsOption : Option Stmt → List Word
  | none => []
  | some s => s.words

def Stmt.wordsBlock : Option (List Stmt) → List Word
  | none => []
  | some body => Stmt.wordsList body

def Stmt.wordsList : List Stmt → List Word
  | [] => []
  | s :: ss => s.words ++ Stmt.wordsList ss

def Member.words : Member → List Word
  | .field ⟨_, ty, ds⟩ => ty.words ++ Declarator.wordsList ds
  | .method ⟨_, typeParams, result, name, params, body⟩ =>
    typeParams.flatMap TypeParam.words ++ result.toList.flatMap TypeRef.words ++ .other name ::
      params.flatMap Param.words ++ Stmt.wordsBlock body
  | .constructor ⟨_, name, params, body⟩ =>
    .other name :: params.flatMap Param.words ++ Stmt.wordsList body
  | .type decl => decl.words
  | .initializer body => Stmt.wordsList body

def Member.wordsList : List Member → List Word
  | [] => []
  | m :: ms => m.words ++ Member.wordsList ms

def EnumConstant.wordsList : List EnumConstant → List Word
  | [] => []
  | ⟨name, args⟩ :: cs => .other name :: Expr.wordsList args ++ EnumConstant.wordsList cs

def TypeDecl.words : TypeDecl → List Word
  | .ofClass ⟨_, name, typeParams, superclass, interfaces, body⟩ =>
    .other name :: typeParams.flatMap TypeParam.words ++ superclass.toList.flatMap ClassType.words ++
      interfaces.flatMap ClassType.words ++ Member.wordsList body
  | .ofInterface ⟨_, name, typeParams, extended, body⟩ =>
    .other name :: typeParams.flatMap TypeParam.words ++ extended.flatMap ClassType.words ++
      Member.wordsList body
  | .ofEnum ⟨_, name, interfaces, constants, body⟩ =>
    .other name :: interfaces.flatMap ClassType.words ++ EnumConstant.wordsList constants ++
      Member.wordsList body
end

/-! ## Words part by part -/

section

attribute [local simp] Expr.wordsOption Declarator.wordsList SwitchLabel.wordsList
  SwitchGroup.wordsList Resource.wordsList CatchClause.wordsList Stmt.wordsOption Stmt.wordsBlock
  EnumConstant.wordsList

theorem Expr.wordsList_eq (es : List Expr) : Expr.wordsList es = es.flatMap Expr.words := by
  induction es with
  | nil => rfl
  | cons e es ih => rw [Expr.wordsList, ih, List.flatMap_cons]

theorem Declarator.wordsList_eq (ds : List Declarator) :
    Declarator.wordsList ds = ds.flatMap fun d => .other d.name :: Expr.wordsOption d.init := by
  induction ds with
  | nil => rfl
  | cons d ds ih =>
    cases d
    simp [ih]

theorem SwitchLabel.wordsList_eq (labels : List SwitchLabel) :
    SwitchLabel.wordsList labels = labels.flatMap fun
      | .case e => e.words
      | .default => [] := by
  induction labels with
  | nil => rfl
  | cons label labels ih => cases label <;> simp [ih]

theorem Stmt.wordsList_eq (ss : List Stmt) : Stmt.wordsList ss = ss.flatMap Stmt.words := by
  induction ss with
  | nil => rfl
  | cons s ss ih => rw [Stmt.wordsList, ih, List.flatMap_cons]

theorem SwitchGroup.wordsList_eq (groups : List SwitchGroup) :
    SwitchGroup.wordsList groups =
      groups.flatMap fun g => SwitchLabel.wordsList g.labels ++ Stmt.wordsList g.body := by
  induction groups with
  | nil => rfl
  | cons g groups ih =>
    cases g
    simp [ih]

theorem Resource.wordsList_eq (rs : List Resource) :
    Resource.wordsList rs = rs.flatMap fun r => r.ty.words ++ .other r.name :: r.init.words := by
  induction rs with
  | nil => rfl
  | cons r rs ih =>
    cases r
    simp [ih]

theorem CatchClause.wordsList_eq (cs : List CatchClause) :
    CatchClause.wordsList cs = cs.flatMap fun c =>
      c.types.flatMap TypeRef.words ++ .other c.name :: Stmt.wordsList c.body := by
  induction cs with
  | nil => rfl
  | cons c cs ih =>
    cases c
    simp [ih]

theorem Member.wordsList_eq (ms : List Member) : Member.wordsList ms = ms.flatMap Member.words := by
  induction ms with
  | nil => rfl
  | cons m ms ih => rw [Member.wordsList, ih, List.flatMap_cons]

theorem EnumConstant.wordsList_eq (cs : List EnumConstant) :
    EnumConstant.wordsList cs = cs.flatMap fun c => .other c.name :: Expr.wordsList c.args := by
  induction cs with
  | nil => rfl
  | cons c cs ih =>
    cases c
    simp [ih]

end

/-! ## Units -/

def Import.words (i : Import) : List Word :=
  .other i.package :: match i.member with
    | .single name => [.other name]
    | .wildcard => []

def CompilationUnit.words (u : CompilationUnit) : List Word :=
  u.package.toList.map .other ++ u.imports.flatMap Import.words ++ u.types.flatMap TypeDecl.words

/-- The identifiers that occur in a unit. -/
def CompilationUnit.identifiers (u : CompilationUnit) : List String :=
  u.words.flatMap fun w => segments w.text

end CeylonFromJava.Java
