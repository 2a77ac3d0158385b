import CeylonFromJava.Ceylon.Temporaries
import CeylonFromJava.Output.Piece

/-! Ceylon trees laid out as pieces of text.

A tree can be laid out as anything that pieces stand in, with names and temporary values told apart
from other texts; as pieces, they are texts like the others.

Each function takes the number of the next temporary value. A part that is written later starts
where the parts before it end, so the numbers follow the order of the text. -/
namespace CeylonFromJava.Ceylon
set_option autoImplicit false

open Output (Piece HasPieces)
open Output.HasPieces (text newline)
open Java (Literal)

/-! ## Temporary values -/

def arrayRole : String := "array"

def indexRole : String := "index"

/-- What a temporary value stands for. -/
inductive Role where
  | array
  | index
  deriving DecidableEq

def Role.word : Role → String
  | .array => arrayRole
  | .index => indexRole

/-- The temporary value number `n` for an array or an index. -/
def tempName (role : String) (n : Nat) : String := role ++ n.repr

/-! ## What is laid out -/

/-- Beside pieces, a script has the names of expressions and the temporary values of updates. An
update that needs one takes the number `n` for its whole text. -/
class Script (α : Type) extends HasPieces α where
  name : String → α
  binds : Role → Nat → α
  uses : Role → Nat → α
  numbered : Bool → Nat → List α → List α

instance : Script Piece where
  name := .text
  binds role n := .text (tempName role.word n)
  uses role n := .text (tempName role.word n)
  numbered _ _ ps := ps

namespace Script

@[simp] theorem name_eq (word : String) : name word = Piece.text word := rfl

@[simp] theorem binds_eq (role : Role) (n : Nat) :
    binds role n = Piece.text (tempName role.word n) := rfl

@[simp] theorem uses_eq (role : Role) (n : Nat) :
    uses role n = Piece.text (tempName role.word n) := rfl

@[simp] theorem numbered_eq (wanted : Bool) (n : Nat) (ps : List Piece) :
    numbered wanted n ps = ps := rfl

end Script

variable {α : Type} [Script α]

/-! ## Words -/

def literalText : Literal → String
  | .null => "null"
  | .bool true => "true"
  | .bool false => "false"
  | .number text => text
  | .char text => "'" ++ text ++ "'"
  | .string text => "\"" ++ text ++ "\""

/-- A word if it is wanted. -/
def wordIf (wanted : Bool) (word : String) : List α := if wanted then [text word] else []

/-- Type arguments between angle brackets, nothing without them. -/
def typeArgsText : List Ty → String
  | [] => ""
  | types => "<" ++ String.intercalate ", " (types.map Ty.text) ++ ">"

def satisfiesText : List Ty → String
  | [] => ""
  | types => " satisfies " ++ String.intercalate " & " (types.map Ty.text)

def Param.pieces (p : Param) : List α :=
  wordIf p.isVariable "variable " ++ [text p.ty.text] ++ wordIf p.sequenced "*" ++
    [text " ", text p.name]

def paramPieces (params : List Param) : List α :=
  Piece.separated ", " (params.map Param.pieces)

/-! ## Trees -/

mutual
def Expr.pieces : Expr → Nat → List α
  | .literal value, _ => [text (literalText value)]
  | .name word, _ => [Script.name word]
  | .thisRef, _ => [text "this"]
  | .superRef, _ => [text "super"]
  | .paren inner, k => text "(" :: inner.pieces k ++ [text ")"]
  | .property target name, k => target.pieces k ++ [text ".", Script.name name]
  | .call target name typeArgs args, k =>
    Expr.targetPieces target k ++ [Script.name name, text (typeArgsText typeArgs), text "("] ++
      Expr.piecesList args (k + Expr.tempsOption target) ++ [text ")"]
  | .instantiate ty args, k =>
    [text ty.text, text "("] ++ Expr.piecesList args k ++ [text ")"]
  | .object ty [] body, k =>
    [text "object satisfies ", text ty.text, text " "] ++ Piece.braced (Member.piecesList body k)
  | .object ty args body, k =>
    [text "object extends ", text ty.text, text "("] ++ Expr.piecesList args k ++
      text ") " :: Piece.braced (Member.piecesList body (k + Expr.tempsList args))
  | .array [], _ => [text "Array \x7b\x7d"]
  | .array elements, k => text "Array \x7b " :: Expr.piecesList elements k ++ [text " \x7d"]
  | .get array index, k =>
    array.pieces k ++ text ".get(" :: index.pieces (k + array.temps) ++ [text ")"]
  | .set array index value, k =>
    array.pieces k ++ text ".set(" :: index.pieces (k + array.temps) ++
      text ", " :: value.pieces (k + array.temps + index.temps) ++ [text ")"]
  | .update array index op value, k =>
    let first := k + Slot.ownTemps array index
    let second := first + array.temps
    let bindings := array.bindingPieces .array k first ++ index.bindingPieces .index k second
    let a := array.usePieces .array k
    let i := index.usePieces .index k
    Script.numbered (array.isBound || index.isBound) k
      ((if bindings.isEmpty then []
        else text "let (" :: Piece.separated ", " bindings ++ [text ") "]) ++
        (a ++ text ".set(" :: i ++ text ", " :: a ++ text ".get(" :: i ++
          [text ") ", text op.symbol, text " "] ++ value.pieces (second + index.temps) ++
          [text ")"]))
  | .assign target op value, k =>
    target.pieces k ++ [text " ", text op.symbol, text " "] ++ value.pieces (k + target.temps)
  | .before op operand, k => text op.symbol :: operand.pieces k
  | .after operand op, k => operand.pieces k ++ [text op.symbol]
  | .binary left op right, k =>
    left.pieces k ++ [text " ", text op.symbol, text " "] ++ right.pieces (k + left.temps)
  | .existence holds binding operand, k =>
    wordIf (!holds) "!" ++ text "exists " ::
      (match binding with
        | none => []
        | some name => [text name, text " = "]) ++ operand.pieces k
  | .isType operand ty, k => operand.pieces k ++ [text " is ", text ty.text]
  | .conditional conditions then' otherwise, k =>
    text "if (" :: Condition.piecesList conditions k ++
      text ") then " :: then'.pieces (k + Condition.tempsList conditions) ++
      text " else " :: otherwise.pieces (k + Condition.tempsList conditions + then'.temps)
termination_by structural e => e

/-- The target of a call and the point after it. -/
def Expr.targetPieces : Option Expr → Nat → List α
  | none, _ => []
  | some target, k => target.pieces k ++ [text "."]
termination_by structural e => e

/-- Expressions with commas between them. -/
def Expr.piecesList : List Expr → Nat → List α
  | [], _ => []
  | [e], k => e.pieces k
  | e :: es, k => e.pieces k ++ text ", " :: Expr.piecesList es (k + e.temps)
termination_by structural e => e

/-- The binding of a temporary, if there is one: `n` is its number, `k` that of the next one. -/
def Slot.bindingPieces : Slot → Role → Nat → Nat → List (List α)
  | .direct _, _, _, _ => []
  | .bound value, role, n, k => [[Script.binds role n, text " = "] ++ value.pieces k]
termination_by structural s => s

/-- What an update reads from a slot; an expression written twice takes no temporaries. -/
def Slot.usePieces : Slot → Role → Nat → List α
  | .direct value, _, k => value.pieces k
  | .bound _, role, n => [Script.uses role n]
termination_by structural s => s

def Condition.pieces : Condition → Nat → List α
  | .isType ty operand, k => [text "is ", text ty.text, text " "] ++ operand.pieces k
  | .holds value, k => value.pieces k
termination_by structural c => c

def Condition.piecesList : List Condition → Nat → List α
  | [], _ => []
  | [c], k => c.pieces k
  | c :: cs, k => c.pieces k ++ text ", " :: Condition.piecesList cs (k + c.temps)
termination_by structural c => c

/-- A statement up to the end of its last line. -/
def Stmt.pieces : Stmt → Nat → List α
  | .block body, k => Piece.braced (Stmt.piecesList body k) ++ [newline]
  | .declare isVariable ty name init, k =>
    wordIf isVariable "variable " ++ [text ty.text, text " ", text name] ++
      Expr.initPieces init k ++ [text ";", newline]
  | .assertType ty name init, k =>
    [text "assert (is ", text ty.text, text " ", text name, text " = "] ++ init.pieces k ++
      [text ")", text ";", newline]
  | .expr value, k => value.pieces k ++ [text ";", newline]
  | .update array index op value, k =>
    let first := k + Slot.ownTemps array index
    let second := first + array.temps
    let bindings := array.bindingPieces .array k first ++ index.bindingPieces .index k second
    let a := array.usePieces .array k
    let i := index.usePieces .index k
    Script.numbered (array.isBound || index.isBound) k
      ((bindings.flatMap fun b => text "value " :: b ++ [text ";", newline]) ++
        (a ++ text ".set(" :: i ++ text ", " :: a ++ text ".get(" :: i ++
          [text ") ", text op.symbol, text " "] ++ value.pieces (second + index.temps) ++
          [text ")", text ";", newline]))
  | .ifElse conditions body otherwise, k =>
    text "if (" :: Condition.piecesList conditions k ++ text ") " ::
      Piece.braced (Stmt.piecesList body (k + Condition.tempsList conditions)) ++
      otherwise.pieces (k + Condition.tempsList conditions + Stmt.tempsList body) ++ [newline]
  | .whileLoop cond body, k =>
    text "while (" :: cond.pieces k ++ text ") " ::
      Piece.braced (Stmt.piecesList body (k + cond.temps)) ++ [newline]
  | .forIn ty name iterable body, k =>
    [text "for (", text ty.text, text " ", text name, text " in "] ++ iterable.pieces k ++
      text ") " :: Piece.braced (Stmt.piecesList body (k + iterable.temps)) ++ [newline]
  | .breakIf cond, k => text "if (" :: cond.pieces k ++ [text ") \x7bbreak;\x7d", newline]
  | .breakLoop, _ => [text "break;", newline]
  | .continueLoop, _ => [text "continue;", newline]
  | .switch selector cases otherwise, k =>
    text "switch (" :: selector.pieces k ++ [text ")", newline] ++
      Case.piecesList cases (k + selector.temps) ++
      Stmt.elsePieces otherwise (k + selector.temps + Case.tempsList cases) ++ [newline]
  | .delegate target args, k =>
    [text target.name, text "("] ++ Expr.piecesList args k ++ [text ");", newline]
  | .returnValue none, _ => [text "return", text ";", newline]
  | .returnValue (some value), k =>
    [text "return", text " "] ++ value.pieces k ++ [text ";", newline]
  | .throwValue value, k => text "throw " :: value.pieces k ++ [text ";", newline]
  | .tryCatch resources body catches finally', k =>
    text "try " :: Resource.listPieces resources k ++
      Piece.braced (Stmt.piecesList body (k + Resource.tempsList resources)) ++
      Catch.piecesList catches (k + Resource.tempsList resources + Stmt.tempsList body) ++
      Stmt.finallyPieces finally' (k + Resource.tempsList resources + Stmt.tempsList body +
        Catch.tempsList catches) ++ [newline]
termination_by structural s => s

/-- An initial value and the sign before it. -/
def Expr.initPieces : Option Expr → Nat → List α
  | none, _ => []
  | some init, k => text " = " :: init.pieces k
termination_by structural e => e

def Stmt.piecesList : List Stmt → Nat → List α
  | [], _ => []
  | s :: ss, k => s.pieces k ++ Stmt.piecesList ss (k + s.temps)
termination_by structural s => s

/-- The last branch of a `switch`, empty if there is none. -/
def Stmt.elsePieces : Option (List Stmt) → Nat → List α
  | none, _ => [text "else \x7b\x7d"]
  | some body, k => text "else " :: Piece.braced (Stmt.piecesList body k)
termination_by structural s => s

def Stmt.finallyPieces : Option (List Stmt) → Nat → List α
  | none, _ => []
  | some body, k => text " finally " :: Piece.braced (Stmt.piecesList body k)
termination_by structural s => s

def Else.pieces : Else → Nat → List α
  | .absent, _ => []
  | .block body, k => text " else " :: Piece.braced (Stmt.piecesList body k)
  | .chained conditions body otherwise, k =>
    [text " else ", text "if ("] ++ Condition.piecesList conditions k ++ text ") " ::
      Piece.braced (Stmt.piecesList body (k + Condition.tempsList conditions)) ++
      otherwise.pieces (k + Condition.tempsList conditions + Stmt.tempsList body)
termination_by structural e => e

def Case.piecesList : List Case → Nat → List α
  | [], _ => []
  | ⟨label, body⟩ :: cases, k =>
    text "case (" :: label.pieces k ++ text ") " ::
      Piece.braced (Stmt.piecesList body (k + label.temps)) ++
      newline :: Case.piecesList cases (k + label.temps + Stmt.tempsList body)
termination_by structural c => c

/-- Resources between parentheses, nothing without them. -/
def Resource.listPieces : List Resource → Nat → List α
  | [], _ => []
  | ⟨ty, name, init⟩ :: resources, k =>
    [text "(", text ty.text, text " ", text name, text " = "] ++ init.pieces k ++
      Resource.furtherPieces resources (k + init.temps) ++ [text ") "]
termination_by structural r => r

def Resource.furtherPieces : List Resource → Nat → List α
  | [], _ => []
  | ⟨ty, name, init⟩ :: resources, k =>
    [text "; ", text ty.text, text " ", text name, text " = "] ++ init.pieces k ++
      Resource.furtherPieces resources (k + init.temps)
termination_by structural r => r

def Catch.piecesList : List Catch → Nat → List α
  | [], _ => []
  | ⟨types, name, body⟩ :: catches, k =>
    [text " catch (", text (String.intercalate "|" (types.map Ty.text)), text " ", text name,
      text ") "] ++ Piece.braced (Stmt.piecesList body k) ++
      Catch.piecesList catches (k + Stmt.tempsList body)
termination_by structural c => c

/-- Fields on lines of their own. -/
def Declarator.fieldPieces : List Declarator → Bool → Bool → Ty → Nat → List α
  | [], _, _, _, _ => []
  | ⟨name, init⟩ :: declarators, isShared, isVariable, ty, k =>
    wordIf isShared "shared " ++ wordIf isVariable "variable " ++
      [text ty.text, text " ", text name] ++ Expr.initPieces init k ++
      [text ";", newline] ++
      Declarator.fieldPieces declarators isShared isVariable ty (k + Expr.tempsOption init)
termination_by structural d => d

def Method.pieces : Method → Nat → List α
  | ⟨isShared, isActual, kind, result, name, typeParams, params, body⟩, k =>
    wordIf isShared "shared " ++ wordIf isActual "actual " ++
      wordIf (kind == .replaceable) "default " ++ wordIf (kind == .formal) "formal " ++
      [text ((result.map Ty.text).getD "void"), text " ", text name,
        text (TypeParam.listText typeParams), text "("] ++ paramPieces params ++
      [text ")", text (TypeParam.constraintsText typeParams)] ++ Stmt.bodyPieces body k ++
      [newline]
termination_by structural m => m

/-- The body of a method, or the end of a declaration without one. -/
def Stmt.bodyPieces : Option (List Stmt) → Nat → List α
  | none, _ => [text ";"]
  | some body, k => text " " :: Piece.braced (Stmt.piecesList body k)
termination_by structural s => s

def Member.pieces : Member → Nat → List α
  | .fields isShared isVariable ty declarators, k =>
    Declarator.fieldPieces declarators isShared isVariable ty k
  | .method decl, k => decl.pieces k
  | .constructor isShared params body, k =>
    wordIf isShared "shared " ++ text "new (" :: paramPieces params ++
      text ") " :: Piece.braced (Stmt.piecesList body k) ++ [newline]
  | .enumConstructor enumName params body, k =>
    [text "abstract new _", text enumName, text "(String string"] ++
      (params.flatMap fun p => text ", " :: p.pieces) ++ text ") " ::
      Piece.braced ([text "this.string = string;", newline] ++ Stmt.piecesList body k) ++
      [newline]
  | .type decl, k => decl.pieces k
  | .statements body, k => Stmt.piecesList body k
termination_by structural m => m

/-- Members one after another; fields that follow each other stay together, all else is set apart by
an empty line. -/
def Member.piecesList : List Member → Nat → List α
  | [], _ => []
  | [m], k => m.pieces k
  | m :: n :: ms, k =>
    m.pieces k ++ (if m.isFields && n.isFields then [] else [newline]) ++
      Member.piecesList (n :: ms) (k + m.temps)
termination_by structural m => m

/-- Constants as named constructors that keep the name of the constant. -/
def Constant.piecesList : List Constant → String → Nat → List α
  | [], _, _ => []
  | ⟨name, []⟩ :: constants, enumName, k =>
    [text "shared new _", text name, text " \x7b string = \"", text name, text "\"; \x7d",
      newline] ++ Constant.piecesList constants enumName k
  | ⟨name, args⟩ :: constants, enumName, k =>
    [text "shared new _", text name, text " extends _", text enumName, text "(\"", text name,
      text "\", "] ++ Expr.piecesList args k ++ [text ") \x7b \x7d", newline] ++
      Constant.piecesList constants enumName (k + Expr.tempsList args)
termination_by structural c => c

def TypeDecl.pieces : TypeDecl → Nat → List α
  | .ofClass ⟨isShared, isAbstract, name, typeParams, takesNothing, superclass, interfaces, body⟩,
      k =>
    wordIf isShared "shared " ++ wordIf isAbstract "abstract " ++
      [text "class ", text name, text (TypeParam.listText typeParams)] ++
      wordIf takesNothing "()" ++
      (match superclass with
        | none => []
        | some ty => [text " extends ", text ty.text, text "()"]) ++
      [text (satisfiesText interfaces), text (TypeParam.constraintsText typeParams), text " "] ++
      Piece.braced (Member.piecesList body k) ++ [newline]
  | .ofInterface ⟨isShared, name, typeParams, interfaces, body⟩, k =>
    wordIf isShared "shared " ++
      [text "interface ", text name, text (TypeParam.listText typeParams),
        text (satisfiesText interfaces), text (TypeParam.constraintsText typeParams),
        text " "] ++
      Piece.braced (Member.piecesList body k) ++ [newline]
  | .ofEnumeration ⟨isShared, name, interfaces, body, constants⟩, k =>
    wordIf isShared "shared " ++
      [text "class ", text name, text (satisfiesText interfaces), text " "] ++
      Piece.braced ([text "shared actual String string;", newline] ++
        (if body.isEmpty then [] else newline :: Member.piecesList body k) ++
        (if constants.isEmpty then []
         else newline :: Constant.piecesList constants name (k + Member.tempsList body))) ++
      [newline]
termination_by structural t => t
end

/-- Declarations with empty lines between them. -/
def TypeDecl.piecesList : List TypeDecl → Nat → List α
  | [], _ => []
  | [t], k => t.pieces k
  | t :: ts, k => t.pieces k ++ newline :: TypeDecl.piecesList ts (k + t.temps)

def TypeDecl.tempsList : List TypeDecl → Nat
  | [] => 0
  | t :: ts => t.temps + TypeDecl.tempsList ts

end CeylonFromJava.Ceylon
