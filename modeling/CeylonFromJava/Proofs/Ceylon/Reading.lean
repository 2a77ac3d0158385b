import CeylonFromJava.Java.Operator
import CeylonFromJava.Proofs.Ceylon.TypeText

/-! Reading the text of a Ceylon expression by the binding strength of its operators.

A skeleton is what an expression says when the parentheses are gone: which operands belong to which
operator. The reader turns text into a skeleton with plain operator precedence, so a text has one
skeleton at most. It is given fuel, as the reader of types is. -/
namespace CeylonFromJava.Ceylon
set_option autoImplicit false

open Java (Precedence BinaryOp AssignOp UnaryOp)
open Name

/-! ## Skeletons -/

/-- An expression without parentheses. A conditional has the list of what its condition asks.
`other` stands for the forms that the reader does not know. -/
inductive Skeleton where
  | number (text : String)
  | name (name : String)
  | thisRef
  | superRef
  | field (target : Skeleton) (name : String)
  | call (target : Option Skeleton) (name : String) (args : List Skeleton)
  | assign (target : Skeleton) (op : AssignOp) (value : Skeleton)
  | unary (op : UnaryOp) (operand : Skeleton)
  | binary (left : Skeleton) (op : BinaryOp) (right : Skeleton)
  | isType (operand : Skeleton) (ty : Ty)
  | conditional (conditions : List Skeleton) (then' : Skeleton) (otherwise : Skeleton)
  | other

/-- The operands of an `&&` chain from left to right. -/
def Skeleton.conjuncts : Skeleton → List Skeleton
  | .binary left .and right => left.conjuncts ++ right.conjuncts
  | s => [s]

/-! ## Operators between and before operands -/

/-- What can stand between an operand and what follows it. -/
inductive Infix where
  | binary (op : BinaryOp)
  | assign (op : AssignOp)
  | isType

namespace Infix

def precedence : Infix → Precedence
  | .binary op => op.precedence
  | .assign _ => .assignment
  | .isType => .relational

def symbol : Infix → String
  | .binary op => op.symbol
  | .assign op => op.symbol
  | .isType => "is"

def ofSymbol? (w : List Char) : Option Infix :=
  if w = "is".toList then some .isType
  else
    match BinaryOp.all.find? (·.symbol.toList == w) with
    | some op => some (.binary op)
    | none => (AssignOp.all.find? (·.symbol.toList == w)).map .assign

/-- The operator between blanks that the text starts with, and the text after it. -/
def next? : List Char → Option (Infix × List Char)
  | ' ' :: cs =>
    match cs.dropWhile (· != ' ') with
    | ' ' :: rest => (ofSymbol? (cs.takeWhile (· != ' '))).map (·, rest)
    | _ => none
  | _ => none

end Infix

/-- The operator in front of an operand; two signs are one operator. -/
def prefixOp? : List Char → Option (UnaryOp × List Char)
  | '+' :: '+' :: cs => some (.preIncrement, cs)
  | '+' :: cs => some (.plus, cs)
  | '-' :: '-' :: cs => some (.preDecrement, cs)
  | '-' :: cs => some (.minus, cs)
  | '!' :: cs => some (.not, cs)
  | _ => none

/-- What is left after an expected text. -/
def after (w cs : List Char) : Option (List Char) :=
  if w.isPrefixOf cs then some (cs.drop w.length) else none

/-- The text without the marker in front of a name. -/
def afterMarker : List Char → List Char
  | '\\' :: 'i' :: cs => cs
  | cs => cs

def wordOf (cs : List Char) : String := String.ofList (cs.takeWhile isWordChar)

def afterWord (cs : List Char) : List Char := cs.dropWhile isWordChar

/-! ## The reader -/

mutual
/-- Reads an expression up to the first operator that binds looser than `p`. -/
def readExpr : Nat → Precedence → List Char → Option (Skeleton × List Char)
  | 0, _, _ => none
  | n + 1, p, cs => do
    let (s, cs) ← readOperand n cs
    readInfixes n p s cs

/-- Goes on behind the operand `s` while operators bind at least as tight as `p`. -/
def readInfixes : Nat → Precedence → Skeleton → List Char → Option (Skeleton × List Char)
  | 0, _, _, _ => none
  | n + 1, p, s, cs =>
    match Infix.next? cs with
    | none => some (s, cs)
    | some (op, rest) =>
      if op.precedence < p then some (s, cs)
      else
        match op with
        | .isType => do
          let (ty, rest) ← readTy n rest
          readInfixes n p (.isType s ty) rest
        | .assign op => do
          let (v, rest) ← readExpr n 0 rest
          readInfixes n p (.assign s op v) rest
        | .binary op => do
          let (r, rest) ← readExpr n (op.precedence + 1) rest
          readInfixes n p (.binary s op r) rest

/-- Reads an operand with the operators before and behind it. -/
def readOperand : Nat → List Char → Option (Skeleton × List Char)
  | 0, _ => none
  | n + 1, cs =>
    match prefixOp? cs with
    | some (op, cs) => do
      let (s, cs) ← readOperand n cs
      some (.unary op s, cs)
    | none =>
      match cs with
      | '(' :: cs => do
        let (s, cs) ← readExpr n 0 cs
        let cs ← after [')'] cs
        readPostfixes n s cs
      | '\\' :: cs =>
        readMember n none (wordOf (afterMarker ('\\' :: cs))) (afterWord (afterMarker ('\\' :: cs)))
      | cs => readWord n (wordOf cs) (afterWord cs)

/-- Goes on behind a word without marker: a number, a name, or a word of the language. -/
def readWord : Nat → String → List Char → Option (Skeleton × List Char)
  | 0, _, _ => none
  | n + 1, w, cs =>
    if w = "this" then readPostfixes n .thisRef cs
    else if w = "super" then readPostfixes n .superRef cs
    else if w = "is" then do
      let cs ← after [' '] cs
      let (ty, cs) ← readTy n cs
      let cs ← after [' '] cs
      let (s, cs) ← readExpr n 0 cs
      some (.isType s ty, cs)
    else if w = "if" then do
      let cs ← after " (".toList cs
      let (conditions, cs) ← readItems n cs
      let cs ← after " then ".toList cs
      let (a, cs) ← readExpr n 0 cs
      let cs ← after " else ".toList cs
      let (b, cs) ← readExpr n 0 cs
      some (.conditional (conditions.flatMap Skeleton.conjuncts) a b, cs)
    else
      match w.toList with
      | [] => none
      | c :: _ => if c.isDigit then readPostfixes n (.number w) cs else readMember n none w cs

/-- Goes on behind a name, alone or of a target: with parentheses it is called. -/
def readMember : Nat → Option Skeleton → String → List Char → Option (Skeleton × List Char)
  | 0, _, _, _ => none
  | n + 1, target, name, cs =>
    match after ['('] cs with
    | some cs => do
      let (args, cs) ← readItems n cs
      readPostfixes n (.call target name args) cs
    | none =>
      match target with
      | none => readPostfixes n (.name name) cs
      | some t => readPostfixes n (.field t name) cs

/-- Goes on behind the operand `s` with points and the operators behind an operand. -/
def readPostfixes : Nat → Skeleton → List Char → Option (Skeleton × List Char)
  | 0, _, _ => none
  | n + 1, s, cs =>
    match cs with
    | '.' :: cs => readMember n (some s) (wordOf (afterMarker cs)) (afterWord (afterMarker cs))
    | '+' :: '+' :: cs => readPostfixes n (.unary .postIncrement s) cs
    | '-' :: '-' :: cs => readPostfixes n (.unary .postDecrement s) cs
    | cs => some (s, cs)

/-- Reads expressions with commas between them, and the parenthesis after them. -/
def readItems : Nat → List Char → Option (List Skeleton × List Char)
  | 0, _ => none
  | n + 1, cs =>
    match readExpr n 0 cs with
    | none => (after [')'] cs).map ([], ·)
    | some (s, cs) =>
      match after [',', ' '] cs with
      | some cs => do
        let (ss, cs) ← readItems n cs
        some (s :: ss, cs)
      | none => (after [')'] cs).map ([s], ·)
end

end CeylonFromJava.Ceylon
