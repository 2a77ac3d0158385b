/-! Operators of Java expressions: how they are written, what they are called in a tree that is
passed as data, and how tightly they bind. -/
namespace CeylonFromJava.Java
set_option autoImplicit false

/-! ## Binding strength -/

/-- Levels of the expression grammar; a higher level binds tighter. -/
abbrev Precedence := Nat

namespace Precedence

def assignment : Precedence := 1
def conditional : Precedence := 2
def or : Precedence := 3
def and : Precedence := 4
def bitOr : Precedence := 5
def bitXor : Precedence := 6
def bitAnd : Precedence := 7
def equality : Precedence := 8
def relational : Precedence := 9
def shift : Precedence := 10
def additive : Precedence := 11
def multiplicative : Precedence := 12
def unary : Precedence := 13
def postfixed : Precedence := 14
def primary : Precedence := 15

end Precedence

/-! ## Binary operators -/

/-- The operators that also exist as compound assignments. -/
inductive ArithOp where
  | bitOr | bitXor | bitAnd
  | shl | shr | uShr
  | add | sub
  | mul | div | rem
  deriving DecidableEq, Repr

namespace ArithOp

def symbol : ArithOp → String
  | .bitOr => "|"
  | .bitXor => "^"
  | .bitAnd => "&"
  | .shl => "<<"
  | .shr => ">>"
  | .uShr => ">>>"
  | .add => "+"
  | .sub => "-"
  | .mul => "*"
  | .div => "/"
  | .rem => "%"

def name : ArithOp → String
  | .bitOr => "bit_or"
  | .bitXor => "bit_xor"
  | .bitAnd => "bit_and"
  | .shl => "shl"
  | .shr => "shr"
  | .uShr => "u_shr"
  | .add => "add"
  | .sub => "sub"
  | .mul => "mul"
  | .div => "div"
  | .rem => "rem"

def precedence : ArithOp → Precedence
  | .bitOr => .bitOr
  | .bitXor => .bitXor
  | .bitAnd => .bitAnd
  | .shl | .shr | .uShr => .shift
  | .add | .sub => .additive
  | .mul | .div | .rem => .multiplicative

end ArithOp

inductive BinaryOp where
  | or
  | and
  | eq | ne
  | lt | gt | le | ge
  | arith (op : ArithOp)
  deriving DecidableEq, Repr

namespace BinaryOp

def symbol : BinaryOp → String
  | .or => "||"
  | .and => "&&"
  | .eq => "=="
  | .ne => "!="
  | .lt => "<"
  | .gt => ">"
  | .le => "<="
  | .ge => ">="
  | .arith op => op.symbol

def name : BinaryOp → String
  | .or => "or"
  | .and => "and"
  | .eq => "eq"
  | .ne => "ne"
  | .lt => "lt"
  | .gt => "gt"
  | .le => "le"
  | .ge => "ge"
  | .arith op => op.name

def precedence : BinaryOp → Precedence
  | .or => .or
  | .and => .and
  | .eq | .ne => .equality
  | .lt | .gt | .le | .ge => .relational
  | .arith op => op.precedence

/-- All operators, from the loosest to the tightest. -/
def all : List BinaryOp :=
  [.or, .and, .arith .bitOr, .arith .bitXor, .arith .bitAnd, .eq, .ne, .lt, .gt, .le, .ge,
   .arith .shl, .arith .shr, .arith .uShr, .arith .add, .arith .sub, .arith .mul, .arith .div,
   .arith .rem]

end BinaryOp

/-! ## Assignment operators -/

/-- An assignment is plain or applies an operator first. -/
inductive AssignOp where
  | plain
  | compound (op : ArithOp)
  deriving DecidableEq, Repr

namespace AssignOp

def symbol : AssignOp → String
  | .plain => "="
  | .compound op => op.symbol ++ "="

def name : AssignOp → String
  | .plain => "assign"
  | .compound op => op.name

/-- The operator that a compound assignment applies. -/
def operator : AssignOp → Option ArithOp
  | .plain => none
  | .compound op => some op

def all : List AssignOp :=
  [.plain, .compound .add, .compound .sub, .compound .mul, .compound .div, .compound .rem,
   .compound .bitAnd, .compound .bitOr, .compound .bitXor, .compound .shl, .compound .shr,
   .compound .uShr]

end AssignOp

/-! ## Unary operators -/

inductive UnaryOp where
  | plus | minus | not | complement
  | preIncrement | preDecrement
  | postIncrement | postDecrement
  deriving DecidableEq, Repr

namespace UnaryOp

def symbol : UnaryOp → String
  | .plus => "+"
  | .minus => "-"
  | .not => "!"
  | .complement => "~"
  | .preIncrement | .postIncrement => "++"
  | .preDecrement | .postDecrement => "--"

def name : UnaryOp → String
  | .plus => "plus"
  | .minus => "minus"
  | .not => "not"
  | .complement => "complement"
  | .preIncrement => "pre_increment"
  | .preDecrement => "pre_decrement"
  | .postIncrement => "post_increment"
  | .postDecrement => "post_decrement"

/-- Whether the operator changes its operand. -/
def isIncrement : UnaryOp → Bool
  | .preIncrement | .preDecrement | .postIncrement | .postDecrement => true
  | _ => false

/-- Whether the operator stands behind its operand. -/
def isPostfix : UnaryOp → Bool
  | .postIncrement | .postDecrement => true
  | _ => false

def all : List UnaryOp :=
  [.plus, .minus, .not, .complement, .preIncrement, .preDecrement, .postIncrement, .postDecrement]

end UnaryOp

end CeylonFromJava.Java
