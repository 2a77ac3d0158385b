import CeylonFromJava.Ceylon.Ty
import CeylonFromJava.Java.Tree

/-! Syntax trees of Ceylon source.

Operators and literals are those of Java, with the same spelling. Names are held as they are
written, marker included, and every pair of parentheses is a node. -/
namespace CeylonFromJava.Ceylon
set_option autoImplicit false

open Java (Literal ArithOp BinaryOp AssignOp UnaryOp ConstructorTarget)

/-- A parameter; `sequenced` takes any number of arguments. -/
structure Param where
  isVariable : Bool
  ty : Ty
  sequenced : Bool
  name : String

/-- A method has a body of its own, a body that can be replaced, or must be given one. -/
inductive MethodKind where
  | plain
  | replaceable
  | formal
  deriving DecidableEq, Repr

mutual
inductive Expr where
  | literal (value : Literal)
  | name (text : String)
  | thisRef
  | superRef
  | paren (inner : Expr)
  | property (target : Expr) (name : String)
  | call (target : Option Expr) (name : String) (typeArgs : List Ty) (args : List Expr)
  | instantiate (ty : Ty) (args : List Expr)
  | object (ty : Ty) (args : List Expr) (body : List Member)
  | array (elements : List Expr)
  | get (array : Expr) (index : Expr)
  | set (array : Expr) (index : Expr) (value : Expr)
  | update (array : Slot) (index : Slot) (op : ArithOp) (value : Expr)
  | assign (target : Expr) (op : AssignOp) (value : Expr)
  | before (op : UnaryOp) (operand : Expr)
  | after (operand : Expr) (op : UnaryOp)
  | binary (left : Expr) (op : BinaryOp) (right : Expr)
  | existence (holds : Bool) (binding : Option String) (operand : Expr)
  | isType (operand : Expr) (ty : Ty)
  | conditional (conditions : List Condition) (then' : Expr) (otherwise : Expr)

/-- Where an element update reads its array or its index from: an expression that may be written
twice, or a temporary value that is bound first. -/
inductive Slot where
  | direct (value : Expr)
  | bound (value : Expr)

/-- One item of a condition list. -/
inductive Condition where
  | isType (ty : Ty) (operand : Expr)
  | holds (value : Expr)

inductive Stmt where
  | block (body : List Stmt)
  | declare (isVariable : Bool) (ty : Ty) (name : String) (init : Option Expr)
  | assertType (ty : Ty) (name : String) (init : Expr)
  | expr (value : Expr)
  | update (array : Slot) (index : Slot) (op : ArithOp) (value : Expr)
  | ifElse (conditions : List Condition) (body : List Stmt) (otherwise : Else)
  | whileLoop (cond : Expr) (body : List Stmt)
  | forIn (ty : Ty) (name : String) (iterable : Expr) (body : List Stmt)
  | breakIf (cond : Expr)
  | breakLoop
  | continueLoop
  | switch (selector : Expr) (cases : List Case) (otherwise : Option (List Stmt))
  | delegate (target : ConstructorTarget) (args : List Expr)
  | returnValue (value : Option Expr)
  | throwValue (value : Expr)
  | tryCatch (resources : List Resource) (body : List Stmt) (catches : List Catch)
      (finally' : Option (List Stmt))

/-- What follows the first branch of an `if` statement. -/
inductive Else where
  | absent
  | block (body : List Stmt)
  | chained (conditions : List Condition) (body : List Stmt) (otherwise : Else)

structure Case where
  label : Expr
  body : List Stmt

structure Resource where
  ty : Ty
  name : String
  init : Expr

structure Catch where
  types : List Ty
  name : String
  body : List Stmt

structure Declarator where
  name : String
  init : Option Expr

structure Method where
  isShared : Bool
  isActual : Bool
  kind : MethodKind
  result : Option Ty
  name : String
  typeParams : List TypeParam
  params : List Param
  body : Option (List Stmt)

/-- A member of a class body. The constructor of an enumeration also takes and keeps the name of the
constant. Statements are run when an object is made. -/
inductive Member where
  | fields (isShared : Bool) (isVariable : Bool) (ty : Ty) (declarators : List Declarator)
  | method (decl : Method)
  | constructor (isShared : Bool) (params : List Param) (body : List Stmt)
  | enumConstructor (enumName : String) (params : List Param) (body : List Stmt)
  | type (decl : TypeDecl)
  | statements (body : List Stmt)

/-- A class; with `takesNothing` it has an empty parameter list. -/
structure Class where
  isShared : Bool
  isAbstract : Bool
  name : String
  typeParams : List TypeParam
  takesNothing : Bool
  superclass : Option Ty
  interfaces : List Ty
  body : List Member

structure Interface where
  isShared : Bool
  name : String
  typeParams : List TypeParam
  interfaces : List Ty
  body : List Member

structure Constant where
  name : String
  args : List Expr

/-- A class whose objects are made by named constructors, one for each constant. -/
structure Enumeration where
  isShared : Bool
  name : String
  interfaces : List Ty
  body : List Member
  constants : List Constant

inductive TypeDecl where
  | ofClass (decl : Class)
  | ofInterface (decl : Interface)
  | ofEnumeration (decl : Enumeration)
end

def Member.isFields : Member → Bool
  | .fields _ _ _ _ => true
  | _ => false

def Slot.isBound : Slot → Bool
  | .direct _ => false
  | .bound _ => true

end CeylonFromJava.Ceylon
