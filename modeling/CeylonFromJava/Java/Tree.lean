import CeylonFromJava.Java.Operator
import CeylonFromJava.Java.TypeRef

/-! Syntax trees of Java compilation units.

Parentheses of the source are nodes of their own. A block is the list of its statements. -/
namespace CeylonFromJava.Java
set_option autoImplicit false

/-! ## Leaves -/

/-- Modifiers of a declaration, the mark of an overriding method among them. -/
inductive Modifier where
  | publicAccess | protectedAccess | privateAccess
  | static | final | abstract
  | defaultMethod | override | synchronized | native | transient | volatile | strictfp
  deriving DecidableEq, Repr

namespace Modifier

def name : Modifier → String
  | .publicAccess => "public"
  | .protectedAccess => "protected"
  | .privateAccess => "private"
  | .static => "static"
  | .final => "final"
  | .abstract => "abstract"
  | .defaultMethod => "default"
  | .override => "override"
  | .synchronized => "synchronized"
  | .native => "native"
  | .transient => "transient"
  | .volatile => "volatile"
  | .strictfp => "strictfp"

def all : List Modifier :=
  [.publicAccess, .protectedAccess, .privateAccess, .static, .final, .abstract, .defaultMethod,
   .override, .synchronized, .native, .transient, .volatile, .strictfp]

end Modifier

/-- A literal; numbers, characters and strings keep the text between their quotes. -/
inductive Literal where
  | null
  | bool (b : Bool)
  | number (text : String)
  | char (text : String)
  | string (text : String)
  deriving DecidableEq, Repr

/-- The constructor that an explicit constructor call runs. -/
inductive ConstructorTarget where
  | own
  | inherited
  deriving DecidableEq, Repr

namespace ConstructorTarget

def name : ConstructorTarget → String
  | .own => "this"
  | .inherited => "super"

def all : List ConstructorTarget := [.own, .inherited]

end ConstructorTarget

/-- A parameter; `varargs` takes any number of arguments. -/
structure Param where
  modifiers : List Modifier
  ty : TypeRef
  name : String
  varargs : Bool

/-! ## Expressions, statements, declarations -/

mutual
inductive Expr where
  | literal (value : Literal)
  | name (name : String)
  | thisRef
  | superRef
  | paren (inner : Expr)
  | field (target : Expr) (name : String)
  | call (target : Option Expr) (typeArgs : List TypeRef) (name : String) (args : List Expr)
  | create (ty : ClassType) (args : List Expr) (body : Option (List Member))
  | createArray (element : TypeRef) (dims : List Expr) (extraDims : UInt64)
      (init : Option (List Expr))
  | arrayInit (elements : List Expr)
  | index (array : Expr) (index : Expr)
  | assign (target : Expr) (op : AssignOp) (value : Expr)
  | unary (op : UnaryOp) (operand : Expr)
  | binary (left : Expr) (op : BinaryOp) (right : Expr)
  | instanceOf (operand : Expr) (ty : TypeRef)
  | conditional (cond : Expr) (then' : Expr) (otherwise : Expr)
  | cast (ty : TypeRef) (operand : Expr)

/-- A declared name with its initial value. -/
structure Declarator where
  name : String
  init : Option Expr

/-- Local variables of one type. -/
structure LocalVar where
  modifiers : List Modifier
  ty : TypeRef
  declarators : List Declarator

/-- What a counting loop runs first. -/
inductive ForInit where
  | declare (decl : LocalVar)
  | exprs (exprs : List Expr)

inductive SwitchLabel where
  | case (value : Expr)
  | default

/-- Statements of a switch with the labels in front of them. -/
structure SwitchGroup where
  labels : List SwitchLabel
  body : List Stmt

/-- A resource that a `try` statement closes. -/
structure Resource where
  ty : TypeRef
  name : String
  init : Expr

structure CatchClause where
  types : List TypeRef
  name : String
  body : List Stmt

inductive Stmt where
  | block (body : List Stmt)
  | localVar (decl : LocalVar)
  | expr (expr : Expr)
  | ifElse (cond : Expr) (then' : Stmt) (otherwise : Option Stmt)
  | whileLoop (cond : Expr) (body : Stmt)
  | doWhile (body : Stmt) (cond : Expr)
  | forLoop (init : Option ForInit) (cond : Option Expr) (update : List Expr) (body : Stmt)
  | forEach (ty : TypeRef) (name : String) (iterable : Expr) (body : Stmt)
  | switch (selector : Expr) (groups : List SwitchGroup)
  | breakTo (label : Option String)
  | continueTo (label : Option String)
  | labeled (label : String) (body : Stmt)
  | synchronized (lock : Expr) (body : List Stmt)
  | constructorCall (target : ConstructorTarget) (args : List Expr)
  | returnValue (value : Option Expr)
  | throwValue (value : Expr)
  | tryCatch (resources : List Resource) (body : List Stmt) (catches : List CatchClause)
      (finally' : Option (List Stmt))
  | empty

/-- Fields of one type. -/
structure FieldDecl where
  modifiers : List Modifier
  ty : TypeRef
  declarators : List Declarator

/-- A method; without a result type it is `void`, without a body it is only declared. -/
structure MethodDecl where
  modifiers : List Modifier
  typeParams : List TypeParam
  result : Option TypeRef
  name : String
  params : List Param
  body : Option (List Stmt)

structure ConstructorDecl where
  modifiers : List Modifier
  name : String
  params : List Param
  body : List Stmt

inductive Member where
  | field (decl : FieldDecl)
  | method (decl : MethodDecl)
  | constructor (decl : ConstructorDecl)
  | type (decl : TypeDecl)
  | initializer (body : List Stmt)

structure ClassDecl where
  modifiers : List Modifier
  name : String
  typeParams : List TypeParam
  superclass : Option ClassType
  interfaces : List ClassType
  body : List Member

structure InterfaceDecl where
  modifiers : List Modifier
  name : String
  typeParams : List TypeParam
  extended : List ClassType
  body : List Member

structure EnumConstant where
  name : String
  args : List Expr

structure EnumDecl where
  modifiers : List Modifier
  name : String
  interfaces : List ClassType
  constants : List EnumConstant
  body : List Member

inductive TypeDecl where
  | ofClass (decl : ClassDecl)
  | ofInterface (decl : InterfaceDecl)
  | ofEnum (decl : EnumDecl)
end

/-! ## Units -/

/-- What an import brings into scope. -/
inductive ImportMember where
  | single (name : String)
  | wildcard
  deriving DecidableEq

structure Import where
  package : String
  member : ImportMember
  deriving DecidableEq

/-- One source file. -/
structure CompilationUnit where
  package : Option String
  imports : List Import
  types : List TypeDecl

/-! ## Views -/

namespace Expr

/-- The expression inside all parentheses around it. -/
def unparenthesized : Expr → Expr
  | .paren inner => inner.unparenthesized
  | e => e

def isNull : Expr → Bool
  | .literal .null => true
  | _ => false

def precedence : Expr → Precedence
  | .assign _ _ _ => .assignment
  | .conditional _ _ _ => .conditional
  | .binary _ op _ => op.precedence
  | .instanceOf _ _ => .relational
  | .unary op _ => if op.isPostfix then .postfixed else .unary
  | .cast _ _ => .unary
  | _ => .primary

end Expr

namespace SwitchGroup

/-- Whether `default` is among the labels. -/
def isDefault (group : SwitchGroup) : Bool :=
  group.labels.any fun
    | .default => true
    | .case _ => false

def firstCase (group : SwitchGroup) : Option Expr :=
  group.labels.findSome? fun
    | .case value => some value
    | .default => none

end SwitchGroup

def Member.isConstructor : Member → Bool
  | .constructor _ => true
  | _ => false

def ClassDecl.hasConstructor (decl : ClassDecl) : Bool :=
  decl.body.any Member.isConstructor

def TypeDecl.name : TypeDecl → String
  | .ofClass decl => decl.name
  | .ofInterface decl => decl.name
  | .ofEnum decl => decl.name

end CeylonFromJava.Java
