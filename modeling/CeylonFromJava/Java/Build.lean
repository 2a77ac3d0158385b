import CeylonFromJava.Java.Tree

/-! Short ways to build trees by hand. -/
namespace CeylonFromJava.Java
set_option autoImplicit false

namespace Expr

def null : Expr := .literal .null

def bool (b : Bool) : Expr := .literal (.bool b)

def number (text : String) : Expr := .literal (.number text)

def string (text : String) : Expr := .literal (.string text)

def char (text : String) : Expr := .literal (.char text)

/-- A call without target. -/
def callOwn (name : String) (args : List Expr) : Expr := .call none [] name args

def callOn (target : Expr) (name : String) (args : List Expr) : Expr :=
  .call (some target) [] name args

def createPlain (ty : ClassType) (args : List Expr) : Expr := .create ty args none

/-- An object of an anonymous class. -/
def createAnonymous (ty : ClassType) (args : List Expr) (body : List Member) : Expr :=
  .create ty args (some body)

/-- A new array with the given lengths. -/
def createSized (element : TypeRef) (dims : List Expr) : Expr := .createArray element dims 0 none

/-- A new array of one dimension with the given elements. -/
def createFilled (element : TypeRef) (elements : List Expr) : Expr :=
  .createArray element [] 1 (some elements)

def assignTo (target value : Expr) : Expr := .assign target .plain value

def both (left right : Expr) : Expr := .binary left .and right

end Expr

def Declarator.one (name : String) (init : Option Expr) : List Declarator := [⟨name, init⟩]

namespace Stmt

/-- One local variable without modifiers. -/
def declare (ty : TypeRef) (name : String) (init : Option Expr) : Stmt :=
  .localVar ⟨[], ty, Declarator.one name init⟩

end Stmt

namespace SwitchGroup

def ofCase (value : Expr) (body : List Stmt) : SwitchGroup := ⟨[.case value], body⟩

def ofDefault (body : List Stmt) : SwitchGroup := ⟨[.default], body⟩

end SwitchGroup

namespace Import

def single (package name : String) : Import := ⟨package, .single name⟩

def wildcard (package : String) : Import := ⟨package, .wildcard⟩

end Import

/-- A file without package. -/
def CompilationUnit.of (imports : List Import) (types : List TypeDecl) : CompilationUnit :=
  ⟨none, imports, types⟩

def ClassDecl.of (name : String) (body : List Member) : ClassDecl := ⟨[], name, [], none, [], body⟩

def InterfaceDecl.of (name : String) (body : List Member) : InterfaceDecl :=
  ⟨[], name, [], [], body⟩

def EnumDecl.of (name : String) (constants : List EnumConstant) : EnumDecl :=
  ⟨[], name, [], constants, []⟩

/-- One field. -/
def FieldDecl.of (modifiers : List Modifier) (ty : TypeRef) (name : String) (init : Option Expr) :
    FieldDecl :=
  ⟨modifiers, ty, Declarator.one name init⟩

def Param.of (ty : TypeRef) (name : String) : Param := ⟨[], ty, name, false⟩

/-- A method without type parameters. -/
def MethodDecl.of (modifiers : List Modifier) (result : Option TypeRef) (name : String)
    (params : List Param) (body : Option (List Stmt)) : MethodDecl :=
  ⟨modifiers, [], result, name, params, body⟩

def TypeParam.unbounded (name : String) : TypeParam := ⟨name, []⟩

end CeylonFromJava.Java
