import CeylonFromJava.Java.Tree
import CeylonFromJava.Json.Basic

/-! Trees written as JSON.

A record is an object with its fields in order, some of them left out when they are empty. A variant
without content is its name, any other an object with its name as the only key. -/
namespace CeylonFromJava.Java
set_option autoImplicit false

namespace Encode

/-! ## Shapes -/

/-- A member that is always written. -/
def always (name : String) (value : Json) : List (String × Json) := [(name, value)]

/-- A member that is written if there is a value. -/
def ifSome (name : String) : Option Json → List (String × Json)
  | none => []
  | some value => [(name, value)]

/-- A list that is written unless it is empty. -/
def ifAny (name : String) : List Json → List (String × Json)
  | [] => []
  | items => [(name, .array items)]

/-- A variant with its content. -/
def variant (name : String) (content : Json) : Json := .object [(name, content)]

/-- A variant with fields. -/
def fields (name : String) (members : List (List (String × Json))) : Json :=
  variant name (.object members.flatten)

def record (members : List (List (String × Json))) : Json := .object members.flatten

def orNull : Option Json → Json
  | none => .null
  | some value => value

def count (n : UInt64) : Json := .number n.toNat

/-! ## Types -/

def primitive (p : Primitive) : Json := .string p.name

mutual
def typeRef : TypeRef → Json
  | .primitive p => variant "primitive" (primitive p)
  | .classType segments =>
    variant "class" (record [always "segments" (.array (typeSegments segments))])
  | .array element dims =>
    fields "array" [always "element" (typeRef element), always "dims" (count dims)]

def typeSegments : List TypeSegment → List Json
  | [] => []
  | ⟨name, args⟩ :: segments =>
    record [always "name" (.string name), ifAny "args" (typeArgs args)] :: typeSegments segments

def typeArg : TypeArg → Json
  | .exactly ty => variant "type" (typeRef ty)
  | .unbounded => fields "wildcard" []
  | .extending bound =>
    fields "wildcard" [always "bound" (.array [.string "extends", typeRef bound])]
  | .superOf bound => fields "wildcard" [always "bound" (.array [.string "super", typeRef bound])]

def typeArgs : List TypeArg → List Json
  | [] => []
  | arg :: args => typeArg arg :: typeArgs args
end

def classType (ty : ClassType) : Json := record [always "segments" (.array (typeSegments ty))]

def typeRefs (types : List TypeRef) : List Json := types.map typeRef

def typeParam (param : TypeParam) : Json :=
  record [always "name" (.string param.name), ifAny "bounds" (param.bounds.map classType)]

/-! ## Leaves -/

def modifier (m : Modifier) : Json := .string m.name

def modifiers (ms : List Modifier) : List Json := ms.map modifier

def literal : Literal → Json
  | .null => .string "null"
  | .bool b => variant "bool" (.bool b)
  | .number text => variant "number" (.string text)
  | .char text => variant "char" (.string text)
  | .string text => variant "string" (.string text)

def param (p : Param) : Json :=
  record [ifAny "modifiers" (modifiers p.modifiers), always "ty" (typeRef p.ty),
    always "name" (.string p.name), always "varargs" (.bool p.varargs)]

def params (ps : List Param) : Json := .array (ps.map param)

def label (l : Option String) : Json := orNull (l.map .string)

/-! ## Expressions, statements, declarations -/

/-- A block around encoded statements. -/
def blockOf (stmts : List Json) : Json := record [always "stmts" (.array stmts)]

mutual
def expr : Expr → Json
  | .literal value => variant "literal" (literal value)
  | .name name => variant "name" (.string name)
  | .thisRef => .string "this"
  | .superRef => .string "super"
  | .paren inner => variant "paren" (expr inner)
  | .field target name =>
    fields "field_access" [always "target" (expr target), always "name" (.string name)]
  | .call target typeArgs name args =>
    fields "call" [ifSome "target" (exprOption target), ifAny "type_args" (typeRefs typeArgs),
      always "name" (.string name), always "args" (.array (exprs args))]
  | .create ty args body =>
    fields "new" [always "ty" (classType ty), always "args" (.array (exprs args)),
      ifSome "body" (match body with
        | none => none
        | some members => some (.array (memberList members)))]
  | .createArray element dims extraDims init =>
    fields "new_array" [always "element" (typeRef element), always "dims" (.array (exprs dims)),
      always "extra_dims" (count extraDims),
      ifSome "init" (match init with
        | none => none
        | some elements => some (.array (exprs elements)))]
  | .arrayInit elements => variant "array_init" (.array (exprs elements))
  | .index array index =>
    fields "array_access" [always "array" (expr array), always "index" (expr index)]
  | .assign target op value =>
    fields "assign" [always "target" (expr target), always "op" (.string op.name),
      always "value" (expr value)]
  | .unary op operand =>
    fields "unary" [always "op" (.string op.name), always "operand" (expr operand)]
  | .binary left op right =>
    fields "binary" [always "left" (expr left), always "op" (.string op.name),
      always "right" (expr right)]
  | .instanceOf operand ty =>
    fields "instance_of" [always "expr" (expr operand), always "ty" (typeRef ty)]
  | .conditional cond then' otherwise =>
    fields "conditional" [always "cond" (expr cond), always "then" (expr then'),
      always "otherwise" (expr otherwise)]
  | .cast ty operand =>
    fields "cast" [always "ty" (typeRef ty), always "expr" (expr operand)]

def exprOption : Option Expr → Option Json
  | none => none
  | some e => some (expr e)

def exprs : List Expr → List Json
  | [] => []
  | e :: es => expr e :: exprs es

def declarator : Declarator → Json
  | ⟨name, init⟩ => record [always "name" (.string name), ifSome "init" (exprOption init)]

def declarators : List Declarator → List Json
  | [] => []
  | d :: ds => declarator d :: declarators ds

def localVar : LocalVar → Json
  | ⟨ms, ty, ds⟩ =>
    record [ifAny "modifiers" (modifiers ms), always "ty" (typeRef ty),
      always "declarators" (.array (declarators ds))]

def forInit : ForInit → Json
  | .declare decl => variant "decl" (localVar decl)
  | .exprs es => variant "exprs" (.array (exprs es))

def switchLabels : List SwitchLabel → List Json
  | [] => []
  | .case value :: labels => variant "case" (expr value) :: switchLabels labels
  | .default :: labels => .string "default" :: switchLabels labels

def switchGroup : SwitchGroup → Json
  | ⟨labels, body⟩ =>
    record [always "labels" (.array (switchLabels labels)), always "body" (.array (stmts body))]

def switchGroups : List SwitchGroup → List Json
  | [] => []
  | g :: gs => switchGroup g :: switchGroups gs

def resources : List Resource → List Json
  | [] => []
  | ⟨ty, name, init⟩ :: rs =>
    record [always "ty" (typeRef ty), always "name" (.string name), always "init" (expr init)] ::
      resources rs

def catchClauses : List CatchClause → List Json
  | [] => []
  | ⟨types, name, body⟩ :: cs =>
    record [always "types" (.array (typeRefs types)), always "name" (.string name),
      always "body" (blockOf (stmts body))] :: catchClauses cs

def stmt : Stmt → Json
  | .block body => variant "block" (blockOf (stmts body))
  | .localVar decl => variant "local_var" (localVar decl)
  | .expr e => variant "expr" (expr e)
  | .ifElse cond then' otherwise =>
    fields "if" [always "cond" (expr cond), always "then" (stmt then'),
      ifSome "otherwise" (match otherwise with
        | none => none
        | some s => some (stmt s))]
  | .whileLoop cond body => fields "while" [always "cond" (expr cond), always "body" (stmt body)]
  | .doWhile body cond =>
    fields "do_while" [always "body" (stmt body), always "cond" (expr cond)]
  | .forLoop init cond update body =>
    fields "for" [
      ifSome "init" (match init with
        | none => none
        | some i => some (forInit i)),
      ifSome "cond" (exprOption cond), always "update" (.array (exprs update)),
      always "body" (stmt body)]
  | .forEach ty name iterable body =>
    fields "for_each" [always "ty" (typeRef ty), always "name" (.string name),
      always "iterable" (expr iterable), always "body" (stmt body)]
  | .switch selector groups =>
    fields "switch" [always "selector" (expr selector),
      always "groups" (.array (switchGroups groups))]
  | .breakTo target => variant "break" (label target)
  | .continueTo target => variant "continue" (label target)
  | .labeled name body =>
    fields "labeled" [always "label" (.string name), always "body" (stmt body)]
  | .synchronized lock body =>
    fields "synchronized" [always "lock" (expr lock), always "body" (blockOf (stmts body))]
  | .constructorCall target args =>
    fields "constructor_call" [always "target" (.string target.name),
      always "args" (.array (exprs args))]
  | .returnValue value => variant "return" (orNull (exprOption value))
  | .throwValue value => variant "throw" (expr value)
  | .tryCatch rs body cs finally' =>
    fields "try" [always "resources" (.array (resources rs)), always "body" (blockOf (stmts body)),
      always "catches" (.array (catchClauses cs)),
      ifSome "finally" (match finally' with
        | none => none
        | some b => some (blockOf (stmts b)))]
  | .empty => .string "empty"

def stmts : List Stmt → List Json
  | [] => []
  | s :: ss => stmt s :: stmts ss

def fieldDecl : FieldDecl → Json
  | ⟨ms, ty, ds⟩ =>
    record [always "modifiers" (.array (modifiers ms)), always "ty" (typeRef ty),
      always "declarators" (.array (declarators ds))]

def methodDecl : MethodDecl → Json
  | ⟨ms, typeParams, result, name, ps, body⟩ =>
    record [always "modifiers" (.array (modifiers ms)),
      ifAny "type_params" (typeParams.map typeParam),
      always "result" (orNull (result.map typeRef)), always "name" (.string name),
      always "params" (params ps),
      always "body" (match body with
        | none => .null
        | some b => blockOf (stmts b))]

def constructorDecl : ConstructorDecl → Json
  | ⟨ms, name, ps, body⟩ =>
    record [always "modifiers" (.array (modifiers ms)), always "name" (.string name),
      always "params" (params ps), always "body" (blockOf (stmts body))]

def member : Member → Json
  | .field decl => variant "field" (fieldDecl decl)
  | .method decl => variant "method" (methodDecl decl)
  | .constructor decl => variant "constructor" (constructorDecl decl)
  | .type decl => variant "type" (typeDecl decl)
  | .initializer body => variant "initializer" (blockOf (stmts body))

def memberList : List Member → List Json
  | [] => []
  | m :: ms => member m :: memberList ms

def enumConstant : EnumConstant → Json
  | ⟨name, args⟩ => record [always "name" (.string name), always "args" (.array (exprs args))]

def enumConstants : List EnumConstant → List Json
  | [] => []
  | c :: cs => enumConstant c :: enumConstants cs

def classDecl : ClassDecl → Json
  | ⟨ms, name, typeParams, superclass, interfaces, body⟩ =>
    record [always "modifiers" (.array (modifiers ms)), always "name" (.string name),
      ifAny "type_params" (typeParams.map typeParam),
      ifSome "superclass" (superclass.map classType),
      ifAny "interfaces" (interfaces.map classType), always "body" (.array (memberList body))]

def interfaceDecl : InterfaceDecl → Json
  | ⟨ms, name, typeParams, extended, body⟩ =>
    record [always "modifiers" (.array (modifiers ms)), always "name" (.string name),
      ifAny "type_params" (typeParams.map typeParam), ifAny "extends" (extended.map classType),
      always "body" (.array (memberList body))]

def enumDecl : EnumDecl → Json
  | ⟨ms, name, interfaces, constants, body⟩ =>
    record [always "modifiers" (.array (modifiers ms)), always "name" (.string name),
      ifAny "interfaces" (interfaces.map classType),
      always "constants" (.array (enumConstants constants)),
      always "body" (.array (memberList body))]

def typeDecl : TypeDecl → Json
  | .ofClass decl => variant "class" (classDecl decl)
  | .ofInterface decl => variant "interface" (interfaceDecl decl)
  | .ofEnum decl => variant "enum" (enumDecl decl)
end

def block (body : List Stmt) : Json := blockOf (stmts body)

/-! ## Units -/

def importMember : ImportMember → Json
  | .single name => variant "single" (.string name)
  | .wildcard => .string "wildcard"

def importDecl (i : Import) : Json :=
  record [always "package" (.string i.package), always "member" (importMember i.member)]

def unit (u : CompilationUnit) : Json :=
  record [ifSome "package" (u.package.map .string),
    always "imports" (.array (u.imports.map importDecl)),
    always "types" (.array (u.types.map typeDecl))]

end Encode

/-! ## Equality -/

/-- Two expressions are equal when they are written alike. -/
instance : BEq Expr := ⟨fun a b => Encode.expr a == Encode.expr b⟩

end CeylonFromJava.Java
