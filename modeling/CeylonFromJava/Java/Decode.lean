import CeylonFromJava.Java.Tree
import CeylonFromJava.Json.Decoder

/-! Trees read from JSON.

Every node is described by the table of its variants or by the list of its fields. The trees are
recursive, and so are their decoders: `nodes n` decodes what lies less than `n` nodes deep. Each
node opens a list or an object of its own, so one more than the limit on those is deep enough for
all that can be read at all. -/
namespace CeylonFromJava.Java
set_option autoImplicit false

namespace Decode

open Json.Decoder

abbrev Decoder := Json.Decoder

/-- Refuses every value. -/
def refuse {α : Type} : Decoder α := fun _ _ => .error .recursionLimit

/-! ## Types -/

def primitive : Decoder Primitive := names (Primitive.all.map fun p => (p.name, p))

/-- The two kinds of bounds. -/
def boundKind : Decoder (TypeRef → TypeArg) :=
  names [("extends", TypeArg.extending), ("super", TypeArg.superOf)]

def wildcardOf (typeRef : Decoder TypeRef) : Decoder TypeArg :=
  record "struct variant TypeArg::Wildcard"
    (.of1 (defaulted "bound" (option (pair boundKind typeRef)) none))
    fun (bound, _) => match bound with
      | none => .unbounded
      | some (kind, ty) => kind ty

def typeArgOf (typeRef : Decoder TypeRef) : Decoder TypeArg :=
  variant [⟨"type", .value (typeRef.map .exactly)⟩, ⟨"wildcard", .fields (wildcardOf typeRef)⟩]

def typeSegmentOf (typeRef : Decoder TypeRef) : Decoder TypeSegment :=
  record "struct TypeSegment"
    (.of2 (required "name" string) (defaulted "args" (list (typeArgOf typeRef)) []))
    fun (name, args, _) => ⟨name, args⟩

def classTypeOf (typeRef : Decoder TypeRef) : Decoder ClassType :=
  record "struct ClassType" (.of1 (required "segments" (list (typeSegmentOf typeRef))))
    fun (segments, _) => segments

def typeRefOf (typeRef : Decoder TypeRef) : Decoder TypeRef :=
  variant [
    ⟨"primitive", .value (primitive.map .primitive)⟩,
    ⟨"class", .value ((classTypeOf typeRef).map .classType)⟩,
    ⟨"array", .fields (record "struct variant TypeRef::Array"
      (.of2 (required "element" typeRef) (required "dims" count))
      fun (element, dims, _) => .array element dims)⟩]

/-- Types less than `n` types deep. -/
def typeRefUpTo : Nat → Decoder TypeRef
  | 0 => refuse
  | n + 1 => typeRefOf (typeRefUpTo n)

def typeRef : Decoder TypeRef := typeRefUpTo (depthLimit + 1)

def classType : Decoder ClassType := classTypeOf typeRef

def typeArg : Decoder TypeArg := typeArgOf typeRef

def typeParam : Decoder TypeParam :=
  record "struct TypeParam"
    (.of2 (required "name" string) (defaulted "bounds" (list classType) []))
    fun (name, bounds, _) => ⟨name, bounds⟩

/-! ## Leaves -/

def modifier : Decoder Modifier := names (Modifier.all.map fun m => (m.name, m))

def modifiers : Decoder (List Modifier) := list modifier

def binaryOp : Decoder BinaryOp := names (BinaryOp.all.map fun op => (op.name, op))

def assignOp : Decoder AssignOp := names (AssignOp.all.map fun op => (op.name, op))

def unaryOp : Decoder UnaryOp := names (UnaryOp.all.map fun op => (op.name, op))

def constructorTarget : Decoder ConstructorTarget :=
  names (ConstructorTarget.all.map fun t => (t.name, t))

def literal : Decoder Literal :=
  variant [
    ⟨"null", .unit .null⟩,
    ⟨"bool", .value (bool.map .bool)⟩,
    ⟨"number", .value (string.map .number)⟩,
    ⟨"char", .value (string.map .char)⟩,
    ⟨"string", .value (string.map .string)⟩]

def param : Decoder Param :=
  record "struct Param"
    (.of4 (defaulted "modifiers" modifiers []) (required "ty" typeRef) (required "name" string)
      (defaulted "varargs" bool false))
    fun (modifiers, ty, name, varargs, _) => ⟨modifiers, ty, name, varargs⟩

/-! ## Nodes -/

/-- Decoders of the nodes that hold one another. -/
structure Nodes where
  expr : Decoder Expr
  stmt : Decoder Stmt
  member : Decoder Member
  typeDecl : Decoder TypeDecl

namespace Nodes

variable (n : Nodes)

def exprs : Decoder (List Expr) := list n.expr

def members : Decoder (List Member) := list n.member

def block : Decoder (List Stmt) :=
  record "struct Block" (.of1 (required "stmts" (list n.stmt))) fun (stmts, _) => stmts

def declarator : Decoder Declarator :=
  record "struct VarDeclarator"
    (.of2 (required "name" string) (defaulted "init" (option n.expr) none))
    fun (name, init, _) => ⟨name, init⟩

def localVar : Decoder LocalVar :=
  record "struct LocalVarDecl"
    (.of3 (defaulted "modifiers" modifiers []) (required "ty" typeRef)
      (required "declarators" (list n.declarator)))
    fun (modifiers, ty, declarators, _) => ⟨modifiers, ty, declarators⟩

def forInit : Decoder ForInit :=
  variant [⟨"decl", .value (n.localVar.map .declare)⟩, ⟨"exprs", .value (n.exprs.map .exprs)⟩]

def switchLabel : Decoder SwitchLabel :=
  variant [⟨"case", .value (n.expr.map .case)⟩, ⟨"default", .unit .default⟩]

def switchGroup : Decoder SwitchGroup :=
  record "struct SwitchGroup"
    (.of2 (required "labels" (list n.switchLabel)) (required "body" (list n.stmt)))
    fun (labels, body, _) => ⟨labels, body⟩

def resource : Decoder Resource :=
  record "struct Resource"
    (.of3 (required "ty" typeRef) (required "name" string) (required "init" n.expr))
    fun (ty, name, init, _) => ⟨ty, name, init⟩

def catchClause : Decoder CatchClause :=
  record "struct CatchClause"
    (.of3 (required "types" (list typeRef)) (required "name" string) (required "body" n.block))
    fun (types, name, body, _) => ⟨types, name, body⟩

def fieldDecl : Decoder FieldDecl :=
  record "struct FieldDecl"
    (.of3 (defaulted "modifiers" modifiers []) (required "ty" typeRef)
      (required "declarators" (list n.declarator)))
    fun (modifiers, ty, declarators, _) => ⟨modifiers, ty, declarators⟩

def methodDecl : Decoder MethodDecl :=
  record "struct MethodDecl"
    (.of6 (defaulted "modifiers" modifiers []) (defaulted "type_params" (list typeParam) [])
      (defaulted "result" (option typeRef) none) (required "name" string)
      (defaulted "params" (list param) []) (defaulted "body" (option n.block) none))
    fun (modifiers, typeParams, result, name, params, body, _) =>
      ⟨modifiers, typeParams, result, name, params, body⟩

def constructorDecl : Decoder ConstructorDecl :=
  record "struct ConstructorDecl"
    (.of4 (defaulted "modifiers" modifiers []) (required "name" string)
      (defaulted "params" (list param) []) (defaulted "body" n.block []))
    fun (modifiers, name, params, body, _) => ⟨modifiers, name, params, body⟩

def classDecl : Decoder ClassDecl :=
  record "struct ClassDecl"
    (.of6 (defaulted "modifiers" modifiers []) (required "name" string)
      (defaulted "type_params" (list typeParam) [])
      (defaulted "superclass" (option classType) none)
      (defaulted "interfaces" (list classType) []) (defaulted "body" n.members []))
    fun (modifiers, name, typeParams, superclass, interfaces, body, _) =>
      ⟨modifiers, name, typeParams, superclass, interfaces, body⟩

def interfaceDecl : Decoder InterfaceDecl :=
  record "struct InterfaceDecl"
    (.of5 (defaulted "modifiers" modifiers []) (required "name" string)
      (defaulted "type_params" (list typeParam) []) (defaulted "extends" (list classType) [])
      (defaulted "body" n.members []))
    fun (modifiers, name, typeParams, extended, body, _) =>
      ⟨modifiers, name, typeParams, extended, body⟩

def enumConstant : Decoder EnumConstant :=
  record "struct EnumConstant"
    (.of2 (required "name" string) (defaulted "args" n.exprs []))
    fun (name, args, _) => ⟨name, args⟩

def enumDecl : Decoder EnumDecl :=
  record "struct EnumDecl"
    (.of5 (defaulted "modifiers" modifiers []) (required "name" string)
      (defaulted "interfaces" (list classType) []) (required "constants" (list n.enumConstant))
      (defaulted "body" n.members []))
    fun (modifiers, name, interfaces, constants, body, _) =>
      ⟨modifiers, name, interfaces, constants, body⟩

/-! ### One level of nodes from the level below -/

def exprStep : Decoder Expr :=
  variant [
    ⟨"literal", .value (literal.map .literal)⟩,
    ⟨"name", .value (string.map .name)⟩,
    ⟨"this", .unit .thisRef⟩,
    ⟨"super", .unit .superRef⟩,
    ⟨"paren", .value (n.expr.map .paren)⟩,
    ⟨"field_access", .fields (record "struct variant Expr::FieldAccess"
      (.of2 (required "target" n.expr) (required "name" string))
      fun (target, name, _) => .field target name)⟩,
    ⟨"call", .fields (record "struct variant Expr::Call"
      (.of4 (defaulted "target" (option n.expr) none) (defaulted "type_args" (list typeRef) [])
        (required "name" string) (defaulted "args" n.exprs []))
      fun (target, typeArgs, name, args, _) => .call target typeArgs name args)⟩,
    ⟨"new", .fields (record "struct variant Expr::New"
      (.of3 (required "ty" classType) (defaulted "args" n.exprs [])
        (defaulted "body" (option n.members) none))
      fun (ty, args, body, _) => .create ty args body)⟩,
    ⟨"new_array", .fields (record "struct variant Expr::NewArray"
      (.of4 (required "element" typeRef) (defaulted "dims" n.exprs [])
        (defaulted "extra_dims" count 0) (defaulted "init" (option n.exprs) none))
      fun (element, dims, extraDims, init, _) => .createArray element dims extraDims init)⟩,
    ⟨"array_init", .value (n.exprs.map .arrayInit)⟩,
    ⟨"array_access", .fields (record "struct variant Expr::ArrayAccess"
      (.of2 (required "array" n.expr) (required "index" n.expr))
      fun (array, index, _) => .index array index)⟩,
    ⟨"assign", .fields (record "struct variant Expr::Assign"
      (.of3 (required "target" n.expr) (required "op" assignOp) (required "value" n.expr))
      fun (target, op, value, _) => .assign target op value)⟩,
    ⟨"unary", .fields (record "struct variant Expr::Unary"
      (.of2 (required "op" unaryOp) (required "operand" n.expr))
      fun (op, operand, _) => .unary op operand)⟩,
    ⟨"binary", .fields (record "struct variant Expr::Binary"
      (.of3 (required "left" n.expr) (required "op" binaryOp) (required "right" n.expr))
      fun (left, op, right, _) => .binary left op right)⟩,
    ⟨"instance_of", .fields (record "struct variant Expr::InstanceOf"
      (.of2 (required "expr" n.expr) (required "ty" typeRef))
      fun (operand, ty, _) => .instanceOf operand ty)⟩,
    ⟨"conditional", .fields (record "struct variant Expr::Conditional"
      (.of3 (required "cond" n.expr) (required "then" n.expr) (required "otherwise" n.expr))
      fun (cond, then', otherwise, _) => .conditional cond then' otherwise)⟩,
    ⟨"cast", .fields (record "struct variant Expr::Cast"
      (.of2 (required "ty" typeRef) (required "expr" n.expr))
      fun (ty, operand, _) => .cast ty operand)⟩]

def stmtStep : Decoder Stmt :=
  variant [
    ⟨"block", .value (n.block.map .block)⟩,
    ⟨"local_var", .value (n.localVar.map .localVar)⟩,
    ⟨"expr", .value (n.expr.map .expr)⟩,
    ⟨"if", .fields (record "struct variant Stmt::If"
      (.of3 (required "cond" n.expr) (required "then" n.stmt)
        (defaulted "otherwise" (option n.stmt) none))
      fun (cond, then', otherwise, _) => .ifElse cond then' otherwise)⟩,
    ⟨"while", .fields (record "struct variant Stmt::While"
      (.of2 (required "cond" n.expr) (required "body" n.stmt))
      fun (cond, body, _) => .whileLoop cond body)⟩,
    ⟨"do_while", .fields (record "struct variant Stmt::DoWhile"
      (.of2 (required "body" n.stmt) (required "cond" n.expr))
      fun (body, cond, _) => .doWhile body cond)⟩,
    ⟨"for", .fields (record "struct variant Stmt::For"
      (.of4 (defaulted "init" (option n.forInit) none) (defaulted "cond" (option n.expr) none)
        (defaulted "update" n.exprs []) (required "body" n.stmt))
      fun (init, cond, update, body, _) => .forLoop init cond update body)⟩,
    ⟨"for_each", .fields (record "struct variant Stmt::ForEach"
      (.of4 (required "ty" typeRef) (required "name" string) (required "iterable" n.expr)
        (required "body" n.stmt))
      fun (ty, name, iterable, body, _) => .forEach ty name iterable body)⟩,
    ⟨"switch", .fields (record "struct variant Stmt::Switch"
      (.of2 (required "selector" n.expr) (required "groups" (list n.switchGroup)))
      fun (selector, groups, _) => .switch selector groups)⟩,
    ⟨"break", .value ((option string).map .breakTo)⟩,
    ⟨"continue", .value ((option string).map .continueTo)⟩,
    ⟨"labeled", .fields (record "struct variant Stmt::Labeled"
      (.of2 (required "label" string) (required "body" n.stmt))
      fun (label, body, _) => .labeled label body)⟩,
    ⟨"synchronized", .fields (record "struct variant Stmt::Synchronized"
      (.of2 (required "lock" n.expr) (required "body" n.block))
      fun (lock, body, _) => .synchronized lock body)⟩,
    ⟨"constructor_call", .fields (record "struct variant Stmt::ConstructorCall"
      (.of2 (required "target" constructorTarget) (defaulted "args" n.exprs []))
      fun (target, args, _) => .constructorCall target args)⟩,
    ⟨"return", .value ((option n.expr).map .returnValue)⟩,
    ⟨"throw", .value (n.expr.map .throwValue)⟩,
    ⟨"try", .fields (record "struct variant Stmt::Try"
      (.of4 (defaulted "resources" (list n.resource) []) (required "body" n.block)
        (defaulted "catches" (list n.catchClause) []) (defaulted "finally" (option n.block) none))
      fun (resources, body, catches, finally', _) => .tryCatch resources body catches finally')⟩,
    ⟨"empty", .unit .empty⟩]

def memberStep : Decoder Member :=
  variant [
    ⟨"field", .value (n.fieldDecl.map .field)⟩,
    ⟨"method", .value (n.methodDecl.map .method)⟩,
    ⟨"constructor", .value (n.constructorDecl.map .constructor)⟩,
    ⟨"type", .value (n.typeDecl.map .type)⟩,
    ⟨"initializer", .value (n.block.map .initializer)⟩]

def typeDeclStep : Decoder TypeDecl :=
  variant [
    ⟨"class", .value (n.classDecl.map .ofClass)⟩,
    ⟨"interface", .value (n.interfaceDecl.map .ofInterface)⟩,
    ⟨"enum", .value (n.enumDecl.map .ofEnum)⟩]

def step : Nodes := ⟨n.exprStep, n.stmtStep, n.memberStep, n.typeDeclStep⟩

/-- Nodes less than `k` nodes deep. -/
def upTo : Nat → Nodes
  | 0 => ⟨refuse, refuse, refuse, refuse⟩
  | k + 1 => (upTo k).step

end Nodes

/-- The decoders of all nodes. -/
def nodes : Nodes := Nodes.upTo (depthLimit + 1)

/-! ## Units -/

def importMember : Decoder ImportMember :=
  variant [⟨"single", .value (string.map .single)⟩, ⟨"wildcard", .unit .wildcard⟩]

def importDecl : Decoder Import :=
  record "struct Import"
    (.of2 (required "package" string) (required "member" importMember))
    fun (package, member, _) => ⟨package, member⟩

def unit : Decoder CompilationUnit :=
  record "struct CompilationUnit"
    (.of3 (defaulted "package" (option string) none) (defaulted "imports" (list importDecl) [])
      (defaulted "types" (list nodes.typeDecl) []))
    fun (package, imports, types, _) => ⟨package, imports, types⟩

end Decode

end CeylonFromJava.Java
