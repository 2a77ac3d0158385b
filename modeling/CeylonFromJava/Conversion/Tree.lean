import CeylonFromJava.Ceylon.Name
import CeylonFromJava.Ceylon.Tree
import CeylonFromJava.Conversion.Config
import CeylonFromJava.Conversion.Operand
import CeylonFromJava.Conversion.Scope
import CeylonFromJava.Conversion.Types

/-! Java trees as Ceylon trees.

Where the languages differ:

* `c ? a : b` is `if (c) then a else b`, and `~x` is `x.not`.
* `x != null` is `exists x`; a compound operand is bound to a name.
* Elements of arrays are read with `get` and written with `set`; a compound assignment reads and
  writes, and what has side effects is bound first.
* Casts are dropped, but a local value that starts with a cast is asserted to have the type, unless
  a surrounding `if` has tested it.
* In an `if`, the `&&` chain is a list of conditions and type tests narrow.
* Loops are `while` loops. What a counting loop or a `do` loop runs at the end of a round is
  written at the end of the body and before every `continue`.
* A `switch` does not fall through: each group is a case with its first label, the default comes
  last.
* Labels and locks are dropped. -/
namespace CeylonFromJava.Conversion
set_option autoImplicit false

open Java (Precedence AssignOp UnaryOp Modifier)
open Ceylon (Slot Condition Else)

/-- Settings, and how the tail of a loop is repeated before a `continue`. -/
structure Env where
  config : Config
  repeatTail : Scope → LoopTail → List Ceylon.Stmt

/-- The body that members belong to. -/
inductive Owner where
  | ofClass
  | ofInterface
  | ofEnum (name : String)

/-! ## Parts -/

/-- Parentheses if they are needed. -/
def grouped (needed : Bool) (e : Ceylon.Expr) : Ceylon.Expr :=
  if needed then .paren e else e

/-- An element of an array: the two operands, whether they may be written twice, and whether the
array needs parentheses in front of a point. -/
structure Element where
  array : Ceylon.Expr
  loose : Bool
  arrayPure : Bool
  index : Ceylon.Expr
  indexPure : Bool

namespace Element

/-- The array in front of a point. -/
def target (e : Element) : Ceylon.Expr := grouped e.loose e.array

def arraySlot (e : Element) : Slot := if e.arrayPure then .direct e.target else .bound e.array

def indexSlot (e : Element) : Slot := if e.indexPure then .direct e.index else .bound e.index

end Element

/-- The property that a call reads, if accessor calls are converted. -/
def propertyOf (config : Config) (name : String) (args : List Java.Expr) : Option String :=
  if config.convertGetters && args.isEmpty then Ceylon.Name.property name else none

/-- Whether a comparison asks for `null`. -/
def isNullTest (op : Java.BinaryOp) (right : Java.Expr) : Bool :=
  (op == .eq || op == .ne) && right.unparenthesized.isNull

/-- Whether the initial value of a local is a cast that nothing around it has tested. -/
def isAsserted (scope : Scope) (init : Java.Expr) : Bool :=
  match init.unparenthesized with
  | .cast ty operand => !scope.narrows operand ty
  | _ => false

def isPublic (modifiers : List Modifier) : Bool := modifiers.contains .publicAccess

def param (config : Config) (p : Java.Param) : Ceylon.Param :=
  ⟨config.declareMutable, typeRef p.ty, p.varargs, Ceylon.Name.small p.name⟩

/-- How a method is declared: in an interface only marked methods keep their body. -/
def methodKind (owner : Owner) (modifiers : List Modifier) : Ceylon.MethodKind :=
  match owner with
  | .ofInterface => if modifiers.contains .defaultMethod then .replaceable else .formal
  | .ofClass | .ofEnum _ => if modifiers.contains .abstract then .formal else .plain

def isSharedMethod (owner : Owner) (modifiers : List Modifier) : Bool :=
  match owner with
  | .ofInterface => true
  | .ofClass | .ofEnum _ => isPublic modifiers

/-! ## Trees -/

mutual
def expr (env : Env) : Java.Expr → Scope → Ceylon.Expr
  | .literal value, _ => .literal value
  | .name name, _ => .name (Ceylon.Name.word name)
  | .thisRef, _ => .thisRef
  | .superRef, _ => .superRef
  | .paren inner, scope => .paren (expr env inner scope)
  | .field target name, scope =>
    .property (grouped (target.precedence < .postfixed) (expr env target scope))
      (Ceylon.Name.small name)
  | .call target typeArgs name args, scope =>
    if name == "println" && target.any isSystemOut then
      .call none "print" [] (exprs env args scope)
    else
      match propertyOf env.config name args with
      | some property =>
        match callTarget env target scope with
        | none => .name (Ceylon.Name.small property)
        | some owner => .property owner (Ceylon.Name.small property)
      | none =>
        .call (callTarget env target scope) (Ceylon.Name.small name) (typeArgs.map typeRef)
          (exprs env args scope)
  | .create ty args none, scope => .instantiate (classType ty) (exprs env args scope)
  | .create ty args (some body), scope =>
    .object (classType ty) (exprs env args scope) (members env .ofClass body scope)
  | .createArray _ _ _ (some elements), scope => .array (exprs env elements scope)
  | .createArray element dims _ none, scope =>
    .instantiate (arrayType element) (exprs env dims scope)
  | .arrayInit elements, scope => .array (exprs env elements scope)
  | .index array index, scope =>
    .get (grouped (array.precedence < .postfixed) (expr env array scope)) (expr env index scope)
  | .assign target op value, scope =>
    match element env target scope, op with
    | none, _ => .assign (expr env target scope) op (expr env value scope)
    | some e, .plain => .set e.target e.index (expr env value scope)
    | some e, .compound op =>
      .update e.arraySlot e.indexSlot op
        (grouped (value.precedence < op.precedence + 1) (expr env value scope))
  | .unary op operand, scope =>
    match op with
    | .complement =>
      .property (grouped (operand.precedence < .primary) (expr env operand scope)) "not"
    | .postIncrement | .postDecrement =>
      .after (grouped (operand.precedence < .postfixed) (expr env operand scope)) op
    | .plus | .minus | .not | .preIncrement | .preDecrement =>
      .before op (grouped
        (leadingSign operand == op.symbol.toList.head? || operand.precedence < .unary)
        (expr env operand scope))
  | .binary left op right, scope =>
    if isNullTest op right then
      .existence (op == .ne) (if isSimpleName left then none else some (bindingName left))
        (expr env left scope)
    else
      .binary (grouped (left.precedence < op.precedence) (expr env left scope)) op
        (grouped (right.precedence < op.precedence + 1) (expr env right scope))
  | .instanceOf operand ty, scope =>
    .isType (grouped (operand.precedence < .relational) (expr env operand scope)) (typeRef ty)
  | .conditional cond then' otherwise, scope =>
    .conditional (conditions env cond scope fun _ => expr env cond scope) (expr env then' scope)
      (expr env otherwise scope)
  | .cast _ operand, scope => grouped (operand.precedence < .unary) (expr env operand scope)
termination_by structural e => e

def exprs (env : Env) : List Java.Expr → Scope → List Ceylon.Expr
  | [], _ => []
  | e :: es, scope => expr env e scope :: exprs env es scope
termination_by structural e => e

/-- The target of a call, in front of a point. -/
def callTarget (env : Env) : Option Java.Expr → Scope → Option Ceylon.Expr
  | none, _ => none
  | some target, scope =>
    some (grouped (target.precedence < .postfixed) (expr env target scope))
termination_by structural e => e

/-- The element that an assignment target denotes, parentheses left aside. -/
def element (env : Env) : Java.Expr → Scope → Option Element
  | .paren inner, scope => element env inner scope
  | .index array index, scope =>
    some ⟨expr env array scope, array.precedence < .postfixed, isPure array,
      expr env index scope, isPure index⟩
  | _, _ => none
termination_by structural e => e

/-- The condition list of an expression; `whole` is the expression itself. -/
def conditions (env : Env) : Java.Expr → Scope → (Unit → Ceylon.Expr) → List Condition
  | .binary left .and right, scope, _ =>
    conditions env left scope (fun _ => expr env left scope) ++
      conditions env right scope (fun _ => expr env right scope)
  | .instanceOf operand ty, scope, _ => [.isType (typeRef ty) (expr env operand scope)]
  | _, _, whole => [.holds (whole ())]
termination_by structural e => e

/-- Local values, one for each name. -/
def locals (env : Env) : List Java.Declarator → Java.TypeRef → Scope → List Ceylon.Stmt
  | [], _, _ => []
  | ⟨name, none⟩ :: ds, ty, scope =>
    .declare env.config.declareMutable (typeRef ty) (Ceylon.Name.small name) none ::
      locals env ds ty scope
  | ⟨name, some init⟩ :: ds, ty, scope =>
    (if isAsserted scope init then
      .assertType (typeRef ty) (Ceylon.Name.small name) (expr env init scope)
    else
      .declare env.config.declareMutable (typeRef ty) (Ceylon.Name.small name)
        (some (expr env init scope))) ::
      locals env ds ty scope
termination_by structural d => d

/-- Expressions as statements on lines of their own. -/
def exprLines (env : Env) : List Java.Expr → Scope → List Ceylon.Stmt
  | [], _ => []
  | e :: es, scope => .expr (expr env e scope) :: exprLines env es scope
termination_by structural e => e

def forInit (env : Env) : Option Java.ForInit → Scope → List Ceylon.Stmt
  | none, _ => []
  | some (.declare ⟨_, ty, declarators⟩), scope => locals env declarators ty scope
  | some (.exprs es), scope => exprLines env es scope
termination_by structural i => i

/-- The condition of a counting loop; without one it goes on. -/
def loopCondition (env : Env) : Option Java.Expr → Scope → Ceylon.Expr
  | none, _ => .literal (.bool true)
  | some cond, scope => expr env cond scope
termination_by structural e => e

/-- A statement as statements; one that does nothing leaves none. -/
def stmt (env : Env) : Java.Stmt → Scope → List Ceylon.Stmt
  | .block b, scope => [.block (stmts env b scope)]
  | .localVar ⟨_, ty, declarators⟩, scope => locals env declarators ty scope
  | .expr e, scope => exprStmt env e scope (fun _ => expr env e scope)
  | .ifElse cond then' otherwise, scope =>
    let inner := .branch (Narrowing.ofCondition cond) :: scope
    [.ifElse (conditions env cond scope fun _ => expr env cond scope)
      (body env then' inner fun _ => stmt env then' inner) (elseBranch env otherwise scope)]
  | .whileLoop cond b, scope =>
    let inner := .loop .native :: scope
    [.whileLoop (expr env cond scope) (body env b inner fun _ => stmt env b inner)]
  | .doWhile b cond, scope =>
    let inner := .loop (.guard cond) :: scope
    [.whileLoop (.literal (.bool true))
      (body env b inner (fun _ => stmt env b inner) ++ [.breakIf (expr env cond scope)])]
  | .forLoop init cond update b, scope =>
    let inner := .loop (.update update) :: scope
    forInit env init scope ++
      [.whileLoop (loopCondition env cond scope)
        (body env b inner (fun _ => stmt env b inner) ++ exprLines env update scope)]
  | .forEach ty name iterable b, scope =>
    let inner := .loop .native :: scope
    [.forIn (typeRef ty) (Ceylon.Name.small name) (expr env iterable scope)
      (body env b inner fun _ => stmt env b inner)]
  | .switch selector groups, scope =>
    [.switch (expr env selector scope) (cases env groups scope) (defaultBody env groups scope)]
  | .breakTo _, _ => [.breakLoop]
  | .continueTo _, scope =>
    (match scope.loopTail? with
      | none => []
      | some tail => env.repeatTail scope tail) ++ [.continueLoop]
  | .labeled _ b, scope => stmt env b scope
  | .synchronized _ b, scope => [.block (stmts env b scope)]
  | .constructorCall target args, scope => [.delegate target (exprs env args scope)]
  | .returnValue none, _ => [.returnValue none]
  | .returnValue (some value), scope => [.returnValue (some (expr env value scope))]
  | .throwValue value, scope => [.throwValue (expr env value scope)]
  | .tryCatch resources b catches finally', scope =>
    [.tryCatch (resourceList env resources scope) (stmts env b scope)
      (catchList env catches scope) (optionalBlock env finally' scope)]
  | .empty, _ => []
termination_by structural s => s

/-- An expression as a statement; a compound assignment to an element binds values on lines before.
-/
def exprStmt (env : Env) : Java.Expr → Scope → (Unit → Ceylon.Expr) → List Ceylon.Stmt
  | .assign target (.compound op) value, scope, whole =>
    match element env target scope with
    | some e =>
      [.update e.arraySlot e.indexSlot op
        (grouped (value.precedence < op.precedence + 1) (expr env value scope))]
    | none => [.expr (whole ())]
  | _, _, whole => [.expr (whole ())]
termination_by structural e => e

/-- The statements of a branch or a loop: those of a block, or the statement alone, which is
`whole`. -/
def body (env : Env) : Java.Stmt → Scope → (Unit → List Ceylon.Stmt) → List Ceylon.Stmt
  | .block b, scope, _ => stmts env b scope
  | _, _, whole => whole ()
termination_by structural s => s

def elseBranch (env : Env) : Option Java.Stmt → Scope → Else
  | none, _ => .absent
  | some (.ifElse cond then' otherwise), scope =>
    let inner := .branch (Narrowing.ofCondition cond) :: scope
    .chained (conditions env cond scope fun _ => expr env cond scope)
      (body env then' inner fun _ => stmt env then' inner) (elseBranch env otherwise scope)
  | some s, scope =>
    let inner := .branch [] :: scope
    .block (body env s inner fun _ => stmt env s inner)
termination_by structural s => s

def stmts (env : Env) : List Java.Stmt → Scope → List Ceylon.Stmt
  | [], _ => []
  | s :: ss, scope => stmt env s scope ++ stmts env ss scope
termination_by structural s => s

def optionalBlock (env : Env) : Option (List Java.Stmt) → Scope → Option (List Ceylon.Stmt)
  | none, _ => none
  | some b, scope => some (stmts env b scope)
termination_by structural s => s

/-- The statements of a case, without the `break`s that end it. -/
def caseBody (env : Env) : List Java.Stmt → Scope → List Ceylon.Stmt
  | [], _ => []
  | .breakTo none :: ss, scope => caseBody env ss scope
  | s :: ss, scope => stmt env s scope ++ caseBody env ss scope
termination_by structural s => s

/-- The value of the first label that has one. -/
def firstLabel (env : Env) : List Java.SwitchLabel → Scope → Option Ceylon.Expr
  | [], _ => none
  | .case value :: _, scope => some (expr env value scope)
  | .default :: labels, scope => firstLabel env labels scope
termination_by structural l => l

/-- A case for every group that is not the default and has a label. -/
def cases (env : Env) : List Java.SwitchGroup → Scope → List Ceylon.Case
  | [], _ => []
  | ⟨labels, b⟩ :: groups, scope =>
    match firstLabel env labels scope with
    | none => cases env groups scope
    | some label =>
      if (⟨labels, b⟩ : Java.SwitchGroup).isDefault then cases env groups scope
      else ⟨label, caseBody env b scope⟩ :: cases env groups scope
termination_by structural g => g

/-- The statements of the first default group. -/
def defaultBody (env : Env) : List Java.SwitchGroup → Scope → Option (List Ceylon.Stmt)
  | [], _ => none
  | ⟨labels, b⟩ :: groups, scope =>
    if (⟨labels, b⟩ : Java.SwitchGroup).isDefault then some (caseBody env b scope)
    else defaultBody env groups scope
termination_by structural g => g

def resourceList (env : Env) : List Java.Resource → Scope → List Ceylon.Resource
  | [], _ => []
  | ⟨ty, name, init⟩ :: rs, scope =>
    ⟨typeRef ty, Ceylon.Name.small name, expr env init scope⟩ :: resourceList env rs scope
termination_by structural r => r

def catchList (env : Env) : List Java.CatchClause → Scope → List Ceylon.Catch
  | [], _ => []
  | ⟨types, name, b⟩ :: cs, scope =>
    ⟨types.map typeRef, Ceylon.Name.small name, stmts env b scope⟩ :: catchList env cs scope
termination_by structural c => c

def fieldList (env : Env) : List Java.Declarator → Scope → List Ceylon.Declarator
  | [], _ => []
  | ⟨name, none⟩ :: ds, scope => ⟨Ceylon.Name.small name, none⟩ :: fieldList env ds scope
  | ⟨name, some init⟩ :: ds, scope =>
    ⟨Ceylon.Name.small name, some (expr env init scope)⟩ :: fieldList env ds scope
termination_by structural d => d

def member (env : Env) (owner : Owner) : Java.Member → Scope → Ceylon.Member
  | .field ⟨modifiers, ty, declarators⟩, scope =>
    .fields (isPublic modifiers) env.config.declareMutable (typeRef ty)
      (fieldList env declarators scope)
  | .method ⟨modifiers, typeParams, result, name, params, b⟩, scope =>
    let kind := methodKind owner modifiers
    .method ⟨isSharedMethod owner modifiers, modifiers.contains .override, kind,
      result.map typeRef, Ceylon.Name.small name, typeParams.map typeParam,
      params.map (param env.config),
      if kind == .formal then none else optionalBlock env b scope⟩
  | .constructor ⟨modifiers, _, params, b⟩, scope =>
    match owner with
    | .ofEnum name =>
      .enumConstructor name (params.map (param env.config)) (stmts env b scope)
    | .ofClass | .ofInterface =>
      .constructor (isPublic modifiers) (params.map (param env.config)) (stmts env b scope)
  | .type decl, scope => .type (typeDecl env decl scope)
  | .initializer b, scope => .statements (stmts env b scope)
termination_by structural m => m

def members (env : Env) (owner : Owner) : List Java.Member → Scope → List Ceylon.Member
  | [], _ => []
  | m :: ms, scope => member env owner m scope :: members env owner ms scope
termination_by structural m => m

def constantList (env : Env) : List Java.EnumConstant → Scope → List Ceylon.Constant
  | [], _ => []
  | ⟨name, args⟩ :: cs, scope => ⟨name, exprs env args scope⟩ :: constantList env cs scope
termination_by structural c => c

def typeDecl (env : Env) : Java.TypeDecl → Scope → Ceylon.TypeDecl
  | .ofClass ⟨modifiers, name, typeParams, superclass, interfaces, b⟩, scope =>
    .ofClass ⟨isPublic modifiers, modifiers.contains .abstract, name, typeParams.map typeParam,
      !b.any Java.Member.isConstructor, superclass.map classType, interfaces.map classType,
      members env .ofClass b scope⟩
  | .ofInterface ⟨modifiers, name, typeParams, extended, b⟩, scope =>
    .ofInterface ⟨isPublic modifiers, name, typeParams.map typeParam, extended.map classType,
      members env .ofInterface b scope⟩
  | .ofEnum ⟨modifiers, name, interfaces, constants, b⟩, scope =>
    .ofEnumeration ⟨isPublic modifiers, name, interfaces.map classType,
      members env (.ofEnum name) b scope, constantList env constants scope⟩
termination_by structural t => t
end

/-! ## Tails of loops -/

/-- What a loop runs at the end of a round. -/
def tail (env : Env) (scope : Scope) : LoopTail → List Ceylon.Stmt
  | .native => []
  | .update es => exprLines env es scope
  | .guard cond => [.breakIf (expr env cond scope)]

/-- Settings with which tails inside tails are repeated `budget` deep; beyond that, `last` stands
for the tail. -/
def Env.upTo (config : Config) (last : Scope → LoopTail → List Ceylon.Stmt) : Nat → Env
  | 0 => ⟨config, last⟩
  | budget + 1 => ⟨config, tail (Env.upTo config last budget)⟩

end CeylonFromJava.Conversion
