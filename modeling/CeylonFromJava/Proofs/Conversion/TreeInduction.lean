import CeylonFromJava.Proofs.Conversion.TreeParts

/-! Induction along the conversion.

A property says something of each tree in its surroundings. The main statement: if the hypothesis `H`
passes from a tree to its parts, and `P` passes from the parts to the tree wherever `H` holds, then `P`
holds wherever `H` does. The parts are those that the conversion looks at, in the surroundings in which
it does: a branch below the tests of its condition, the body of a loop below the tail of the loop, the
items of a condition and the operands of an assigned element beside the whole expression. -/
namespace CeylonFromJava.Conversion
set_option autoImplicit false

/-- The first value among the labels stands in a label. -/
theorem mem_labels_of_firstCase {g : Java.SwitchGroup} {e : Java.Expr} (h : e ∈ g.firstCase) :
    .case e ∈ g.labels := by
  obtain ⟨label, hlabel, he⟩ := List.exists_of_findSome?_eq_some h
  cases label with
  | «case» value =>
    cases he
    exact hlabel
  | default => cases he

structure Property where
  expr : Java.Expr → Scope → Prop
  stmt : Java.Stmt → Scope → Prop
  /-- Of what stands behind an `else`. -/
  otherwise : Option Java.Stmt → Scope → Prop
  member : Owner → Java.Member → Scope → Prop
  typeDecl : Java.TypeDecl → Scope → Prop

namespace Property

/-! ## Parts of a tree -/

section

variable (P : Property)

abbrev exprs (es : List Java.Expr) (scope : Scope) : Prop := ∀ e ∈ es, P.expr e scope

abbrev exprOption (e : Option Java.Expr) (scope : Scope) : Prop := ∀ e' ∈ e, P.expr e' scope

abbrev stmts (ss : List Java.Stmt) (scope : Scope) : Prop := ∀ s ∈ ss, P.stmt s scope

/-- The statements of a branch or of the body of a loop. -/
abbrev body (s : Java.Stmt) (scope : Scope) : Prop := P.stmts s.parts scope

abbrev blockOption (b : Option (List Java.Stmt)) (scope : Scope) : Prop :=
  ∀ ss ∈ b, P.stmts ss scope

abbrev members (owner : Owner) (ms : List Java.Member) (scope : Scope) : Prop :=
  ∀ m ∈ ms, P.member owner m scope

/-- The operands of the element that is assigned to, if it is one. -/
abbrev element (target : Java.Expr) (scope : Scope) : Prop :=
  ∀ array index, target.unparenthesized = .index array index → P.expr array scope ∧ P.expr index scope

/-- What an assignment that is a statement is made of. -/
abbrev effect (e : Java.Expr) (scope : Scope) : Prop :=
  ∀ target op value, e = .assign target op value → P.element target scope ∧ P.expr value scope

/-- What is written in an item of a condition list. -/
def item : Java.Expr → Scope → Prop
  | .instanceOf operand _, scope => P.expr operand scope
  | e, scope => P.expr e scope

abbrev conditions (cond : Java.Expr) (scope : Scope) : Prop :=
  ∀ e ∈ conjuncts cond, P.item e scope

abbrev inits (ds : List Java.Declarator) (scope : Scope) : Prop :=
  ∀ d ∈ ds, P.exprOption d.init scope

def forInit : Option Java.ForInit → Scope → Prop
  | none, _ => True
  | some (.declare decl), scope => P.inits decl.declarators scope
  | some (.exprs es), scope => P.exprs es scope

/-- What a `continue` repeats. -/
def tail : LoopTail → Scope → Prop
  | .native, _ => True
  | .update es, scope => P.exprs es scope
  | .guard cond, scope => P.expr cond scope

abbrev labels (ls : List Java.SwitchLabel) (scope : Scope) : Prop :=
  ∀ e, .case e ∈ ls → P.expr e scope

abbrev groups (gs : List Java.SwitchGroup) (scope : Scope) : Prop :=
  ∀ g ∈ gs, P.labels g.labels scope ∧ P.stmts g.body scope

end

/-! ## Hypotheses and conclusions -/

/-- The parts of a tree have the property if the tree has it. What the conversion leaves out is no part:
the sizes of an array with elements, and the lock of a `synchronized` block. -/
structure Hereditary (H : Property) : Prop where
  paren : ∀ {e scope}, H.expr (.paren e) scope → H.expr e scope
  field : ∀ {e x scope}, H.expr (.field e x) scope → H.expr e scope
  call : ∀ {target typeArgs x args scope}, H.expr (.call target typeArgs x args) scope →
    H.exprOption target scope ∧ H.exprs args scope
  create : ∀ {ty args scope}, H.expr (.create ty args none) scope → H.exprs args scope
  object : ∀ {ty args ms scope}, H.expr (.create ty args (some ms)) scope →
    H.exprs args scope ∧ H.members .ofClass ms scope
  createArray : ∀ {ty dims extraDims scope}, H.expr (.createArray ty dims extraDims none) scope →
    H.exprs dims scope
  arrayOf : ∀ {ty dims extraDims es scope}, H.expr (.createArray ty dims extraDims (some es)) scope →
    H.exprs es scope
  arrayInit : ∀ {es scope}, H.expr (.arrayInit es) scope → H.exprs es scope
  index : ∀ {a b scope}, H.expr (.index a b) scope → H.expr a scope ∧ H.expr b scope
  assign : ∀ {a op b scope}, H.expr (.assign a op b) scope → H.expr a scope ∧ H.expr b scope
  unary : ∀ {op e scope}, H.expr (.unary op e) scope → H.expr e scope
  binary : ∀ {a op b scope}, H.expr (.binary a op b) scope → H.expr a scope ∧ H.expr b scope
  instanceOf : ∀ {e ty scope}, H.expr (.instanceOf e ty) scope → H.expr e scope
  conditional : ∀ {a b c scope}, H.expr (.conditional a b c) scope →
    H.expr a scope ∧ H.expr b scope ∧ H.expr c scope
  cast : ∀ {ty e scope}, H.expr (.cast ty e) scope → H.expr e scope
  block : ∀ {b scope}, H.stmt (.block b) scope → H.stmts b scope
  localVar : ∀ {decl scope}, H.stmt (.localVar decl) scope → H.inits decl.declarators scope
  exprStmt : ∀ {e scope}, H.stmt (.expr e) scope → H.expr e scope
  ifElse : ∀ {cond s otherwise scope}, H.stmt (.ifElse cond s otherwise) scope →
    H.expr cond scope ∧ H.stmt s (.branch (Narrowing.ofCondition cond) :: scope) ∧
      H.otherwise otherwise scope
  whileLoop : ∀ {cond b scope}, H.stmt (.whileLoop cond b) scope →
    H.expr cond scope ∧ H.stmt b (.loop .native :: scope)
  doWhile : ∀ {b cond scope}, H.stmt (.doWhile b cond) scope →
    H.stmt b (.loop (.guard cond) :: scope) ∧ H.expr cond scope
  forLoop : ∀ {init cond update b scope}, H.stmt (.forLoop init cond update b) scope →
    H.forInit init scope ∧ H.exprOption cond scope ∧ H.exprs update scope ∧
      H.stmt b (.loop (.update update) :: scope)
  forEach : ∀ {ty x e b scope}, H.stmt (.forEach ty x e b) scope →
    H.expr e scope ∧ H.stmt b (.loop .native :: scope)
  switch : ∀ {selector gs scope}, H.stmt (.switch selector gs) scope →
    H.expr selector scope ∧ H.groups gs scope
  labeled : ∀ {label s scope}, H.stmt (.labeled label s) scope → H.stmt s scope
  synchronized : ∀ {lock b scope}, H.stmt (.synchronized lock b) scope → H.stmts b scope
  constructorCall : ∀ {target args scope}, H.stmt (.constructorCall target args) scope →
    H.exprs args scope
  returnValue : ∀ {value scope}, H.stmt (.returnValue value) scope → H.exprOption value scope
  throwValue : ∀ {e scope}, H.stmt (.throwValue e) scope → H.expr e scope
  tryCatch : ∀ {rs b cs last scope}, H.stmt (.tryCatch rs b cs last) scope →
    (∀ r ∈ rs, H.expr r.init scope) ∧ H.stmts b scope ∧ (∀ c ∈ cs, H.stmts c.body scope) ∧
      H.blockOption last scope
  chained : ∀ {cond s otherwise scope}, H.otherwise (some (.ifElse cond s otherwise)) scope →
    H.stmt (.ifElse cond s otherwise) scope
  alternative : ∀ {s scope}, isIf s = false → H.otherwise (some s) scope →
    H.stmt s (.branch [] :: scope)
  fields : ∀ {owner decl scope}, H.member owner (.field decl) scope → H.inits decl.declarators scope
  method : ∀ {owner decl scope}, H.member owner (.method decl) scope → H.blockOption decl.body scope
  constructor : ∀ {owner decl scope}, H.member owner (.constructor decl) scope →
    H.stmts decl.body scope
  type : ∀ {owner decl scope}, H.member owner (.type decl) scope → H.typeDecl decl scope
  initializer : ∀ {owner b scope}, H.member owner (.initializer b) scope → H.stmts b scope
  ofClass : ∀ {decl scope}, H.typeDecl (.ofClass decl) scope → H.members .ofClass decl.body scope
  ofInterface : ∀ {decl scope}, H.typeDecl (.ofInterface decl) scope →
    H.members .ofInterface decl.body scope
  ofEnum : ∀ {decl scope}, H.typeDecl (.ofEnum decl) scope →
    H.members (.ofEnum decl.name) decl.body scope ∧ ∀ c ∈ decl.constants, H.exprs c.args scope

/-- A tree with the property `H` has the property `P` if its parts have it. -/
structure Closed (H P : Property) : Prop where
  literal : ∀ {value scope}, H.expr (.literal value) scope → P.expr (.literal value) scope
  name : ∀ {x scope}, H.expr (.name x) scope → P.expr (.name x) scope
  thisRef : ∀ {scope}, P.expr .thisRef scope
  superRef : ∀ {scope}, P.expr .superRef scope
  paren : ∀ {e scope}, P.expr e scope → P.expr (.paren e) scope
  field : ∀ {e x scope}, H.expr (.field e x) scope → P.expr e scope → P.expr (.field e x) scope
  call : ∀ {target typeArgs x args scope}, H.expr (.call target typeArgs x args) scope →
    P.exprOption target scope → P.exprs args scope → P.expr (.call target typeArgs x args) scope
  create : ∀ {ty args scope}, H.expr (.create ty args none) scope → P.exprs args scope →
    P.expr (.create ty args none) scope
  object : ∀ {ty args ms scope}, H.expr (.create ty args (some ms)) scope → P.exprs args scope →
    P.members .ofClass ms scope → P.expr (.create ty args (some ms)) scope
  createArray : ∀ {ty dims extraDims scope}, H.expr (.createArray ty dims extraDims none) scope →
    P.exprs dims scope → P.expr (.createArray ty dims extraDims none) scope
  arrayOf : ∀ {ty dims extraDims es scope}, H.expr (.createArray ty dims extraDims (some es)) scope →
    P.exprs es scope → P.expr (.createArray ty dims extraDims (some es)) scope
  arrayInit : ∀ {es scope}, H.expr (.arrayInit es) scope → P.exprs es scope →
    P.expr (.arrayInit es) scope
  index : ∀ {a b scope}, P.expr a scope → P.expr b scope → P.expr (.index a b) scope
  assign : ∀ {target op value scope}, P.expr target scope → P.element target scope →
    P.expr value scope → P.expr (.assign target op value) scope
  unary : ∀ {op e scope}, P.expr e scope → P.expr (.unary op e) scope
  binary : ∀ {a op b scope}, P.expr a scope → P.expr b scope → P.expr (.binary a op b) scope
  instanceOf : ∀ {e ty scope}, H.expr (.instanceOf e ty) scope → P.expr e scope →
    P.expr (.instanceOf e ty) scope
  conditional : ∀ {a b c scope}, H.expr a scope → P.expr a scope → P.conditions a scope →
    P.expr b scope → P.expr c scope → P.expr (.conditional a b c) scope
  cast : ∀ {ty e scope}, P.expr e scope → P.expr (.cast ty e) scope
  block : ∀ {b scope}, P.stmts b scope → P.stmt (.block b) scope
  localVar : ∀ {decl scope}, H.stmt (.localVar decl) scope → P.inits decl.declarators scope →
    P.stmt (.localVar decl) scope
  exprStmt : ∀ {e scope}, P.expr e scope → P.effect e scope → P.stmt (.expr e) scope
  ifElse : ∀ {cond s otherwise scope}, H.stmt (.ifElse cond s otherwise) scope →
    P.expr cond scope → P.conditions cond scope →
    P.body s (.branch (Narrowing.ofCondition cond) :: scope) → P.otherwise otherwise scope →
      P.stmt (.ifElse cond s otherwise) scope ∧ P.otherwise (some (.ifElse cond s otherwise)) scope
  whileLoop : ∀ {cond b scope}, P.expr cond scope → P.body b (.loop .native :: scope) →
    P.stmt (.whileLoop cond b) scope
  doWhile : ∀ {b cond scope}, P.body b (.loop (.guard cond) :: scope) → P.expr cond scope →
    P.stmt (.doWhile b cond) scope
  forLoop : ∀ {init cond update b scope}, H.stmt (.forLoop init cond update b) scope →
    P.forInit init scope → P.exprOption cond scope → P.exprs update scope →
      P.body b (.loop (.update update) :: scope) → P.stmt (.forLoop init cond update b) scope
  forEach : ∀ {ty x e b scope}, H.stmt (.forEach ty x e b) scope → P.expr e scope →
    P.body b (.loop .native :: scope) → P.stmt (.forEach ty x e b) scope
  switch : ∀ {selector gs scope}, P.expr selector scope → P.groups gs scope →
    P.stmt (.switch selector gs) scope
  breakTo : ∀ {label scope}, P.stmt (.breakTo label) scope
  continueTo : ∀ {label scope}, H.stmt (.continueTo label) scope → P.stmt (.continueTo label) scope
  labeled : ∀ {label s scope}, P.stmt s scope → P.stmt (.labeled label s) scope
  synchronized : ∀ {lock b scope}, P.stmts b scope → P.stmt (.synchronized lock b) scope
  constructorCall : ∀ {target args scope}, P.exprs args scope →
    P.stmt (.constructorCall target args) scope
  returnValue : ∀ {value scope}, P.exprOption value scope → P.stmt (.returnValue value) scope
  throwValue : ∀ {e scope}, P.expr e scope → P.stmt (.throwValue e) scope
  tryCatch : ∀ {rs b cs last scope}, H.stmt (.tryCatch rs b cs last) scope →
    (∀ r ∈ rs, P.expr r.init scope) → P.stmts b scope → (∀ c ∈ cs, P.stmts c.body scope) →
      P.blockOption last scope → P.stmt (.tryCatch rs b cs last) scope
  empty : ∀ {scope}, P.stmt .empty scope
  absent : ∀ {scope}, P.otherwise none scope
  alternative : ∀ {s scope}, isIf s = false → P.body s (.branch [] :: scope) →
    P.otherwise (some s) scope
  fields : ∀ {owner decl scope}, H.member owner (.field decl) scope →
    P.inits decl.declarators scope → P.member owner (.field decl) scope
  method : ∀ {owner decl scope}, H.member owner (.method decl) scope →
    P.blockOption decl.body scope → P.member owner (.method decl) scope
  constructor : ∀ {owner decl scope}, H.member owner (.constructor decl) scope →
    P.stmts decl.body scope → P.member owner (.constructor decl) scope
  type : ∀ {owner decl scope}, P.typeDecl decl scope → P.member owner (.type decl) scope
  initializer : ∀ {owner b scope}, P.stmts b scope → P.member owner (.initializer b) scope
  ofClass : ∀ {decl scope}, H.typeDecl (.ofClass decl) scope → P.members .ofClass decl.body scope →
    P.typeDecl (.ofClass decl) scope
  ofInterface : ∀ {decl scope}, H.typeDecl (.ofInterface decl) scope →
    P.members .ofInterface decl.body scope → P.typeDecl (.ofInterface decl) scope
  ofEnum : ∀ {decl scope}, H.typeDecl (.ofEnum decl) scope →
    P.members (.ofEnum decl.name) decl.body scope → (∀ c ∈ decl.constants, P.exprs c.args scope) →
      P.typeDecl (.ofEnum decl) scope

/-- What holds without a hypothesis. -/
def anything : Property := ⟨fun _ _ => True, fun _ _ => True, fun _ _ => True, fun _ _ _ => True,
  fun _ _ => True⟩

theorem anything_hereditary : anything.Hereditary := by
  have hinit : ∀ init scope, anything.forInit init scope := by
    intro init scope
    match init with
    | none | some (.declare _) | some (.exprs _) => simp [forInit, anything, inits, exprOption, exprs]
  constructor <;> intros <;> simp [anything, exprs, exprOption, stmts, blockOption, members, inits,
    labels, groups] <;> exact hinit _ _

theorem anything_tail {t : LoopTail} {scope : Scope} : anything.tail t scope := by
  cases t with
  | native | guard _ => trivial
  | update _ => exact fun _ _ => trivial

/-! ## The induction -/

namespace Closed

variable {H P : Property}

mutual
theorem expr (hH : H.Hereditary) (h : H.Closed P) : (e : Java.Expr) → (scope : Scope) →
    H.expr e scope → P.expr e scope
  | .literal _, _, he => h.literal he
  | .name _, _, he => h.name he
  | .thisRef, _, _ => h.thisRef
  | .superRef, _, _ => h.superRef
  | .paren e, scope, he => h.paren (h.expr hH e scope (hH.paren he))
  | .field e _, scope, he => h.field he (h.expr hH e scope (hH.field he))
  | .call target _ _ args, scope, he => by
    obtain ⟨ht, ha⟩ := hH.call he
    exact h.call he (h.exprOption hH target scope ht) (h.exprs hH args scope ha)
  | .create _ args none, scope, he => h.create he (h.exprs hH args scope (hH.create he))
  | .create _ args (some ms), scope, he => by
    obtain ⟨ha, hms⟩ := hH.object he
    exact h.object he (h.exprs hH args scope ha) (h.members hH .ofClass ms scope hms)
  | .createArray _ dims _ none, scope, he =>
    h.createArray he (h.exprs hH dims scope (hH.createArray he))
  | .createArray _ _ _ (some es), scope, he => h.arrayOf he (h.exprs hH es scope (hH.arrayOf he))
  | .arrayInit es, scope, he => h.arrayInit he (h.exprs hH es scope (hH.arrayInit he))
  | .index a b, scope, he => by
    obtain ⟨ha, hb⟩ := hH.index he
    exact h.index (h.expr hH a scope ha) (h.expr hH b scope hb)
  | .assign target _ value, scope, he => by
    obtain ⟨ht, hv⟩ := hH.assign he
    exact h.assign (h.expr hH target scope ht) (h.element hH target scope ht) (h.expr hH value scope hv)
  | .unary _ e, scope, he => h.unary (h.expr hH e scope (hH.unary he))
  | .binary a _ b, scope, he => by
    obtain ⟨ha, hb⟩ := hH.binary he
    exact h.binary (h.expr hH a scope ha) (h.expr hH b scope hb)
  | .instanceOf e _, scope, he => h.instanceOf he (h.expr hH e scope (hH.instanceOf he))
  | .conditional a b c, scope, he => by
    obtain ⟨ha, hb, hc⟩ := hH.conditional he
    have hcond := h.expr hH a scope ha
    exact h.conditional ha hcond (h.conditions hH a scope ha hcond) (h.expr hH b scope hb)
      (h.expr hH c scope hc)
  | .cast _ e, scope, he => h.cast (h.expr hH e scope (hH.cast he))
termination_by structural e => e

theorem exprs (hH : H.Hereditary) (h : H.Closed P) : (es : List Java.Expr) → (scope : Scope) →
    H.exprs es scope → P.exprs es scope
  | [], _, _ => nofun
  | e :: es, scope, he => by
    obtain ⟨he, hes⟩ := List.forall_mem_cons.mp he
    exact List.forall_mem_cons.mpr ⟨h.expr hH e scope he, h.exprs hH es scope hes⟩
termination_by structural es => es

theorem exprOption (hH : H.Hereditary) (h : H.Closed P) : (e : Option Java.Expr) →
    (scope : Scope) → H.exprOption e scope → P.exprOption e scope
  | none, _, _ => nofun
  | some e, scope, he => by
    rintro _ ⟨⟩
    exact h.expr hH e scope (he e rfl)
termination_by structural e => e

theorem element (hH : H.Hereditary) (h : H.Closed P) : (target : Java.Expr) → (scope : Scope) →
    H.expr target scope → P.element target scope
  | .paren inner, scope, ht => h.element hH inner scope (hH.paren ht)
  | .index array index, scope, ht => by
    obtain ⟨ha, hi⟩ := hH.index ht
    rintro _ _ ⟨⟩
    exact ⟨h.expr hH array scope ha, h.expr hH index scope hi⟩
  | .literal _, _, _ | .name _, _, _ | .thisRef, _, _ | .superRef, _, _ | .field _ _, _, _
  | .call _ _ _ _, _, _ | .create _ _ _, _, _ | .createArray _ _ _ _, _, _ | .arrayInit _, _, _
  | .assign _ _ _, _, _ | .unary _ _, _, _ | .binary _ _ _, _, _ | .instanceOf _ _, _, _
  | .conditional _ _ _, _, _ | .cast _ _, _, _ => by
    rintro _ _ ⟨⟩
termination_by structural target => target

theorem conditions (hH : H.Hereditary) (h : H.Closed P) : (cond : Java.Expr) → (scope : Scope) →
    H.expr cond scope → P.expr cond scope → P.conditions cond scope
  | .binary a .and b, scope, hcond, _ => by
    obtain ⟨ha, hb⟩ := hH.binary hcond
    exact List.forall_mem_append.mpr ⟨h.conditions hH a scope ha (h.expr hH a scope ha),
      h.conditions hH b scope hb (h.expr hH b scope hb)⟩
  | .instanceOf e _, scope, hcond, _ =>
    List.forall_mem_singleton.mpr (h.expr hH e scope (hH.instanceOf hcond))
  | .literal _, _, _, hwhole | .name _, _, _, hwhole | .thisRef, _, _, hwhole
  | .superRef, _, _, hwhole | .paren _, _, _, hwhole | .field _ _, _, _, hwhole
  | .call _ _ _ _, _, _, hwhole | .create _ _ _, _, _, hwhole | .createArray _ _ _ _, _, _, hwhole
  | .arrayInit _, _, _, hwhole | .index _ _, _, _, hwhole | .assign _ _ _, _, _, hwhole
  | .unary _ _, _, _, hwhole | .conditional _ _ _, _, _, hwhole | .cast _ _, _, _, hwhole
  | .binary _ .or _, _, _, hwhole | .binary _ .eq _, _, _, hwhole | .binary _ .ne _, _, _, hwhole
  | .binary _ .lt _, _, _, hwhole | .binary _ .gt _, _, _, hwhole | .binary _ .le _, _, _, hwhole
  | .binary _ .ge _, _, _, hwhole | .binary _ (.arith _) _, _, _, hwhole =>
    List.forall_mem_singleton.mpr hwhole
termination_by structural cond => cond

theorem effect (hH : H.Hereditary) (h : H.Closed P) : (e : Java.Expr) → (scope : Scope) →
    H.expr e scope → P.effect e scope
  | .assign target _ value, scope, he => by
    obtain ⟨ht, hv⟩ := hH.assign he
    rintro _ _ _ ⟨⟩
    exact ⟨h.element hH target scope ht, h.expr hH value scope hv⟩
  | .literal _, _, _ | .name _, _, _ | .thisRef, _, _ | .superRef, _, _ | .paren _, _, _
  | .field _ _, _, _ | .call _ _ _ _, _, _ | .create _ _ _, _, _ | .createArray _ _ _ _, _, _
  | .arrayInit _, _, _ | .index _ _, _, _ | .unary _ _, _, _ | .binary _ _ _, _, _
  | .instanceOf _ _, _, _ | .conditional _ _ _, _, _ | .cast _ _, _, _ => nofun
termination_by structural e => e

theorem inits (hH : H.Hereditary) (h : H.Closed P) : (ds : List Java.Declarator) →
    (scope : Scope) → H.inits ds scope → P.inits ds scope
  | [], _, _ => nofun
  | ⟨_, init⟩ :: ds, scope, hds => by
    obtain ⟨hinit, hds⟩ := List.forall_mem_cons.mp hds
    exact List.forall_mem_cons.mpr ⟨h.exprOption hH init scope hinit, h.inits hH ds scope hds⟩
termination_by structural ds => ds

theorem forInit (hH : H.Hereditary) (h : H.Closed P) : (init : Option Java.ForInit) →
    (scope : Scope) → H.forInit init scope → P.forInit init scope
  | none, _, _ => trivial
  | some (.declare ⟨_, _, ds⟩), scope, hinit => h.inits hH ds scope hinit
  | some (.exprs es), scope, hinit => h.exprs hH es scope hinit
termination_by structural init => init

theorem stmt (hH : H.Hereditary) (h : H.Closed P) : (s : Java.Stmt) → (scope : Scope) →
    H.stmt s scope → P.stmt s scope
  | .block b, scope, hs => h.block (h.stmts hH b scope (hH.block hs))
  | .localVar ⟨_, _, ds⟩, scope, hs => h.localVar hs (h.inits hH ds scope (hH.localVar hs))
  | .expr e, scope, hs => by
    have he := hH.exprStmt hs
    exact h.exprStmt (h.expr hH e scope he) (h.effect hH e scope he)
  | .ifElse cond s otherwise, scope, hs => by
    obtain ⟨hc, hb, ho⟩ := hH.ifElse hs
    have hcond := h.expr hH cond scope hc
    exact (h.ifElse hs hcond (h.conditions hH cond scope hc hcond)
      (h.body hH s _ hb (h.stmt hH s _ hb)) (h.otherwise hH otherwise scope ho)).1
  | .whileLoop cond b, scope, hs => by
    obtain ⟨hc, hb⟩ := hH.whileLoop hs
    exact h.whileLoop (h.expr hH cond scope hc) (h.body hH b _ hb (h.stmt hH b _ hb))
  | .doWhile b cond, scope, hs => by
    obtain ⟨hb, hc⟩ := hH.doWhile hs
    exact h.doWhile (h.body hH b _ hb (h.stmt hH b _ hb)) (h.expr hH cond scope hc)
  | .forLoop init cond update b, scope, hs => by
    obtain ⟨hi, hc, hu, hb⟩ := hH.forLoop hs
    exact h.forLoop hs (h.forInit hH init scope hi) (h.exprOption hH cond scope hc)
      (h.exprs hH update scope hu) (h.body hH b _ hb (h.stmt hH b _ hb))
  | .forEach _ _ e b, scope, hs => by
    obtain ⟨he, hb⟩ := hH.forEach hs
    exact h.forEach hs (h.expr hH e scope he) (h.body hH b _ hb (h.stmt hH b _ hb))
  | .switch selector gs, scope, hs => by
    obtain ⟨he, hgs⟩ := hH.switch hs
    exact h.switch (h.expr hH selector scope he) (h.groups hH gs scope hgs)
  | .breakTo _, _, _ => h.breakTo
  | .continueTo _, _, hs => h.continueTo hs
  | .labeled _ s, scope, hs => h.labeled (h.stmt hH s scope (hH.labeled hs))
  | .synchronized _ b, scope, hs => h.synchronized (h.stmts hH b scope (hH.synchronized hs))
  | .constructorCall _ args, scope, hs =>
    h.constructorCall (h.exprs hH args scope (hH.constructorCall hs))
  | .returnValue value, scope, hs => h.returnValue (h.exprOption hH value scope (hH.returnValue hs))
  | .throwValue e, scope, hs => h.throwValue (h.expr hH e scope (hH.throwValue hs))
  | .tryCatch rs b cs last, scope, hs => by
    obtain ⟨hrs, hb, hcs, hl⟩ := hH.tryCatch hs
    exact h.tryCatch hs (h.resources hH rs scope hrs) (h.stmts hH b scope hb)
      (h.catches hH cs scope hcs) (h.blockOption hH last scope hl)
  | .empty, _, _ => h.empty
termination_by structural s => s

theorem body (hH : H.Hereditary) (h : H.Closed P) : (s : Java.Stmt) → (scope : Scope) →
    H.stmt s scope → P.stmt s scope → P.body s scope
  | .block b, scope, hs, _ => h.stmts hH b scope (hH.block hs)
  | .localVar _, _, _, hwhole | .expr _, _, _, hwhole | .ifElse _ _ _, _, _, hwhole
  | .whileLoop _ _, _, _, hwhole | .doWhile _ _, _, _, hwhole | .forLoop _ _ _ _, _, _, hwhole
  | .forEach _ _ _ _, _, _, hwhole | .switch _ _, _, _, hwhole | .breakTo _, _, _, hwhole
  | .continueTo _, _, _, hwhole | .labeled _ _, _, _, hwhole | .synchronized _ _, _, _, hwhole
  | .constructorCall _ _, _, _, hwhole | .returnValue _, _, _, hwhole | .throwValue _, _, _, hwhole
  | .tryCatch _ _ _ _, _, _, hwhole | .empty, _, _, hwhole => List.forall_mem_singleton.mpr hwhole
termination_by structural s => s

theorem otherwise (hH : H.Hereditary) (h : H.Closed P) : (s : Option Java.Stmt) →
    (scope : Scope) → H.otherwise s scope → P.otherwise s scope
  | none, _, _ => h.absent
  | some s, scope, hs => h.elseBranch hH s scope hs fun hplain => by
    have hs := hH.alternative hplain hs
    exact h.body hH s _ hs (h.stmt hH s _ hs)
termination_by structural s => s

theorem elseBranch (hH : H.Hereditary) (h : H.Closed P) : (s : Java.Stmt) → (scope : Scope) →
    H.otherwise (some s) scope → (isIf s = false → P.body s (.branch [] :: scope)) →
      P.otherwise (some s) scope
  | .ifElse cond s otherwise, scope, hs, _ => by
    have hs := hH.chained hs
    obtain ⟨hc, hb, ho⟩ := hH.ifElse hs
    have hcond := h.expr hH cond scope hc
    exact (h.ifElse hs hcond (h.conditions hH cond scope hc hcond)
      (h.body hH s _ hb (h.stmt hH s _ hb)) (h.otherwise hH otherwise scope ho)).2
  | .block _, _, _, hb | .localVar _, _, _, hb | .expr _, _, _, hb | .whileLoop _ _, _, _, hb
  | .doWhile _ _, _, _, hb | .forLoop _ _ _ _, _, _, hb | .forEach _ _ _ _, _, _, hb
  | .switch _ _, _, _, hb | .breakTo _, _, _, hb | .continueTo _, _, _, hb | .labeled _ _, _, _, hb
  | .synchronized _ _, _, _, hb | .constructorCall _ _, _, _, hb | .returnValue _, _, _, hb
  | .throwValue _, _, _, hb | .tryCatch _ _ _ _, _, _, hb | .empty, _, _, hb =>
    h.alternative rfl (hb rfl)
termination_by structural s => s

theorem stmts (hH : H.Hereditary) (h : H.Closed P) : (ss : List Java.Stmt) → (scope : Scope) →
    H.stmts ss scope → P.stmts ss scope
  | [], _, _ => nofun
  | s :: ss, scope, hss => by
    obtain ⟨hs, hss⟩ := List.forall_mem_cons.mp hss
    exact List.forall_mem_cons.mpr ⟨h.stmt hH s scope hs, h.stmts hH ss scope hss⟩
termination_by structural ss => ss

theorem blockOption (hH : H.Hereditary) (h : H.Closed P) : (b : Option (List Java.Stmt)) →
    (scope : Scope) → H.blockOption b scope → P.blockOption b scope
  | none, _, _ => nofun
  | some b, scope, hb => by
    rintro _ ⟨⟩
    exact h.stmts hH b scope (hb b rfl)
termination_by structural b => b

theorem labels (hH : H.Hereditary) (h : H.Closed P) : (ls : List Java.SwitchLabel) →
    (scope : Scope) → H.labels ls scope → P.labels ls scope
  | [], _, _ => nofun
  | .case value :: ls, scope, hls => by
    have hvalue := h.expr hH value scope (hls value (List.mem_cons_self ..))
    have hrest := h.labels hH ls scope fun e he => hls e (List.mem_cons_of_mem _ he)
    intro e he
    rcases List.mem_cons.mp he with heq | he
    · cases heq
      exact hvalue
    · exact hrest e he
  | .default :: ls, scope, hls => by
    have hrest := h.labels hH ls scope fun e he => hls e (List.mem_cons_of_mem _ he)
    intro e he
    rcases List.mem_cons.mp he with heq | he
    · cases heq
    · exact hrest e he
termination_by structural ls => ls

theorem groups (hH : H.Hereditary) (h : H.Closed P) : (gs : List Java.SwitchGroup) →
    (scope : Scope) → H.groups gs scope → P.groups gs scope
  | [], _, _ => nofun
  | ⟨ls, b⟩ :: gs, scope, hgs => by
    obtain ⟨⟨hls, hb⟩, hgs⟩ := List.forall_mem_cons.mp hgs
    exact List.forall_mem_cons.mpr ⟨⟨h.labels hH ls scope hls, h.stmts hH b scope hb⟩,
      h.groups hH gs scope hgs⟩
termination_by structural gs => gs

theorem resources (hH : H.Hereditary) (h : H.Closed P) : (rs : List Java.Resource) →
    (scope : Scope) → (∀ r ∈ rs, H.expr r.init scope) → ∀ r ∈ rs, P.expr r.init scope
  | [], _, _ => nofun
  | ⟨_, _, init⟩ :: rs, scope, hrs => by
    obtain ⟨hinit, hrs⟩ := List.forall_mem_cons.mp hrs
    exact List.forall_mem_cons.mpr ⟨h.expr hH init scope hinit, h.resources hH rs scope hrs⟩
termination_by structural rs => rs

theorem catches (hH : H.Hereditary) (h : H.Closed P) : (cs : List Java.CatchClause) →
    (scope : Scope) → (∀ c ∈ cs, H.stmts c.body scope) → ∀ c ∈ cs, P.stmts c.body scope
  | [], _, _ => nofun
  | ⟨_, _, b⟩ :: cs, scope, hcs => by
    obtain ⟨hb, hcs⟩ := List.forall_mem_cons.mp hcs
    exact List.forall_mem_cons.mpr ⟨h.stmts hH b scope hb, h.catches hH cs scope hcs⟩
termination_by structural cs => cs

theorem member (hH : H.Hereditary) (h : H.Closed P) (owner : Owner) : (m : Java.Member) →
    (scope : Scope) → H.member owner m scope → P.member owner m scope
  | .field ⟨_, _, ds⟩, scope, hm => h.fields hm (h.inits hH ds scope (hH.fields hm))
  | .method ⟨_, _, _, _, _, b⟩, scope, hm => h.method hm (h.blockOption hH b scope (hH.method hm))
  | .constructor ⟨_, _, _, b⟩, scope, hm =>
    h.constructor hm (h.stmts hH b scope (hH.constructor hm))
  | .type decl, scope, hm => h.type (h.typeDecl hH decl scope (hH.type hm))
  | .initializer b, scope, hm => h.initializer (h.stmts hH b scope (hH.initializer hm))
termination_by structural m => m

theorem members (hH : H.Hereditary) (h : H.Closed P) (owner : Owner) : (ms : List Java.Member) →
    (scope : Scope) → H.members owner ms scope → P.members owner ms scope
  | [], _, _ => nofun
  | m :: ms, scope, hms => by
    obtain ⟨hm, hms⟩ := List.forall_mem_cons.mp hms
    exact List.forall_mem_cons.mpr ⟨h.member hH owner m scope hm, h.members hH owner ms scope hms⟩
termination_by structural ms => ms

theorem constants (hH : H.Hereditary) (h : H.Closed P) : (cs : List Java.EnumConstant) →
    (scope : Scope) → (∀ c ∈ cs, H.exprs c.args scope) → ∀ c ∈ cs, P.exprs c.args scope
  | [], _, _ => nofun
  | ⟨_, args⟩ :: cs, scope, hcs => by
    obtain ⟨hargs, hcs⟩ := List.forall_mem_cons.mp hcs
    exact List.forall_mem_cons.mpr ⟨h.exprs hH args scope hargs, h.constants hH cs scope hcs⟩
termination_by structural cs => cs

theorem typeDecl (hH : H.Hereditary) (h : H.Closed P) : (t : Java.TypeDecl) → (scope : Scope) →
    H.typeDecl t scope → P.typeDecl t scope
  | .ofClass ⟨_, _, _, _, _, b⟩, scope, ht =>
    h.ofClass ht (h.members hH .ofClass b scope (hH.ofClass ht))
  | .ofInterface ⟨_, _, _, _, b⟩, scope, ht =>
    h.ofInterface ht (h.members hH .ofInterface b scope (hH.ofInterface ht))
  | .ofEnum ⟨_, name, _, constants, b⟩, scope, ht => by
    obtain ⟨hb, hc⟩ := hH.ofEnum ht
    exact h.ofEnum ht (h.members hH (.ofEnum name) b scope hb) (h.constants hH constants scope hc)
termination_by structural t => t
end

theorem tail (hH : H.Hereditary) (h : H.Closed P) {t : LoopTail} {scope : Scope}
    (ht : H.tail t scope) : P.tail t scope := by
  cases t with
  | native => trivial
  | update es => exact h.exprs hH es scope ht
  | guard cond => exact h.expr hH cond scope ht

end Closed

end Property

end CeylonFromJava.Conversion
