import CeylonFromJava.Conversion.Unit
import CeylonFromJava.Proofs.Ceylon.DeclaredTypes
import CeylonFromJava.Proofs.Conversion.TreeInduction

/-! Variables declared by default are marked, and nothing else changes.

The trees for the two settings differ in the marking of declarations alone, so their texts have the same
parts. -/
namespace CeylonFromJava.Ceylon
set_option autoImplicit false

/-- The marking for a setting. -/
def Marking.ofFlag : Bool → Marking
  | true => .asVariable
  | false => .plain

@[simp] theorem Marking.isVariable_ofFlag (b : Bool) : (Marking.ofFlag b).isVariable = b := by
  cases b <;> rfl

@[simp] theorem Marking.ty_ofFlag (b : Bool) (ty : Ty) : (Marking.ofFlag b).ty ty = ty := by
  cases b <;> rfl

/-! ## Lists of trees -/

section

variable (m : Marking)

theorem Expr.markedOption_eq_map (e : Option Expr) : Expr.markedOption m e = e.map (Expr.marked m) := by
  cases e <;> rfl

theorem Expr.markedList_eq_map (es : List Expr) : Expr.markedList m es = es.map (Expr.marked m) := by
  induction es with
  | nil => rfl
  | cons e es ih => rw [Expr.markedList, ih, List.map_cons]

theorem Condition.markedList_eq_map (cs : List Condition) :
    Condition.markedList m cs = cs.map (Condition.marked m) := by
  induction cs with
  | nil => rfl
  | cons c cs ih => rw [Condition.markedList, ih, List.map_cons]

theorem Stmt.markedList_eq_map (ss : List Stmt) : Stmt.markedList m ss = ss.map (Stmt.marked m) := by
  induction ss with
  | nil => rfl
  | cons s ss ih => rw [Stmt.markedList, ih, List.map_cons]

theorem Stmt.markedList_append (ss ss' : List Stmt) :
    Stmt.markedList m (ss ++ ss') = Stmt.markedList m ss ++ Stmt.markedList m ss' := by
  simp only [Stmt.markedList_eq_map, List.map_append]

theorem Stmt.markedBlock_eq_map (b : Option (List Stmt)) :
    Stmt.markedBlock m b = b.map (Stmt.markedList m) := by
  cases b <;> rfl

theorem Case.markedList_eq_map (cs : List Case) :
    Case.markedList m cs = cs.map fun c => ⟨c.label.marked m, Stmt.markedList m c.body⟩ := by
  induction cs with
  | nil => rfl
  | cons c cs ih =>
    cases c
    rw [Case.markedList, ih, List.map_cons]

theorem Resource.markedList_eq_map (rs : List Resource) :
    Resource.markedList m rs = rs.map fun r => ⟨r.ty, r.name, r.init.marked m⟩ := by
  induction rs with
  | nil => rfl
  | cons r rs ih =>
    cases r
    rw [Resource.markedList, ih, List.map_cons]

theorem Catch.markedList_eq_map (cs : List Catch) :
    Catch.markedList m cs = cs.map fun c => ⟨c.types, c.name, Stmt.markedList m c.body⟩ := by
  induction cs with
  | nil => rfl
  | cons c cs ih =>
    cases c
    rw [Catch.markedList, ih, List.map_cons]

theorem Declarator.markedList_eq_map (ds : List Declarator) :
    Declarator.markedList m ds = ds.map fun d => ⟨d.name, Expr.markedOption m d.init⟩ := by
  induction ds with
  | nil => rfl
  | cons d ds ih =>
    cases d
    rw [Declarator.markedList, ih, List.map_cons]

theorem Member.markedList_eq_map (ds : List Member) :
    Member.markedList m ds = ds.map (Member.marked m) := by
  induction ds with
  | nil => rfl
  | cons d ds ih => rw [Member.markedList, ih, List.map_cons]

theorem Constant.markedList_eq_map (cs : List Constant) :
    Constant.markedList m cs = cs.map fun c => ⟨c.name, Expr.markedList m c.args⟩ := by
  induction cs with
  | nil => rfl
  | cons c cs ih =>
    cases c
    rw [Constant.markedList, ih, List.map_cons]

end

end CeylonFromJava.Ceylon

namespace CeylonFromJava.Conversion
set_option autoImplicit false

open Ceylon (Marking)

/-! ## Surroundings -/

/-- The second settings mark what the first declare, also in the tails that trees with the property `H`
repeat. -/
structure Env.Remarked (H : Property) (m : Marking) (env env' : Env) : Prop where
  getters : env'.config.convertGetters = env.config.convertGetters
  flag : env'.config.declareMutable = m.isVariable
  types : ∀ ty, m.ty ty = ty
  tails : ∀ {label scope t}, H.stmt (.continueTo label) scope → scope.loopTail? = some t →
    env'.repeatTail scope t = Ceylon.Stmt.markedList m (env.repeatTail scope t)

theorem Env.Remarked.params {H : Property} {m : Marking} {env env' : Env} (h : Env.Remarked H m env env')
    (ps : List Java.Param) :
    ps.map (param env'.config) = (ps.map (param env.config)).map (Ceylon.Param.marked m) := by
  rw [List.map_map]
  refine List.map_congr_left fun p _ => ?_
  simp only [Function.comp_apply, param, Ceylon.Param.marked, h.flag, h.types]

theorem marked_grouped (m : Marking) (needed : Bool) (e : Ceylon.Expr) :
    (grouped needed e).marked m = grouped needed (e.marked m) := by
  cases needed <;> rfl

def Element.marked (m : Marking) (e : Element) : Element :=
  ⟨e.array.marked m, e.loose, e.arrayPure, e.index.marked m, e.indexPure⟩

theorem Element.target_marked (m : Marking) (e : Element) :
    (e.marked m).target = e.target.marked m := by
  simp only [Element.target, Element.marked, marked_grouped]

theorem Element.arraySlot_marked (m : Marking) (e : Element) :
    (e.marked m).arraySlot = e.arraySlot.marked m := by
  simp only [Element.arraySlot, Element.target_marked]
  cases e with
  | mk _ _ arrayPure _ _ => cases arrayPure <;> rfl

theorem Element.indexSlot_marked (m : Marking) (e : Element) :
    (e.marked m).indexSlot = e.indexSlot.marked m := by
  cases e with
  | mk _ _ _ _ indexPure => cases indexPure <;> rfl

/-! ## Trees -/

abbrev markedTrees (m : Marking) (env env' : Env) : Property where
  expr e scope := expr env' e scope = (expr env e scope).marked m
  stmt s scope := stmt env' s scope = Ceylon.Stmt.markedList m (stmt env s scope)
  otherwise s scope := elseBranch env' s scope = (elseBranch env s scope).marked m
  member owner d scope := member env' owner d scope = (member env owner d scope).marked m
  typeDecl t scope := typeDecl env' t scope = (typeDecl env t scope).marked m

section

variable {m : Marking} {env env' : Env} {scope : Scope}

theorem expr_marked {e : Java.Expr} (h : (markedTrees m env env').expr e scope) :
    expr env' e scope = (expr env e scope).marked m :=
  h

theorem exprs_marked {es : List Java.Expr} (h : (markedTrees m env env').exprs es scope) :
    exprs env' es scope = Ceylon.Expr.markedList m (exprs env es scope) := by
  rw [exprs_eq_map, exprs_eq_map, Ceylon.Expr.markedList_eq_map, List.map_map]
  exact List.map_congr_left h

theorem exprLines_marked {es : List Java.Expr} (h : (markedTrees m env env').exprs es scope) :
    exprLines env' es scope = Ceylon.Stmt.markedList m (exprLines env es scope) := by
  rw [exprLines_eq_map, exprLines_eq_map, Ceylon.Stmt.markedList_eq_map, List.map_map]
  exact List.map_congr_left fun e he => congrArg Ceylon.Stmt.expr (h e he)

theorem callTarget_marked {target : Option Java.Expr}
    (h : (markedTrees m env env').exprOption target scope) :
    callTarget env' target scope = Ceylon.Expr.markedOption m (callTarget env target scope) := by
  cases target with
  | none => rfl
  | some e => rw [callTarget, callTarget, Ceylon.Expr.markedOption, marked_grouped, h e rfl]

theorem element_marked {target : Java.Expr} (h : (markedTrees m env env').element target scope) :
    element env' target scope = (element env target scope).map (Element.marked m) := by
  rw [element_eq, element_eq]
  split
  · next array index htarget =>
    obtain ⟨ha, hi⟩ := h array index htarget
    rw [elementAt, ha, hi]
    rfl
  · rfl

theorem conditions_marked {cond : Java.Expr} (h : (markedTrees m env env').conditions cond scope) :
    (conditions env' cond scope fun _ => expr env' cond scope) =
      Ceylon.Condition.markedList m (conditions env cond scope fun _ => expr env cond scope) := by
  rw [conditions_eq_map, conditions_eq_map, Ceylon.Condition.markedList_eq_map, List.map_map]
  refine List.map_congr_left fun e he => ?_
  have hitem := h e he
  cases e with
  | instanceOf operand ty => exact congrArg (Ceylon.Condition.isType (typeRef ty)) hitem
  | _ => exact congrArg Ceylon.Condition.holds hitem

theorem stmts_marked {ss : List Java.Stmt} (h : (markedTrees m env env').stmts ss scope) :
    stmts env' ss scope = Ceylon.Stmt.markedList m (stmts env ss scope) := by
  induction ss with
  | nil => rfl
  | cons s ss ih =>
    obtain ⟨hs, hss⟩ := List.forall_mem_cons.mp h
    rw [stmts, stmts, Ceylon.Stmt.markedList_append, hs, ih hss]

theorem body_marked {s : Java.Stmt} (h : (markedTrees m env env').body s scope) :
    (body env' s scope fun _ => stmt env' s scope) =
      Ceylon.Stmt.markedList m (body env s scope fun _ => stmt env s scope) := by
  rw [body_eq_stmts, body_eq_stmts]
  exact stmts_marked h

theorem optionalBlock_marked {b : Option (List Java.Stmt)}
    (h : (markedTrees m env env').blockOption b scope) :
    optionalBlock env' b scope = Ceylon.Stmt.markedBlock m (optionalBlock env b scope) := by
  cases b with
  | none => rfl
  | some b => exact congrArg some (stmts_marked (h b rfl))

theorem caseBody_marked {ss : List Java.Stmt} (h : (markedTrees m env env').stmts ss scope) :
    caseBody env' ss scope = Ceylon.Stmt.markedList m (caseBody env ss scope) := by
  rw [caseBody_eq_stmts, caseBody_eq_stmts]
  exact stmts_marked fun s hs => h s (List.mem_filter.mp hs).1

theorem cases_marked {gs : List Java.SwitchGroup} (h : (markedTrees m env env').groups gs scope) :
    cases env' gs scope = Ceylon.Case.markedList m (cases env gs scope) := by
  rw [cases_eq_filterMap, cases_eq_filterMap, Ceylon.Case.markedList_eq_map]
  have hshown : (markedTrees m env env').groups (gs.filter (!·.isDefault)) scope :=
    fun g hg => h g (List.mem_filter.mp hg).1
  generalize gs.filter (!·.isDefault) = shown at hshown
  induction shown with
  | nil => rfl
  | cons g gs ih =>
    obtain ⟨⟨hlabels, hbody⟩, hgs⟩ := List.forall_mem_cons.mp hshown
    rw [List.filterMap_cons, List.filterMap_cons, ih hgs, arm, arm]
    cases hfirst : g.firstCase with
    | none => rfl
    | some e =>
      rw [Option.map_some, Option.map_some, List.map_cons, caseBody_marked hbody,
        hlabels e (mem_labels_of_firstCase hfirst)]

theorem defaultBody_marked {gs : List Java.SwitchGroup}
    (h : (markedTrees m env env').groups gs scope) :
    defaultBody env' gs scope = Ceylon.Stmt.markedBlock m (defaultBody env gs scope) := by
  rw [defaultBody_eq, defaultBody_eq, Ceylon.Stmt.markedBlock_eq_map, Option.map_map]
  refine Option.map_congr fun g hg => ?_
  exact caseBody_marked (h g (List.mem_of_find?_eq_some hg)).2

theorem resourceList_marked {rs : List Java.Resource}
    (h : ∀ r ∈ rs, (markedTrees m env env').expr r.init scope) :
    resourceList env' rs scope = Ceylon.Resource.markedList m (resourceList env rs scope) := by
  rw [resourceList_eq_map, resourceList_eq_map, Ceylon.Resource.markedList_eq_map, List.map_map]
  refine List.map_congr_left fun r hr => ?_
  rw [h r hr]
  rfl

theorem catchList_marked {cs : List Java.CatchClause}
    (h : ∀ c ∈ cs, (markedTrees m env env').stmts c.body scope) :
    catchList env' cs scope = Ceylon.Catch.markedList m (catchList env cs scope) := by
  rw [catchList_eq_map, catchList_eq_map, Ceylon.Catch.markedList_eq_map, List.map_map]
  refine List.map_congr_left fun c hc => ?_
  rw [stmts_marked (h c hc)]
  rfl

theorem fieldList_marked {ds : List Java.Declarator} (h : (markedTrees m env env').inits ds scope) :
    fieldList env' ds scope = Ceylon.Declarator.markedList m (fieldList env ds scope) := by
  rw [fieldList_eq_map, fieldList_eq_map, Ceylon.Declarator.markedList_eq_map, List.map_map]
  refine List.map_congr_left fun d hd => ?_
  rw [Function.comp_apply, Ceylon.Expr.markedOption_eq_map, Option.map_map]
  rw [Option.map_congr (h d hd)]
  rfl

theorem members_marked {owner : Owner} {ds : List Java.Member}
    (h : (markedTrees m env env').members owner ds scope) :
    members env' owner ds scope = Ceylon.Member.markedList m (members env owner ds scope) := by
  rw [members_eq_map, members_eq_map, Ceylon.Member.markedList_eq_map, List.map_map]
  exact List.map_congr_left h

theorem constantList_marked {cs : List Java.EnumConstant}
    (h : ∀ c ∈ cs, (markedTrees m env env').exprs c.args scope) :
    constantList env' cs scope = Ceylon.Constant.markedList m (constantList env cs scope) := by
  rw [constantList_eq_map, constantList_eq_map, Ceylon.Constant.markedList_eq_map, List.map_map]
  refine List.map_congr_left fun c hc => ?_
  rw [exprs_marked (h c hc)]
  rfl

section

variable {H : Property}

theorem locals_marked (henv : Env.Remarked H m env env') {ds : List Java.Declarator}
    (h : (markedTrees m env env').inits ds scope) (ty : Java.TypeRef) :
    locals env' ds ty scope = Ceylon.Stmt.markedList m (locals env ds ty scope) := by
  rw [locals_eq_map, locals_eq_map, Ceylon.Stmt.markedList_eq_map, List.map_map]
  refine List.map_congr_left fun d hd => ?_
  have hinit := h d hd
  obtain ⟨name, _ | init⟩ := d
  · simp only [Function.comp_apply, localValue, Ceylon.Stmt.marked, henv.flag, henv.types]
    rfl
  · simp only [Function.comp_apply, localValue, henv.flag, expr_marked (hinit init rfl)]
    split
    · rfl
    · rw [Ceylon.Stmt.marked, henv.types]
      rfl

theorem forInit_marked (henv : Env.Remarked H m env env') {init : Option Java.ForInit}
    (h : (markedTrees m env env').forInit init scope) :
    forInit env' init scope = Ceylon.Stmt.markedList m (forInit env init scope) := by
  match init with
  | none => rfl
  | some (.declare ⟨_, ty, _⟩) => exact locals_marked henv h ty
  | some (.exprs _) => exact exprLines_marked h

theorem call_marked (henv : Env.Remarked H m env env') {target : Option Java.Expr}
    {args : List Java.Expr} (htarget : (markedTrees m env env').exprOption target scope)
    (hargs : (markedTrees m env env').exprs args scope) (typeArgs : List Java.TypeRef) (x : String) :
    (markedTrees m env env').expr (.call target typeArgs x args) scope := by
  simp only [expr, propertyOf, henv.getters, callTarget_marked htarget, exprs_marked hargs]
  split
  · rfl
  · split
    · cases callTarget env target scope <;> rfl
    · rfl

theorem exprStmt_marked {e : Java.Expr} (he : (markedTrees m env env').expr e scope)
    (heffect : (markedTrees m env env').effect e scope) :
    (markedTrees m env env').stmt (.expr e) scope := by
  cases e with
  | assign target op value =>
    obtain ⟨helement, hvalue⟩ := heffect target op value rfl
    cases op with
    | plain => exact congrArg (fun e => [Ceylon.Stmt.expr e]) he
    | compound op =>
      simp only [stmt, exprStmt, expr_marked he, expr_marked hvalue, element_marked helement]
      cases element env target scope with
      | none => rfl
      | some e =>
        simp only [Option.map_some, Ceylon.Stmt.markedList, Ceylon.Stmt.marked,
          Element.arraySlot_marked, Element.indexSlot_marked, marked_grouped]
  | _ => exact congrArg (fun e => [Ceylon.Stmt.expr e]) he

theorem markedTrees_closed (henv : Env.Remarked H m env env') : H.Closed (markedTrees m env env') where
  literal _ := rfl
  name _ := rfl
  thisRef := rfl
  superRef := rfl
  paren he := congrArg Ceylon.Expr.paren he
  field _ he := by simp only [expr, Ceylon.Expr.marked, marked_grouped, expr_marked he]
  call _ htarget hargs := call_marked henv htarget hargs _ _
  create _ hargs := congrArg (Ceylon.Expr.instantiate _) (exprs_marked hargs)
  object _ hargs hms := by
    simp only [expr, Ceylon.Expr.marked, exprs_marked hargs, members_marked hms]
  createArray _ hdims := congrArg (Ceylon.Expr.instantiate _) (exprs_marked hdims)
  arrayOf _ hes := congrArg Ceylon.Expr.array (exprs_marked hes)
  arrayInit _ hes := congrArg Ceylon.Expr.array (exprs_marked hes)
  index ha hb := by
    simp only [expr, Ceylon.Expr.marked, marked_grouped, expr_marked ha, expr_marked hb]
  assign {target op _ scope} htarget helement hvalue := by
    simp only [expr, expr_marked htarget, element_marked helement, expr_marked hvalue]
    cases element env target scope with
    | none => rfl
    | some e =>
      cases op with
      | plain =>
        simp only [Option.map_some, Ceylon.Expr.marked, Element.target_marked]
        rfl
      | compound op =>
        simp only [Option.map_some, Ceylon.Expr.marked, Element.arraySlot_marked,
          Element.indexSlot_marked, marked_grouped]
  unary {op _ _} he := by
    cases op <;> simp only [expr, expr_marked he, Ceylon.Expr.marked, marked_grouped]
  binary ha hb := by
    simp only [expr, expr_marked ha, expr_marked hb]
    split <;> simp only [Ceylon.Expr.marked, marked_grouped]
  instanceOf _ he := by simp only [expr, Ceylon.Expr.marked, marked_grouped, expr_marked he]
  conditional _ _ hcond hb hc := by
    simp only [expr, Ceylon.Expr.marked, conditions_marked hcond, expr_marked hb, expr_marked hc]
  cast he := by simp only [expr, marked_grouped, expr_marked he]
  block hb := congrArg (fun b => [Ceylon.Stmt.block b]) (stmts_marked hb)
  localVar {decl _} _ hinits := by
    cases decl
    exact locals_marked henv hinits _
  exprStmt he heffect := exprStmt_marked he heffect
  ifElse _ _ hcond hbody hother := by
    have hother : elseBranch env' _ _ = (elseBranch env _ _).marked m := hother
    simp only [stmt, elseBranch, conditions_marked hcond, body_marked hbody, hother,
      Ceylon.Stmt.markedList, Ceylon.Stmt.marked, Ceylon.Else.marked, and_self]
  whileLoop hcond hbody := by
    simp only [stmt, expr_marked hcond, body_marked hbody, Ceylon.Stmt.markedList, Ceylon.Stmt.marked]
  doWhile hbody hcond := by
    simp only [stmt, expr_marked hcond, body_marked hbody, Ceylon.Stmt.markedList, Ceylon.Stmt.marked,
      Ceylon.Stmt.markedList_append, Ceylon.Expr.marked]
  forLoop {_ cond _ _ scope} _ hinit hcond hupdate hbody := by
    have hcond : loopCondition env' cond scope = (loopCondition env cond scope).marked m := by
      cases cond with
      | none => rfl
      | some e => exact hcond e rfl
    simp only [stmt, forInit_marked henv hinit, hcond, body_marked hbody, exprLines_marked hupdate,
      Ceylon.Stmt.markedList, Ceylon.Stmt.marked, Ceylon.Stmt.markedList_append]
  forEach _ he hbody := by
    simp only [stmt, expr_marked he, body_marked hbody, Ceylon.Stmt.markedList, Ceylon.Stmt.marked]
  switch hselector hgs := by
    simp only [stmt, expr_marked hselector, cases_marked hgs, defaultBody_marked hgs,
      Ceylon.Stmt.markedList, Ceylon.Stmt.marked]
  breakTo := rfl
  continueTo {_ scope} h := by
    cases htail : scope.loopTail? with
    | none =>
      simp only [stmt, htail]
      rfl
    | some t =>
      simp only [stmt, htail, henv.tails h htail, Ceylon.Stmt.markedList_append]
      rfl
  labeled h := h
  synchronized hb := congrArg (fun b => [Ceylon.Stmt.block b]) (stmts_marked hb)
  constructorCall hargs := congrArg (fun args => [Ceylon.Stmt.delegate _ args]) (exprs_marked hargs)
  returnValue {value _} hvalue := by
    cases value with
    | none => rfl
    | some e => exact congrArg (fun e => [Ceylon.Stmt.returnValue (some e)]) (hvalue e rfl)
  throwValue he := congrArg (fun e => [Ceylon.Stmt.throwValue e]) he
  tryCatch _ hrs hb hcs hlast := by
    simp only [stmt, resourceList_marked hrs, stmts_marked hb, catchList_marked hcs,
      optionalBlock_marked hlast, Ceylon.Stmt.markedList, Ceylon.Stmt.marked]
  empty := rfl
  absent := rfl
  alternative hs hbody := by
    simp only [elseBranch_of_not_isIf hs, stmts_marked hbody, Ceylon.Else.marked]
  fields {_ decl _} _ hinits := by
    cases decl
    simp only [member, Ceylon.Member.marked, henv.flag, henv.types, fieldList_marked hinits]
  method {_ decl _} _ hbody := by
    cases decl
    simp only [member, Ceylon.Member.marked, henv.params, optionalBlock_marked hbody]
    split <;> rfl
  constructor {owner decl _} _ hbody := by
    cases decl
    cases owner <;> simp only [member, Ceylon.Member.marked, henv.params, stmts_marked hbody]
  type h := congrArg Ceylon.Member.type h
  initializer hb := congrArg Ceylon.Member.statements (stmts_marked hb)
  ofClass {decl _} _ hms := by
    cases decl
    simp only [typeDecl, Ceylon.TypeDecl.marked, members_marked hms]
  ofInterface {decl _} _ hms := by
    cases decl
    simp only [typeDecl, Ceylon.TypeDecl.marked, members_marked hms]
  ofEnum {decl _} _ hms hconstants := by
    cases decl
    simp only [typeDecl, Ceylon.TypeDecl.marked, members_marked hms, constantList_marked hconstants]

end

theorem tail_marked {t : LoopTail} (h : (markedTrees m env env').tail t scope) :
    tail env' scope t = Ceylon.Stmt.markedList m (tail env scope t) := by
  cases t with
  | native => rfl
  | update es => exact exprLines_marked h
  | guard cond => exact congrArg (fun e => [Ceylon.Stmt.breakIf e]) h

end

/-! ## Units -/

theorem Env.remarked_upTo (getters flag flag' : Bool) (n : Nat) :
    Env.Remarked Property.anything (.ofFlag flag') (Env.upTo ⟨getters, flag⟩ (fun _ _ => []) n)
      (Env.upTo ⟨getters, flag'⟩ (fun _ _ => []) n) := by
  induction n with
  | zero => exact ⟨rfl, by simp [Env.upTo], by simp, fun _ _ => rfl⟩
  | succ n ih =>
    refine ⟨rfl, by simp [Env.upTo], by simp, fun _ _ => tail_marked ?_⟩
    exact (markedTrees_closed ih).tail Property.anything_hereditary Property.anything_tail

theorem unit_marked (getters flag flag' : Bool) (scope : Scope) (u : Java.CompilationUnit) :
    unit ⟨getters, flag'⟩ scope u = (unit ⟨getters, flag⟩ scope u).marked (.ofFlag flag') := by
  have hremarked := Env.remarked_upTo getters flag flag' (budget scope u)
  simp only [unit, unitUpTo, Ceylon.Source.marked, List.map_map]
  have htypes := (markedTrees_closed hremarked).typeDecl Property.anything_hereditary
  rw [List.map_congr_left fun t _ => htypes t scope trivial]
  rfl

theorem intercalate_empty (parts : List String) :
    String.intercalate "" parts = String.join parts := by
  induction parts with
  | nil => rfl
  | cons part parts ih =>
    cases parts with
    | nil => simp
    | cons part' parts => rw [String.intercalate_cons_cons, ih, String.append_empty, ← String.join_cons]

/-- With variables declared by default, `variable ` is written before the type of every field, every
parameter and every local value that is no assertion, and nothing else changes: the text without is cut
into parts where these types start, as shown by any other word that is written in front of their
names. -/
theorem text_declareMutable (getters : Bool) (u : Java.CompilationUnit) :
    ∃ parts : List String,
      text ⟨getters, false⟩ u = String.join parts ∧
      text ⟨getters, true⟩ u = String.intercalate "variable " parts ∧
      (∀ word, Output.Piece.render (((unit ⟨getters, false⟩ [] u).marked (.spelled word)).pieces 0) =
        String.intercalate word parts) ∧
      unit ⟨getters, true⟩ [] u = (unit ⟨getters, false⟩ [] u).marked .asVariable ∧
      unit ⟨getters, false⟩ [] u = (unit ⟨getters, false⟩ [] u).marked .plain ∧
      (unit ⟨getters, true⟩ [] u).temps = (unit ⟨getters, false⟩ [] u).temps := by
  obtain ⟨parts, hparts⟩ := (unit ⟨getters, false⟩ [] u).exists_parts 0
  have hplain := unit_marked getters false false [] u
  have hvariable := unit_marked getters false true [] u
  refine ⟨parts, ?_, ?_, fun word => hparts (.spelled word), hvariable, hplain, ?_⟩
  · rw [text, hplain, ← intercalate_empty]
    exact hparts .plain
  · rw [text, hvariable]
    exact hparts .asVariable
  · rw [hvariable]
    exact Ceylon.Source.temps_marked _ _

end CeylonFromJava.Conversion
