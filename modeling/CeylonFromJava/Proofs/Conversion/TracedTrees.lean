import CeylonFromJava.Conversion.Unit
import CeylonFromJava.Proofs.Conversion.Outline
import CeylonFromJava.Proofs.Conversion.TreeInduction
import CeylonFromJava.Proofs.Conversion.TreeLocals

/-! The frames that a tree is converted under are those that a run along it has on its stack.

The conversion takes the frames around a tree as an argument. The main statement, `traced_typeDecl`:
a run along the tree never leaves a frame that it has not entered, ends with the frames it started
from, and meets the local values of the converted tree, each under the frames that the conversion was
given for it. As it holds for any repeated tails, a `continue` sees the same frames too. -/
namespace CeylonFromJava.Conversion
set_option autoImplicit false

def tracedTrees (env : Env) : Property where
  expr e scope := Traced env scope (exprOutline e) (expr env e scope).locals
  stmt s scope := Traced env scope (stmtOutline s) (Ceylon.Stmt.localsList (stmt env s scope))
  otherwise s scope := Traced env scope (elseOutline s) (elseBranch env s scope).locals
  member owner m scope := Traced env scope (memberOutline owner m) (member env owner m scope).locals
  typeDecl t scope := Traced env scope (typeOutline t) (typeDecl env t scope).locals

variable {env : Env} {scope : Scope}

/-! ## Lists of trees -/

theorem traced_exprs {es : List Java.Expr} (h : (tracedTrees env).exprs es scope) :
    Traced env scope (exprOutlineList es) (Ceylon.Expr.localsList (exprs env es scope)) := by
  induction es with
  | nil => exact .nil
  | cons e es ih =>
    obtain ⟨he, hes⟩ := List.forall_mem_cons.mp h
    exact Traced.append he (ih hes)

theorem traced_exprOption {e : Option Java.Expr} (h : (tracedTrees env).exprOption e scope) :
    Traced env scope (exprOutlineOption e)
      (Ceylon.Expr.localsOption (e.map (expr env · scope))) := by
  cases e with
  | none => exact .nil
  | some e => exact h e rfl

theorem traced_exprLines {es : List Java.Expr} (h : (tracedTrees env).exprs es scope) :
    Traced env scope (exprOutlineList es) (Ceylon.Stmt.localsList (exprLines env es scope)) := by
  rw [localsList_exprLines]
  exact traced_exprs h

theorem traced_stmts {ss : List Java.Stmt} (h : (tracedTrees env).stmts ss scope) :
    Traced env scope (stmtOutlineList ss) (Ceylon.Stmt.localsList (stmts env ss scope)) := by
  induction ss with
  | nil => exact .nil
  | cons s ss ih =>
    obtain ⟨hs, hss⟩ := List.forall_mem_cons.mp h
    rw [stmtOutlineList, stmts, Ceylon.Stmt.localsList_append]
    exact Traced.append hs (ih hss)

theorem traced_body {s : Java.Stmt} (h : (tracedTrees env).body s scope) :
    Traced env scope (stmtOutline s)
      (Ceylon.Stmt.localsList (body env s scope fun _ => stmt env s scope)) := by
  rw [stmtOutline_eq_parts, body_eq_stmts]
  exact traced_stmts h

theorem traced_block {b : Option (List Java.Stmt)} (h : (tracedTrees env).blockOption b scope) :
    Traced env scope (blockOutline b) (Ceylon.Stmt.localsOption (optionalBlock env b scope)) := by
  cases b with
  | none => exact .nil
  | some b => exact traced_stmts (h b rfl)

theorem traced_locals {ds : List Java.Declarator} (h : (tracedTrees env).inits ds scope)
    (ty : Java.TypeRef) :
    Traced env scope (localOutline ds ty) (Ceylon.Stmt.localsList (locals env ds ty scope)) := by
  induction ds with
  | nil => exact .nil
  | cons d ds ih =>
    obtain ⟨hd, hds⟩ := List.forall_mem_cons.mp h
    obtain ⟨name, init⟩ := d
    have hlocal := (Traced.declare ty name init).append (traced_exprOption hd)
    have hlocals : (localValue env scope ty init (Ceylon.Name.small name)).locals =
        localAt scope ty name init :: Ceylon.Expr.localsOption (init.map (expr env · scope)) := by
      cases init with
      | none => rfl
      | some init =>
        rw [localValue]
        split
        · next hasserted => simp [localAt, hasserted]
        · next hasserted => simp [localAt, Bool.eq_false_iff.mpr hasserted]
    rw [locals_eq_map, List.map_cons, Ceylon.Stmt.localsList, hlocals, ← locals_eq_map]
    exact hlocal.append (ih hds)

theorem traced_fieldList {ds : List Java.Declarator} (h : (tracedTrees env).inits ds scope) :
    Traced env scope (fieldOutline ds) (Ceylon.Declarator.localsList (fieldList env ds scope)) := by
  induction ds with
  | nil => exact .nil
  | cons d ds ih =>
    obtain ⟨hd, hds⟩ := List.forall_mem_cons.mp h
    rw [fieldList_eq_map, List.map_cons, ← fieldList_eq_map]
    cases d
    exact (traced_exprOption hd).append (ih hds)

theorem traced_forInit {init : Option Java.ForInit} (h : (tracedTrees env).forInit init scope) :
    Traced env scope (initOutline init) (Ceylon.Stmt.localsList (forInit env init scope)) := by
  match init with
  | none => exact .nil
  | some (.declare ⟨_, ty, _⟩) => exact traced_locals h ty
  | some (.exprs _) => exact traced_exprLines h

theorem traced_caseBody {ss : List Java.Stmt} (h : (tracedTrees env).stmts ss scope) :
    Traced env scope (stmtOutlineList ss) (Ceylon.Stmt.localsList (caseBody env ss scope)) := by
  rw [localsList_caseBody]
  exact traced_stmts h

/-- The group shows its first label with a value, if it has one. -/
theorem traced_firstLabel {labels : List Java.SwitchLabel} (h : (tracedTrees env).labels labels scope) :
    Traced env scope (labelOutline labels)
      (Ceylon.Expr.localsOption (firstLabel env labels scope)) := by
  induction labels with
  | nil => exact .nil
  | cons label labels ih =>
    cases label with
    | «case» value => exact h value (List.mem_cons_self ..)
    | default => exact ih fun e he => h e (List.mem_cons_of_mem _ he)

/-- A group that shows no label is the default or has none. -/
theorem isDefault_of_firstLabel {labels : List Java.SwitchLabel} (b : List Java.Stmt)
    (h : firstLabel env labels scope = none) :
    ((⟨labels, b⟩ : Java.SwitchGroup).isDefault || labels.isEmpty) = true := by
  match labels with
  | [] => rfl
  | .case _ :: _ => cases h
  | .default :: _ => rfl

theorem isEmpty_of_firstLabel {labels : List Java.SwitchLabel} {label : Ceylon.Expr}
    (h : firstLabel env labels scope = some label) : labels.isEmpty = false := by
  cases labels with
  | nil => cases h
  | cons _ _ => rfl

theorem traced_cases {gs : List Java.SwitchGroup} (h : (tracedTrees env).groups gs scope) :
    Traced env scope (caseOutline gs) (Ceylon.Case.localsList (cases env gs scope)) := by
  induction gs with
  | nil => exact .nil
  | cons g gs ih =>
    obtain ⟨⟨hlabels, hbody⟩, hgs⟩ := List.forall_mem_cons.mp h
    obtain ⟨labels, b⟩ := g
    have hlabel := traced_firstLabel hlabels
    simp only [cases, caseOutline]
    cases hfirst : firstLabel env labels scope with
    | none =>
      rw [if_pos (isDefault_of_firstLabel b hfirst)]
      exact ih hgs
    | some label =>
      rw [hfirst] at hlabel
      simp only [isEmpty_of_firstLabel hfirst, Bool.or_false]
      split
      · exact ih hgs
      · exact (hlabel.append (traced_caseBody hbody)).append (ih hgs)

theorem traced_defaultBody {gs : List Java.SwitchGroup} (h : (tracedTrees env).groups gs scope) :
    Traced env scope (defaultOutline gs) (Ceylon.Stmt.localsOption (defaultBody env gs scope)) := by
  induction gs with
  | nil => exact .nil
  | cons g gs ih =>
    obtain ⟨⟨-, hbody⟩, hgs⟩ := List.forall_mem_cons.mp h
    obtain ⟨labels, b⟩ := g
    rw [defaultBody, defaultOutline]
    split
    · exact traced_caseBody hbody
    · exact ih hgs

theorem traced_resourceList {rs : List Java.Resource}
    (h : ∀ r ∈ rs, (tracedTrees env).expr r.init scope) :
    Traced env scope (resourceOutline rs) (Ceylon.Resource.localsList (resourceList env rs scope)) := by
  induction rs with
  | nil => exact .nil
  | cons r rs ih =>
    obtain ⟨hr, hrs⟩ := List.forall_mem_cons.mp h
    cases r
    exact Traced.append hr (ih hrs)

theorem traced_catchList {cs : List Java.CatchClause}
    (h : ∀ c ∈ cs, (tracedTrees env).stmts c.body scope) :
    Traced env scope (catchOutline cs) (Ceylon.Catch.localsList (catchList env cs scope)) := by
  induction cs with
  | nil => exact .nil
  | cons c cs ih =>
    obtain ⟨hc, hcs⟩ := List.forall_mem_cons.mp h
    cases c
    exact (traced_stmts hc).append (ih hcs)

theorem traced_members {owner : Owner} {ms : List Java.Member}
    (h : (tracedTrees env).members owner ms scope) :
    Traced env scope (memberOutlineList owner ms)
      (Ceylon.Member.localsList (members env owner ms scope)) := by
  induction ms with
  | nil => exact .nil
  | cons m ms ih =>
    obtain ⟨hm, hms⟩ := List.forall_mem_cons.mp h
    exact Traced.append hm (ih hms)

theorem traced_constantList {cs : List Java.EnumConstant}
    (h : ∀ c ∈ cs, (tracedTrees env).exprs c.args scope) :
    Traced env scope (constantOutline cs) (Ceylon.Constant.localsList (constantList env cs scope)) := by
  induction cs with
  | nil => exact .nil
  | cons c cs ih =>
    obtain ⟨hc, hcs⟩ := List.forall_mem_cons.mp h
    cases c
    exact (traced_exprs hc).append (ih hcs)

/-! ## Trees -/

theorem tracedTrees_closed (env : Env) : Property.anything.Closed (tracedTrees env) where
  literal _ := .nil
  name _ := .nil
  thisRef := .nil
  superRef := .nil
  paren h := h
  field _ he := by
    simp only [tracedTrees, expr, Ceylon.Expr.locals, locals_grouped]
    exact he
  call _ htarget hargs := by
    simp only [tracedTrees, locals_call]
    exact (traced_exprOption htarget).append (traced_exprs hargs)
  create _ hargs := traced_exprs hargs
  object _ hargs hms := (traced_exprs hargs).append (traced_members hms)
  createArray _ hdims := traced_exprs hdims
  arrayOf _ hes := traced_exprs hes
  arrayInit _ hes := traced_exprs hes
  index ha hb := by
    simp only [tracedTrees, expr, Ceylon.Expr.locals, locals_grouped]
    exact Traced.append ha hb
  assign htarget _ hvalue := by
    simp only [tracedTrees, locals_assign]
    exact Traced.append htarget hvalue
  unary he := by
    simp only [tracedTrees, locals_unary]
    exact he
  binary ha hb := by
    simp only [tracedTrees, locals_binary]
    exact Traced.append ha hb
  instanceOf _ he := by
    simp only [tracedTrees, expr, Ceylon.Expr.locals, locals_grouped]
    exact he
  conditional _ ha _ hb hc := by
    simp only [tracedTrees, expr, Ceylon.Expr.locals, localsList_conditions]
    exact (Traced.append ha hb).append hc
  cast he := by
    simp only [tracedTrees, expr, locals_grouped]
    exact he
  block hb := by
    simp only [tracedTrees, stmt, Ceylon.Stmt.localsList_singleton]
    exact traced_stmts hb
  localVar {decl _} _ hinits := by
    cases decl
    exact traced_locals hinits _
  exprStmt he _ := by
    simp only [tracedTrees, stmt, localsList_exprStmt]
    exact he
  ifElse _ ha _ hbody hother := by
    have h := (Traced.append ha (.inside (.branch _) (traced_body hbody))).append hother
    constructor
    · simp only [tracedTrees, stmt, Ceylon.Stmt.localsList_singleton, Ceylon.Stmt.locals,
        localsList_conditions]
      exact h
    · simp only [tracedTrees, elseBranch, Ceylon.Else.locals, localsList_conditions]
      exact h
  whileLoop hcond hbody := by
    simp only [tracedTrees, stmt, Ceylon.Stmt.localsList_singleton, Ceylon.Stmt.locals]
    exact Traced.append hcond (.inside (.loop .native) (traced_body hbody))
  doWhile hbody hcond := by
    simp only [tracedTrees, stmt, Ceylon.Stmt.localsList_singleton, Ceylon.Stmt.locals,
      Ceylon.Expr.locals, Ceylon.Stmt.localsList_append, List.nil_append]
    exact Traced.append (.inside (.loop (.guard _)) (traced_body hbody)) hcond
  forLoop _ hinit hcond hupdate hbody := by
    simp only [tracedTrees, stmt, Ceylon.Stmt.localsList_singleton, Ceylon.Stmt.locals,
      Ceylon.Stmt.localsList_append, locals_loopCondition, ← List.append_assoc]
    exact (((traced_forInit hinit).append (traced_exprOption hcond)).append
      (.inside (.loop (.update _)) (traced_body hbody))).append (traced_exprLines hupdate)
  forEach _ he hbody := by
    simp only [tracedTrees, stmt, Ceylon.Stmt.localsList_singleton, Ceylon.Stmt.locals]
    exact Traced.append he (.inside (.loop .native) (traced_body hbody))
  switch hselector hgs := by
    simp only [tracedTrees, stmt, Ceylon.Stmt.localsList_singleton, Ceylon.Stmt.locals]
    exact (Traced.append hselector (traced_cases hgs)).append (traced_defaultBody hgs)
  breakTo := .nil
  continueTo {label scope} _ := by
    have hrepeat : Ceylon.Stmt.localsList (stmt env (.continueTo label) scope) =
        Ceylon.Stmt.localsList (repeated env scope) := by
      rw [stmt, Ceylon.Stmt.localsList_append]
      exact List.append_nil _
    simp only [tracedTrees, hrepeat]
    exact .jump
  labeled h := h
  synchronized hb := by
    simp only [tracedTrees, stmt, Ceylon.Stmt.localsList_singleton]
    exact traced_stmts hb
  constructorCall hargs := by
    simp only [tracedTrees, stmt, Ceylon.Stmt.localsList_singleton]
    exact traced_exprs hargs
  returnValue {value _} hvalue := by
    have h := traced_exprOption hvalue
    cases value with
    | none => exact .nil
    | some e =>
      simp only [tracedTrees, stmt, Ceylon.Stmt.localsList_singleton]
      exact h
  throwValue he := by
    simp only [tracedTrees, stmt, Ceylon.Stmt.localsList_singleton]
    exact he
  tryCatch _ hrs hb hcs hlast := by
    simp only [tracedTrees, stmt, Ceylon.Stmt.localsList_singleton, Ceylon.Stmt.locals]
    exact (((traced_resourceList hrs).append (traced_stmts hb)).append (traced_catchList hcs)).append
      (traced_block hlast)
  empty := .nil
  absent := .nil
  alternative hs hbody := by
    simp only [tracedTrees, elseOutline, hs, Bool.false_eq_true, if_false, elseBranch_of_not_isIf hs,
      Ceylon.Else.locals, stmtOutline_eq_parts]
    exact .inside .otherwise (traced_stmts hbody)
  fields {_ decl _} _ hinits := by
    cases decl
    exact traced_fieldList hinits
  method {owner decl _} _ hbody := by
    obtain ⟨modifiers, _, _, _, _, b⟩ := decl
    simp only [tracedTrees, member, memberOutline, Ceylon.Member.locals]
    split
    · exact .nil
    · exact traced_block hbody
  constructor {owner decl _} _ hbody := by
    cases decl
    cases owner <;> exact traced_stmts hbody
  type h := h
  initializer hb := traced_stmts hb
  ofClass {decl _} _ hms := by
    cases decl
    exact traced_members hms
  ofInterface {decl _} _ hms := by
    cases decl
    exact traced_members hms
  ofEnum {decl _} _ hms hconstants := by
    cases decl
    exact (traced_members hms).append (traced_constantList hconstants)

theorem traced_typeDecl (env : Env) (t : Java.TypeDecl) (scope : Scope) :
    Traced env scope (typeOutline t) (typeDecl env t scope).locals :=
  (tracedTrees_closed env).typeDecl Property.anything_hereditary t scope trivial

theorem traced_unit (config : Config) (scope : Scope) (u : Java.CompilationUnit) :
    Traced (Env.upTo config (fun _ _ => []) (budget scope u)) scope (unitOutline u)
      (unit config scope u).locals := by
  rw [unit, unitUpTo, Ceylon.Source.locals, List.flatMap_map]
  exact Traced.flatMap fun t _ => traced_typeDecl _ t scope

/-! ## Tails without anonymous classes -/

end CeylonFromJava.Conversion
