import CeylonFromJava.Conversion.Unit
import CeylonFromJava.Proofs.Conversion.CleanWords
import CeylonFromJava.Proofs.Conversion.TreeInduction

/-! The text of a unit is well bracketed, and its indentation follows its braces.

Clean trees become trees that fit. A `continue` writes the tail of a loop around it, so the loops around
have to be clean as well. -/
namespace CeylonFromJava.Conversion
set_option autoImplicit false

open Output (isClean openAfter EndsLines Tidy)

variable {strict : Bool}

/-! ## Surroundings -/

def LoopTail.clean (strict : Bool) : LoopTail → Bool
  | .native => true
  | .update es => Java.Expr.cleanList strict es
  | .guard cond => cond.clean strict

/-- The loop around, if there is one, has a clean tail. -/
def Scope.Clean (strict : Bool) (scope : Scope) : Prop :=
  ∀ t, scope.loopTail? = some t → t.clean strict = true

/-- Clean tails are repeated as statements that fit. -/
def Env.Fits (strict : Bool) (env : Env) : Prop :=
  ∀ scope t, Scope.Clean strict scope → LoopTail.clean strict t = true →
    ∀ s ∈ env.repeatTail scope t, s.Fits strict

theorem fits_true : (Ceylon.Expr.literal (.bool true)).Fits strict := by
  refine .literal ?_
  cases strict <;> decide

/-- The name that constructors of an enumeration take. -/
def Owner.Clean (strict : Bool) : Owner → Prop
  | .ofClass | .ofInterface => True
  | .ofEnum name => isClean strict name = true

theorem fits_grouped {e : Ceylon.Expr} (h : e.Fits strict) (needed : Bool) :
    (grouped needed e).Fits strict := by
  cases needed with
  | false => exact h
  | true => exact h.paren

structure Element.Fits (strict : Bool) (e : Element) : Prop where
  array : e.array.Fits strict
  index : e.index.Fits strict

theorem Element.Fits.target {e : Element} (h : e.Fits strict) : e.target.Fits strict :=
  fits_grouped h.array _

theorem Element.Fits.arraySlot {e : Element} (h : e.Fits strict) : e.arraySlot.Fits strict := by
  unfold Element.arraySlot
  split
  · exact h.target
  · exact h.array

theorem Element.Fits.indexSlot {e : Element} (h : e.Fits strict) : e.indexSlot.Fits strict := by
  unfold Element.indexSlot
  split <;> exact h.index

theorem fits_param (config : Config) {p : Java.Param} (h : p.clean strict = true) :
    (param config p).Fits strict := by
  rw [Java.Param.clean, Bool.and_eq_true] at h
  exact ⟨isClean_typeRef p.ty h.1, isClean_small h.2⟩

theorem fits_params (config : Config) {ps : List Java.Param}
    (h : ps.all (Java.Param.clean strict) = true) :
    ∀ p ∈ ps.map (param config), p.Fits strict := by
  intro p hp
  obtain ⟨q, hq, rfl⟩ := List.mem_map.mp hp
  exact fits_param config (List.all_eq_true.mp h q hq)

theorem isClean_typeRefs {tys : List Java.TypeRef} (h : tys.all (Java.TypeRef.clean strict) = true) :
    ∀ ty ∈ tys.map typeRef, isClean strict ty.text = true := by
  intro ty hty
  obtain ⟨t, ht, rfl⟩ := List.mem_map.mp hty
  exact isClean_typeRef t (List.all_eq_true.mp h t ht)

theorem isClean_classTypes {tys : List Java.ClassType}
    (h : tys.all (Java.ClassType.clean strict) = true) :
    ∀ ty ∈ tys.map classType, isClean strict ty.text = true := by
  intro ty hty
  obtain ⟨t, ht, rfl⟩ := List.mem_map.mp hty
  exact isClean_classType (List.all_eq_true.mp h t ht)

/-! ## Clean trees -/

/-- A test of words, passed in clean surroundings. -/
def CleanHere (strict words : Bool) (scope : Scope) : Prop := words = true ∧ scope.Clean strict

def cleanTrees (strict : Bool) : Property where
  expr e := CleanHere strict (e.clean strict)
  stmt s := CleanHere strict (s.clean strict)
  otherwise s := CleanHere strict (Java.Stmt.cleanOption strict s)
  member owner m scope := owner.Clean strict ∧ CleanHere strict (m.clean strict) scope
  typeDecl t := CleanHere strict (t.clean strict)

namespace CleanHere

variable {a b : Bool} {scope : Scope}

theorem left (h : CleanHere strict (a && b) scope) : CleanHere strict a scope :=
  ⟨(Bool.and_eq_true_iff.mp h.1).1, h.2⟩

theorem right (h : CleanHere strict (a && b) scope) : CleanHere strict b scope :=
  ⟨(Bool.and_eq_true_iff.mp h.1).2, h.2⟩

theorem all {α : Type} {f : α → Bool} {xs : List α} (h : CleanHere strict (xs.all f) scope) :
    ∀ x ∈ xs, CleanHere strict (f x) scope :=
  fun x hx => ⟨List.all_eq_true.mp h.1 x hx, h.2⟩

/-- In the body of a loop it is the tail of that loop that has to be clean. -/
theorem inLoop (h : CleanHere strict a scope) {t : LoopTail} (ht : t.clean strict = true) :
    CleanHere strict a (.loop t :: scope) := by
  refine ⟨h.1, ?_⟩
  rintro _ ⟨⟩
  exact ht

theorem exprs {es : List Java.Expr} (h : CleanHere strict (Java.Expr.cleanList strict es) scope) :
    (cleanTrees strict).exprs es scope :=
  (Java.Expr.cleanList_eq es ▸ h).all

theorem exprOption {e : Option Java.Expr}
    (h : CleanHere strict (Java.Expr.cleanOption strict e) scope) :
    (cleanTrees strict).exprOption e scope := by
  rintro _ ⟨⟩
  exact h

theorem stmts {ss : List Java.Stmt} (h : CleanHere strict (Java.Stmt.cleanList strict ss) scope) :
    (cleanTrees strict).stmts ss scope :=
  (Java.Stmt.cleanList_eq ss ▸ h).all

theorem blockOption {b : Option (List Java.Stmt)}
    (h : CleanHere strict (Java.Stmt.cleanBlock strict b) scope) :
    (cleanTrees strict).blockOption b scope := by
  rintro _ ⟨⟩
  exact h.stmts

theorem members (owner : Owner) (howner : owner.Clean strict) {ms : List Java.Member}
    (h : CleanHere strict (Java.Member.cleanList strict ms) scope) :
    (cleanTrees strict).members owner ms scope :=
  fun m hm => ⟨howner, (Java.Member.cleanList_eq ms ▸ h).all m hm⟩

theorem inits {ds : List Java.Declarator}
    (h : CleanHere strict (Java.Declarator.cleanList strict ds) scope) :
    (cleanTrees strict).inits ds scope :=
  fun d hd => ((Java.Declarator.cleanList_eq ds ▸ h).all d hd).right.exprOption

theorem forInit {init : Option Java.ForInit}
    (h : CleanHere strict (Java.ForInit.clean strict init) scope) :
    (cleanTrees strict).forInit init scope := by
  match init with
  | none => trivial
  | some (.declare ⟨_, _, _⟩) => exact h.right.inits
  | some (.exprs _) => exact h.exprs

theorem groups {gs : List Java.SwitchGroup}
    (h : CleanHere strict (Java.SwitchGroup.cleanList strict gs) scope) :
    (cleanTrees strict).groups gs scope := by
  intro g hg
  have hg := (Java.SwitchGroup.cleanList_eq gs ▸ h).all g hg
  exact ⟨fun e he => ⟨Java.SwitchLabel.clean_of_mem hg.left.1 he, h.2⟩, hg.right.stmts⟩

theorem tailOf {t : LoopTail} (h : CleanHere strict (t.clean strict) scope) :
    (cleanTrees strict).tail t scope := by
  cases t with
  | native => trivial
  | update _ => exact h.exprs
  | guard _ => exact h

end CleanHere

theorem cleanTrees_hereditary : (cleanTrees strict).Hereditary where
  paren h := h
  field h := h.left
  call h := ⟨h.left.left.left.exprOption, h.right.exprs⟩
  create h := h.right.exprs
  object h := ⟨h.left.right.exprs, h.right.members .ofClass trivial⟩
  createArray h := h.right.exprs
  arrayOf h := h.right.exprs
  arrayInit h := h.right.exprs
  index h := ⟨h.left, h.right⟩
  assign h := ⟨h.left, h.right⟩
  unary h := h
  binary h := ⟨h.left, h.right⟩
  instanceOf h := h.left
  conditional h := ⟨h.left.left, h.left.right, h.right⟩
  cast h := h
  block h := h.stmts
  localVar {decl _} h := by
    cases decl
    exact h.right.inits
  exprStmt h := h
  ifElse h := ⟨h.left.left, h.left.right, h.right⟩
  whileLoop h := ⟨h.left, h.right.inLoop rfl⟩
  doWhile h := ⟨h.right.inLoop h.left.1, h.left⟩
  forLoop h := ⟨h.left.left.left.forInit, h.left.left.right.exprOption, h.left.right.exprs,
    h.right.inLoop h.left.right.1⟩
  forEach h := ⟨h.left.right, h.right.inLoop rfl⟩
  switch h := ⟨h.left, h.right.groups⟩
  labeled h := h
  synchronized h := h.stmts
  constructorCall h := h.exprs
  returnValue h := h.exprOption
  throwValue h := h
  tryCatch {rs _ cs _ _} h := by
    refine ⟨fun r hr => ?_, h.left.left.right.stmts, fun c hc => ?_, h.right.blockOption⟩
    · exact ((Java.Resource.cleanList_eq rs ▸ h.left.left.left).all r hr).right
    · exact ((Java.CatchClause.cleanList_eq cs ▸ h.left.right).all c hc).right.stmts
  chained h := h
  alternative _ h := h
  fields {_ decl _} h := by
    cases decl
    exact h.2.right.inits
  method {_ decl _} h := by
    cases decl
    exact h.2.right.blockOption
  constructor {_ decl _} h := by
    cases decl
    exact h.2.right.stmts
  type h := h.2
  initializer h := h.2.stmts
  ofClass {decl _} h := by
    cases decl
    exact h.right.members .ofClass trivial
  ofInterface {decl _} h := by
    cases decl
    exact h.right.members .ofInterface trivial
  ofEnum {decl _} h := by
    obtain ⟨_, name, _, constants, _⟩ := decl
    refine ⟨h.right.members (.ofEnum name) h.left.left.left.1, fun c hc => ?_⟩
    exact ((Java.EnumConstant.cleanList_eq constants ▸ h.left.right).all c hc).right.exprs

/-! ## Trees that fit -/

def fitsTrees (strict : Bool) (env : Env) : Property where
  expr e scope := (expr env e scope).Fits strict
  stmt s scope := ∀ s' ∈ stmt env s scope, s'.Fits strict
  otherwise s scope := (elseBranch env s scope).Fits strict
  member owner m scope := (member env owner m scope).Fits strict
  typeDecl t scope := (typeDecl env t scope).Fits strict

section

variable {env : Env} {scope : Scope}

theorem fits_exprs {es : List Java.Expr} (h : (fitsTrees strict env).exprs es scope) :
    ∀ e ∈ exprs env es scope, e.Fits strict := by
  rw [exprs_eq_map]
  exact List.forall_mem_map.mpr h

theorem fits_exprLines {es : List Java.Expr} (h : (fitsTrees strict env).exprs es scope) :
    ∀ s ∈ exprLines env es scope, s.Fits strict := by
  rw [exprLines_eq_map]
  exact List.forall_mem_map.mpr fun e he => Ceylon.Stmt.fits_expr (h e he)

theorem fits_element {target : Java.Expr} (h : (fitsTrees strict env).element target scope) :
    ∀ e ∈ element env target scope, e.Fits strict := by
  intro e he
  obtain ⟨array, index, htarget, rfl⟩ := element_eq_some he
  obtain ⟨ha, hi⟩ := h array index htarget
  exact ⟨ha, hi⟩

theorem clean_conjuncts {cond : Java.Expr} (h : cond.clean strict = true) :
    ∀ e ∈ conjuncts cond, e.clean strict = true := by
  fun_induction conjuncts cond with
  | case1 a b iha ihb =>
    simp only [Java.Expr.clean, Bool.and_eq_true] at h
    exact List.forall_mem_append.mpr ⟨iha h.1, ihb h.2⟩
  | case2 e => exact List.forall_mem_singleton.mpr h

theorem fits_conditions {cond : Java.Expr} (hclean : cond.clean strict = true)
    (h : (fitsTrees strict env).conditions cond scope) :
    ∀ c ∈ conditions env cond scope fun _ => expr env cond scope, c.Fits strict := by
  rw [conditions_eq_map, List.forall_mem_map]
  intro e he
  have hitem := h e he
  have hclean := clean_conjuncts hclean e he
  cases e with
  | instanceOf operand ty =>
    simp only [Java.Expr.clean, Bool.and_eq_true] at hclean
    exact Ceylon.Condition.fits_isType (isClean_typeRef ty hclean.2) hitem
  | _ => exact Ceylon.Condition.fits_holds hitem

theorem fits_stmts {ss : List Java.Stmt} (h : (fitsTrees strict env).stmts ss scope) :
    ∀ s ∈ stmts env ss scope, s.Fits strict := by
  rw [stmts_eq_flatMap, List.forall_mem_flatMap]
  exact h

theorem fits_body {s : Java.Stmt} (h : (fitsTrees strict env).body s scope) :
    ∀ s' ∈ body env s scope fun _ => stmt env s scope, s'.Fits strict := by
  rw [body_eq_stmts]
  exact fits_stmts h

theorem fits_block {b : Option (List Java.Stmt)} (h : (fitsTrees strict env).blockOption b scope) :
    ∀ body ∈ optionalBlock env b scope, ∀ s ∈ body, s.Fits strict := by
  rw [optionalBlock_eq_map]
  intro body hbody
  obtain ⟨ss, hss, rfl⟩ := Option.map_eq_some_iff.mp hbody
  exact fits_stmts (h ss hss)

theorem fits_locals {ty : Java.TypeRef} (hty : ty.clean strict = true) {ds : List Java.Declarator}
    (hds : Java.Declarator.cleanList strict ds = true) (h : (fitsTrees strict env).inits ds scope) :
    ∀ s ∈ locals env ds ty scope, s.Fits strict := by
  rw [Java.Declarator.cleanList_eq, List.all_eq_true] at hds
  rw [locals_eq_map, List.forall_mem_map]
  intro d hd
  have hname := isClean_small (Bool.and_eq_true_iff.mp (hds d hd)).1
  have hinit := h d hd
  obtain ⟨name, _ | init⟩ := d
  · exact Ceylon.Stmt.fits_declare _ (isClean_typeRef ty hty) hname nofun
  · rw [localValue]
    split
    · exact Ceylon.Stmt.fits_assertType (isClean_typeRef ty hty) hname (hinit init rfl)
    · refine Ceylon.Stmt.fits_declare _ (isClean_typeRef ty hty) hname ?_
      rintro _ ⟨⟩
      exact hinit init rfl

theorem fits_forInit {init : Option Java.ForInit} (hclean : Java.ForInit.clean strict init = true)
    (h : (fitsTrees strict env).forInit init scope) :
    ∀ s ∈ forInit env init scope, s.Fits strict := by
  match init with
  | none => exact nofun
  | some (.declare ⟨_, ty, ds⟩) =>
    simp only [Java.ForInit.clean, Bool.and_eq_true] at hclean
    exact fits_locals hclean.1 hclean.2 h
  | some (.exprs es) => exact fits_exprLines h

theorem fits_caseBody {ss : List Java.Stmt} (h : (fitsTrees strict env).stmts ss scope) :
    ∀ s ∈ caseBody env ss scope, s.Fits strict := by
  rw [caseBody_eq_stmts]
  exact fits_stmts fun s hs => h s (List.mem_filter.mp hs).1

theorem fits_cases {gs : List Java.SwitchGroup} (h : (fitsTrees strict env).groups gs scope) :
    ∀ c ∈ cases env gs scope, c.Fits strict := by
  rw [cases_eq_filterMap, List.forall_mem_filterMap]
  intro g hg c hc
  have hg := (List.mem_filter.mp hg).1
  obtain ⟨e, he, rfl⟩ := Option.map_eq_some_iff.mp hc
  exact ⟨(h g hg).1 e (mem_labels_of_firstCase he), fits_caseBody (h g hg).2⟩

theorem fits_defaultBody {gs : List Java.SwitchGroup} (h : (fitsTrees strict env).groups gs scope) :
    ∀ body ∈ defaultBody env gs scope, ∀ s ∈ body, s.Fits strict := by
  rw [defaultBody_eq]
  intro body hbody
  obtain ⟨g, hg, rfl⟩ := Option.map_eq_some_iff.mp hbody
  exact fits_caseBody (h g (List.mem_of_find?_eq_some hg)).2

theorem fits_members {owner : Owner} {ms : List Java.Member}
    (h : (fitsTrees strict env).members owner ms scope) :
    ∀ m ∈ members env owner ms scope, m.Fits strict := by
  rw [members_eq_map]
  exact List.forall_mem_map.mpr h

theorem fits_call {target : Option Java.Expr} {typeArgs : List Java.TypeRef} {x : String}
    {args : List Java.Expr} (htypes : typeArgs.all (Java.TypeRef.clean strict) = true)
    (hx : isClean strict x = true) (htarget : (fitsTrees strict env).exprOption target scope)
    (hargs : (fitsTrees strict env).exprs args scope) :
    (expr env (.call target typeArgs x args) scope).Fits strict := by
  have htarget : ∀ e ∈ callTarget env target scope, e.Fits strict := by
    rw [callTarget_eq_map]
    intro _ hsome
    obtain ⟨e, he, rfl⟩ := Option.map_eq_some_iff.mp hsome
    exact fits_grouped (htarget e he) _
  have hprint : isClean strict "print" = true := by cases strict <;> decide
  rw [expr]
  split
  · exact .call (by simp) hprint rfl (fits_exprs hargs)
  · split
    · next property hproperty =>
      have hsmall : isClean strict (Ceylon.Name.small property) = true := by
        unfold propertyOf at hproperty
        split at hproperty
        · exact isClean_small (isClean_property hproperty)
        · cases hproperty
      split
      · exact .name hsmall
      · next owner howner => exact (htarget owner howner).property hsmall
    · exact .call htarget (isClean_small hx) (isClean_typeArgsText (isClean_typeRefs htypes))
        (fits_exprs hargs)

theorem fits_exprStmt {e : Java.Expr} (he : (fitsTrees strict env).expr e scope)
    (heffect : (fitsTrees strict env).effect e scope) :
    ∀ s ∈ stmt env (.expr e) scope, s.Fits strict := by
  cases e with
  | assign target op value =>
    obtain ⟨helement, hvalue⟩ := heffect target op value rfl
    cases op with
    | plain => exact List.forall_mem_singleton.mpr (Ceylon.Stmt.fits_expr he)
    | compound op =>
      simp only [stmt, exprStmt]
      split
      · next e hsome =>
        have hslots := fits_element helement e hsome
        exact List.forall_mem_singleton.mpr
          (Ceylon.Stmt.fits_update hslots.arraySlot hslots.indexSlot op (fits_grouped hvalue _))
      · exact List.forall_mem_singleton.mpr (Ceylon.Stmt.fits_expr he)
  | _ => exact List.forall_mem_singleton.mpr (Ceylon.Stmt.fits_expr he)

theorem fitsTrees_closed (henv : env.Fits strict) :
    (cleanTrees strict).Closed (fitsTrees strict env) where
  literal h := .literal (isClean_literalText h.1)
  name h := .name (isClean_word h.1)
  thisRef := Ceylon.Expr.fits_thisRef
  superRef := Ceylon.Expr.fits_superRef
  paren he := Ceylon.Expr.Fits.paren he
  field h he := (fits_grouped he _).property (isClean_small h.right.1)
  call h htarget hargs := fits_call h.left.left.right.1 h.left.right.1 htarget hargs
  create h hargs := .instantiate (isClean_classType h.left.1) (fits_exprs hargs)
  object h hargs hms := .object (isClean_classType h.left.left.1) (fits_exprs hargs) (fits_members hms)
  createArray h hdims := .instantiate (isClean_arrayType _ h.left.1) (fits_exprs hdims)
  arrayOf h hes := by
    obtain rfl : strict = false := by simpa using h.left.1
    exact Ceylon.Expr.fits_array (fits_exprs hes)
  arrayInit h hes := by
    obtain rfl : strict = false := by simpa using h.left.1
    exact Ceylon.Expr.fits_array (fits_exprs hes)
  index ha hb := (fits_grouped ha _).get hb
  assign htarget helement hvalue := by
    have helement := fits_element helement
    simp only [fitsTrees, expr]
    split
    · exact Ceylon.Expr.Fits.assign htarget _ hvalue
    · next e he => exact (helement e he).target.set (helement e he).index hvalue
    · next e op he =>
      exact .update (helement e he).arraySlot (helement e he).indexSlot op (fits_grouped hvalue _)
  unary {op _ _} he := by
    have hnot : isClean strict "not" = true := by cases strict <;> decide
    cases op with
    | complement => exact (fits_grouped he _).property hnot
    | postIncrement | postDecrement => exact (fits_grouped he _).after _
    | plus | minus | not | preIncrement | preDecrement => exact .before _ (fits_grouped he _)
  binary {a op _ _} ha hb := by
    simp only [fitsTrees, expr]
    split
    · refine .existence (fun name hname => ?_) ha
      split at hname
      · cases hname
      · cases hname
        exact isClean_bindingName a
    · exact (fits_grouped ha _).binary op (fits_grouped hb _)
  instanceOf h he := (fits_grouped he _).isType (isClean_typeRef _ h.right.1)
  conditional h _ hcond hb hc := .conditional (fits_conditions h.1 hcond) hb hc
  cast he := fits_grouped he _
  block hb := List.forall_mem_singleton.mpr (Ceylon.Stmt.fits_block (fits_stmts hb))
  localVar {decl _} h hinits := by
    cases decl
    exact fits_locals h.left.1 h.right.1 hinits
  exprStmt he heffect := fits_exprStmt he heffect
  ifElse h _ hcond hbody hother := by
    have hcond := fits_conditions h.left.left.1 hcond
    refine ⟨List.forall_mem_singleton.mpr ?_, ?_⟩
    · exact Ceylon.Stmt.fits_ifElse hcond (fits_body hbody) hother
    · exact Ceylon.Else.Fits.chained hcond (fits_body hbody) hother
  whileLoop hcond hbody :=
    List.forall_mem_singleton.mpr (Ceylon.Stmt.fits_whileLoop hcond (fits_body hbody))
  doWhile hbody hcond := by
    refine List.forall_mem_singleton.mpr (Ceylon.Stmt.fits_whileLoop fits_true ?_)
    refine List.forall_mem_append.mpr ⟨fits_body hbody, List.forall_mem_singleton.mpr ?_⟩
    exact Ceylon.Stmt.fits_breakIf hcond
  forLoop {_ cond _ _ scope} h hinit hcond hupdate hbody := by
    have hcond : (loopCondition env cond scope).Fits strict := by
      cases cond with
      | none => exact fits_true
      | some e => exact hcond e rfl
    refine List.forall_mem_append.mpr ⟨fits_forInit h.left.left.left.1 hinit, ?_⟩
    refine List.forall_mem_singleton.mpr (Ceylon.Stmt.fits_whileLoop hcond ?_)
    exact List.forall_mem_append.mpr ⟨fits_body hbody, fits_exprLines hupdate⟩
  forEach h he hbody :=
    List.forall_mem_singleton.mpr (Ceylon.Stmt.fits_forIn (isClean_typeRef _ h.left.left.left.1)
      (isClean_small h.left.left.right.1) he (fits_body hbody))
  switch hselector hgs :=
    List.forall_mem_singleton.mpr
      (Ceylon.Stmt.fits_switch hselector (fits_cases hgs) (fits_defaultBody hgs))
  breakTo := List.forall_mem_singleton.mpr Ceylon.Stmt.fits_breakLoop
  continueTo {_ scope} h := by
    refine List.forall_mem_append.mpr
      ⟨?_, List.forall_mem_singleton.mpr Ceylon.Stmt.fits_continueLoop⟩
    cases htail : scope.loopTail? with
    | none => exact List.forall_mem_nil _
    | some t => exact henv scope t h.2 (h.2 t htail)
  labeled h := h
  synchronized hb := List.forall_mem_singleton.mpr (Ceylon.Stmt.fits_block (fits_stmts hb))
  constructorCall hargs :=
    List.forall_mem_singleton.mpr (Ceylon.Stmt.fits_delegate _ (fits_exprs hargs))
  returnValue {value _} hvalue := by
    cases value with
    | none =>
      refine List.forall_mem_singleton.mpr (Ceylon.Stmt.fits_returnValue ?_)
      intro _ h
      cases h
    | some e =>
      refine List.forall_mem_singleton.mpr (Ceylon.Stmt.fits_returnValue ?_)
      intro _ h
      cases h
      exact hvalue e rfl
  throwValue he := List.forall_mem_singleton.mpr (Ceylon.Stmt.fits_throwValue he)
  tryCatch {rs _ cs _ _} h hrs hb hcs hlast := by
    have hresources := (Java.Resource.cleanList_eq rs ▸ h.left.left.left).all
    have hcatches := (Java.CatchClause.cleanList_eq cs ▸ h.left.right).all
    refine List.forall_mem_singleton.mpr
      (Ceylon.Stmt.fits_tryCatch ?_ (fits_stmts hb) ?_ (fits_block hlast))
    · rw [resourceList_eq_map, List.forall_mem_map]
      intro r hr
      have hr' := (hresources r hr).left
      exact ⟨isClean_typeRef r.ty hr'.left.1, isClean_small hr'.right.1, hrs r hr⟩
    · rw [catchList_eq_map, List.forall_mem_map]
      intro c hc
      have hc' := (hcatches c hc).left
      have htypes := isClean_types (isClean_typeRefs hc'.left.1) (by decide : isClean false "|" = true)
      exact ⟨htypes, isClean_small hc'.right.1, fits_stmts (hcs c hc)⟩
  empty := List.forall_mem_nil _
  absent := Ceylon.Else.fits_absent
  alternative hs hbody := by
    simp only [fitsTrees, elseBranch_of_not_isIf hs]
    exact Ceylon.Else.fits_block (fits_stmts hbody)
  fields {_ decl _} h hinits := by
    obtain ⟨_, ty, ds⟩ := decl
    have hds := (Java.Declarator.cleanList_eq ds ▸ h.2.right).all
    refine Ceylon.Member.fits_fields _ _ (isClean_typeRef ty h.2.left.1) ?_
    rw [fieldList_eq_map, List.forall_mem_map]
    intro d hd
    refine ⟨isClean_small (hds d hd).left.1, fun e he => ?_⟩
    obtain ⟨init, hinit, rfl⟩ := Option.map_eq_some_iff.mp he
    exact hinits d hd init hinit
  method {owner decl _} h hbody := by
    obtain ⟨modifiers, typeParams, result, name, params, b⟩ := decl
    refine Ceylon.Member.fits_method ⟨?_, isClean_small h.2.left.left.right.1,
      typeParamsFit h.2.left.left.left.left.1, fits_params env.config h.2.left.right.1, ?_⟩
    · intro ty hty
      obtain ⟨t, ht, rfl⟩ := Option.map_eq_some_iff.mp hty
      subst ht
      exact isClean_typeRef t h.2.left.left.left.right.1
    · intro body hmem
      simp only at hmem
      split at hmem
      · cases hmem
      · exact fits_block hbody body hmem
  constructor {owner decl _} h hbody := by
    obtain ⟨_, _, params, b⟩ := decl
    have hparams := fits_params env.config h.2.left.1
    cases owner with
    | ofEnum name => exact Ceylon.Member.fits_enumConstructor h.1 hparams (fits_stmts hbody)
    | ofClass | ofInterface => exact Ceylon.Member.fits_constructor _ hparams (fits_stmts hbody)
  type h := Ceylon.Member.fits_type h
  initializer hb := Ceylon.Member.fits_statements (fits_stmts hb)
  ofClass {decl _} h hms := by
    obtain ⟨_, name, typeParams, superclass, interfaces, b⟩ := decl
    refine Ceylon.TypeDecl.fits_ofClass _ _ _ h.left.left.left.left.1
      (typeParamsFit h.left.left.left.right.1) ?_
      (isClean_satisfiesText (isClean_classTypes h.left.right.1)) (fits_members hms)
    intro ty hty
    obtain ⟨t, ht, rfl⟩ := Option.map_eq_some_iff.mp hty
    subst ht
    exact isClean_classType h.left.left.right.1
  ofInterface {decl _} h hms := by
    cases decl
    exact Ceylon.TypeDecl.fits_ofInterface _ h.left.left.left.1 (typeParamsFit h.left.left.right.1)
      (isClean_satisfiesText (isClean_classTypes h.left.right.1)) (fits_members hms)
  ofEnum {decl _} h hms hconstants := by
    obtain ⟨_, name, interfaces, constants, b⟩ := decl
    have hnames := (Java.EnumConstant.cleanList_eq constants ▸ h.left.right).all
    refine Ceylon.TypeDecl.fits_ofEnumeration _ h.left.left.left.1
      (isClean_satisfiesText (isClean_classTypes h.left.left.right.1)) (fits_members hms) ?_
    rw [constantList_eq_map, List.forall_mem_map]
    exact fun c hc => ⟨(hnames c hc).left.1, fits_exprs (hconstants c hc)⟩

end

/-! ## Units -/

theorem fits_tail {env : Env} {t : LoopTail} {scope : Scope} (h : (fitsTrees strict env).tail t scope) :
    ∀ s ∈ tail env scope t, s.Fits strict := by
  cases t with
  | native => exact nofun
  | update es => exact fits_exprLines h
  | guard cond => exact List.forall_mem_singleton.mpr (Ceylon.Stmt.fits_breakIf h)

theorem Env.fits_upTo (config : Config) (n : Nat) :
    (Env.upTo config (fun _ _ => []) n).Fits strict := by
  induction n with
  | zero => exact fun _ _ _ _ => nofun
  | succ n ih =>
    intro scope t hs ht
    exact fits_tail ((fitsTrees_closed ih).tail cleanTrees_hereditary (CleanHere.tailOf ⟨ht, hs⟩))

/-! ### Imports -/

theorem isClean_everything : isClean strict Ceylon.ImportEntry.everything = true := by
  cases strict <;> decide

theorem isClean_listed_ofMember {m : Java.ImportMember} (h : m.clean strict = true) :
    ∀ name ∈ (Ceylon.ImportEntry.ofMember m).listed, isClean strict name = true := by
  cases m with
  | single name => exact List.forall_mem_singleton.mpr h
  | wildcard => exact List.forall_mem_singleton.mpr isClean_everything

theorem isClean_listed_add {entry : Ceylon.ImportEntry}
    (h : ∀ name ∈ entry.listed, isClean strict name = true) {m : Java.ImportMember}
    (hm : m.clean strict = true) : ∀ name ∈ (entry.add m).listed, isClean strict name = true := by
  cases m with
  | wildcard => exact List.forall_mem_singleton.mpr isClean_everything
  | single name =>
    cases entry with
    | wildcard => exact h
    | members names =>
      rw [Ceylon.ImportEntry.add]
      split
      · exact h
      · exact List.forall_mem_append.mpr ⟨h, List.forall_mem_singleton.mpr hm⟩

theorem importsFit_add {table : Ceylon.ImportTable}
    (h : ∀ entry ∈ table, Ceylon.ImportEntryFits strict entry) {i : Java.Import}
    (hi : i.clean strict = true) : ∀ entry ∈ table.add i, Ceylon.ImportEntryFits strict entry := by
  rw [Java.Import.clean, Bool.and_eq_true] at hi
  induction table with
  | nil => exact List.forall_mem_singleton.mpr ⟨hi.1, isClean_listed_ofMember hi.2⟩
  | cons entry table ih =>
    obtain ⟨⟨hpackage, hnames⟩, htable⟩ := List.forall_mem_cons.mp h
    rw [Ceylon.ImportTable.add]
    split
    · exact List.forall_mem_cons.mpr ⟨⟨hpackage, isClean_listed_add hnames hi.2⟩, htable⟩
    · exact List.forall_mem_cons.mpr ⟨⟨hpackage, hnames⟩, ih htable⟩

theorem importsFit {imports : List Java.Import} (h : imports.all (Java.Import.clean strict) = true) :
    ∀ entry ∈ Ceylon.ImportTable.ofImports imports, Ceylon.ImportEntryFits strict entry := by
  suffices hfold : ∀ table : Ceylon.ImportTable,
      (∀ entry ∈ table, Ceylon.ImportEntryFits strict entry) →
        ∀ entry ∈ imports.foldl Ceylon.ImportTable.add table, Ceylon.ImportEntryFits strict entry from
    hfold [] nofun
  induction imports with
  | nil => exact fun _ htable => htable
  | cons i imports ih =>
    rw [List.all_cons, Bool.and_eq_true] at h
    exact fun table htable => ih h.2 _ (importsFit_add htable h.1)

/-! ### Texts -/

/-- The pieces of a clean unit are whole lines. -/
theorem wholeLines_unit (config : Config) {u : Java.CompilationUnit} (h : u.clean strict = true) :
    Output.WholeLines strict ((unit config [] u).pieces 0) := by
  rw [Java.CompilationUnit.clean, Bool.and_eq_true] at h
  refine Ceylon.Source.wholeLines_pieces (importsFit h.1) (fun t ht => ?_) 0
  obtain ⟨t', ht', rfl⟩ := List.mem_map.mp ht
  have hclean : (cleanTrees strict).typeDecl t' [] := ⟨List.all_eq_true.mp h.2 t' ht', nofun⟩
  exact (fitsTrees_closed (Env.fits_upTo config _)).typeDecl cleanTrees_hereditary t' [] hclean

/-- In the text of a unit with clean words the brackets are nested, and its last line is ended. If
moreover the words can start lines and arrays are not given by their elements, each line is indented
by the braces that are open before it. -/
theorem text_bracketed (config : Config) (u : Java.CompilationUnit) (h : u.clean false = true) :
    openAfter [] (text config u).toList = some [] ∧ EndsLines (text config u).toList ∧
      (u.clean true = true → Tidy (text config u).toList) := by
  refine ⟨?_, ?_, fun hstrict => ?_⟩
  · have hlines := wholeLines_unit config h 0 [] (Output.Place.level_nil false)
    exact Output.Place.openAfter_lines hlines 0 true
  · exact Output.endsLines_render ((unit config [] u).endsLine_pieces 0)
  · have hlines := wholeLines_unit config hstrict 0 [] (Output.Place.level_nil true)
    exact (Output.Place.reads_nil.putAll hlines).tidy

/-- `do { submit(new Action() { void run() { if (ready) fire(); } }); continue; } while (done);` in an
enumeration: a block opens inside the arguments of a call, and the test of the loop is written on one
line, twice. -/
theorem text_bracketed_object :
    let run : Java.Member := .method ⟨[], [], none, "run", [],
      some [.ifElse (.name "ready") (.expr (.call none [] "fire" [])) none]⟩
    let submit : Java.Stmt :=
      .expr (.call none [] "submit" [.create [⟨"Action", []⟩] [] (some [run])])
    let loop : Java.Stmt := .doWhile (.block [submit, .continueTo none]) (.name "done")
    let u : Java.CompilationUnit := ⟨none, [⟨"java.util", .single "List"⟩],
      [.ofEnum ⟨[], "Task", [], [⟨"MAIN", []⟩], [.initializer [loop]]⟩]⟩
    u.clean false = true ∧ u.clean true = true ∧
      openAfter [] (text .default u).toList = some [] ∧ EndsLines (text .default u).toList ∧
        Tidy (text .default u).toList := by
  intro run submit loop u
  have hloose : u.clean false = true := by decide
  have hstrict : u.clean true = true := by decide
  obtain ⟨hbrackets, hends, htidy⟩ := text_bracketed .default u hloose
  exact ⟨hloose, hstrict, hbrackets, hends, htidy hstrict⟩

end CeylonFromJava.Conversion
