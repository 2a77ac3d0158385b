import CeylonFromJava.Proofs.Ceylon.Locals
import CeylonFromJava.Proofs.Conversion.TreeParts

/-! The local values in a converted tree, part by part.

Parts that are written in another form than they had, and parts that are left out, hold the same
locals as before or none. -/
namespace CeylonFromJava.Conversion
set_option autoImplicit false

open Ceylon (Condition)

variable {env : Env} {scope : Scope}

/-! ## Expressions -/

@[simp] theorem locals_grouped (needed : Bool) (e : Ceylon.Expr) :
    (grouped needed e).locals = e.locals := by
  cases needed <;> rfl

theorem locals_unparenthesized : (e : Java.Expr) →
    (expr env e scope).locals = (expr env e.unparenthesized scope).locals
  | .paren inner => locals_unparenthesized inner
  | .literal _ | .name _ | .thisRef | .superRef | .field _ _ | .call _ _ _ _ | .create _ _ _
  | .createArray _ _ _ _ | .arrayInit _ | .index _ _ | .assign _ _ _ | .unary _ _ | .binary _ _ _
  | .instanceOf _ _ | .conditional _ _ _ | .cast _ _ => rfl

/-- The console, which is left out in front of a call, holds nothing. -/
theorem locals_of_isSystemOut {e : Java.Expr} (h : isSystemOut e = true) :
    (expr env e scope).locals = [] := by
  rw [locals_unparenthesized]
  unfold isSystemOut at h
  split at h
  · next name he =>
    rw [he]
    rfl
  · next target name he =>
    rw [he]
    simp only [Bool.and_eq_true] at h
    have ht : (expr env target scope).locals = [] := by
      rw [locals_unparenthesized]
      split at h
      · next owner howner =>
        rw [howner]
        rfl
      · cases h.2
    simp [expr, ht]
  · cases h

/-- The `null` that is left out in an existence test holds nothing. -/
theorem locals_of_isNull {e : Java.Expr} (h : e.unparenthesized.isNull = true) :
    (expr env e scope).locals = [] := by
  rw [locals_unparenthesized]
  unfold Java.Expr.isNull at h
  split at h
  · next he =>
    rw [he]
    rfl
  · cases h

theorem localsOption_callTarget (target : Option Java.Expr) :
    Ceylon.Expr.localsOption (callTarget env target scope) =
      Ceylon.Expr.localsOption (target.map (expr env · scope)) := by
  cases target with
  | none => rfl
  | some target => exact locals_grouped _ _

theorem locals_call (target : Option Java.Expr) (typeArgs : List Java.TypeRef) (name : String)
    (args : List Java.Expr) :
    (expr env (.call target typeArgs name args) scope).locals =
      Ceylon.Expr.localsOption (target.map (expr env · scope)) ++
        Ceylon.Expr.localsList (exprs env args scope) := by
  by_cases hprint : (name == "println" && target.any isSystemOut) = true
  · have htarget : Ceylon.Expr.localsOption (target.map (expr env · scope)) = [] := by
      simp only [Bool.and_eq_true] at hprint
      cases target with
      | none => rfl
      | some target => exact locals_of_isSystemOut hprint.2
    rw [htarget, expr, if_pos hprint]
    rfl
  · cases hproperty : propertyOf env.config name args with
    | none =>
      simp only [expr, hproperty, if_neg hprint, Ceylon.Expr.locals, localsOption_callTarget]
    | some property =>
      -- an accessor has no arguments
      have hargs : args = [] := by
        unfold propertyOf at hproperty
        split at hproperty
        · next h => simpa using (Bool.and_eq_true_iff.mp h).2
        · cases hproperty
      subst hargs
      cases target with
      | none =>
        simp [expr, hproperty, callTarget, exprs]
      | some target =>
        simp only [expr, hproperty, if_neg hprint, callTarget, exprs, Ceylon.Expr.locals,
          Ceylon.Expr.localsList, List.append_nil, locals_grouped]
        rfl

theorem locals_unary (op : Java.UnaryOp) (operand : Java.Expr) :
    (expr env (.unary op operand) scope).locals = (expr env operand scope).locals := by
  cases op <;> simp [expr]

theorem locals_binary (left : Java.Expr) (op : Java.BinaryOp) (right : Java.Expr) :
    (expr env (.binary left op right) scope).locals =
      (expr env left scope).locals ++ (expr env right scope).locals := by
  by_cases hnull : isNullTest op right = true
  · have hright : (expr env right scope).locals = [] :=
      locals_of_isNull (Bool.and_eq_true_iff.mp hnull).2
    rw [expr, if_pos hnull, Ceylon.Expr.locals, hright, List.append_nil]
  · simp only [expr, if_neg hnull, Ceylon.Expr.locals, locals_grouped]

theorem locals_element {target : Java.Expr} {el : Element} (h : element env target scope = some el) :
    (expr env target scope).locals = el.array.locals ++ el.index.locals := by
  obtain ⟨array, index, htarget, rfl⟩ := element_eq_some h
  rw [locals_unparenthesized, htarget]
  simp [expr]

@[simp] theorem Element.locals_target (el : Element) : el.target.locals = el.array.locals :=
  locals_grouped _ _

@[simp] theorem Element.locals_arraySlot (el : Element) : el.arraySlot.locals = el.array.locals := by
  unfold Element.arraySlot
  split
  · exact el.locals_target
  · rfl

@[simp] theorem Element.locals_indexSlot (el : Element) : el.indexSlot.locals = el.index.locals := by
  unfold Element.indexSlot
  split <;> rfl

theorem locals_assign (target : Java.Expr) (op : Java.AssignOp) (value : Java.Expr) :
    (expr env (.assign target op value) scope).locals =
      (expr env target scope).locals ++ (expr env value scope).locals := by
  cases hel : element env target scope with
  | none => simp only [expr, hel, Ceylon.Expr.locals]
  | some el =>
    rw [locals_element hel]
    cases op with
    | plain => simp [expr, hel]
    | compound op => simp [expr, hel]

theorem locals_item (e : Java.Expr) : (item env scope e).locals = (expr env e scope).locals := by
  cases e with
  | instanceOf operand ty => simp [item, expr]
  | _ => rfl

theorem localsList_conditions (cond : Java.Expr) :
    Condition.localsList (conditions env cond scope fun _ => expr env cond scope) =
      (expr env cond scope).locals := by
  rw [conditions_eq_map]
  fun_induction conjuncts cond with
  | case1 left right ihl ihr =>
    rw [List.map_append, Condition.localsList_append, ihl, ihr, locals_binary]
  | case2 e h => simp [locals_item]

/-! ## Statements -/

theorem localsList_exprStmt (e : Java.Expr) :
    Ceylon.Stmt.localsList (exprStmt env e scope fun _ => expr env e scope) =
      (expr env e scope).locals := by
  have hwhole : Ceylon.Stmt.localsList [.expr (expr env e scope)] = (expr env e scope).locals := by
    rw [Ceylon.Stmt.localsList_singleton, Ceylon.Stmt.locals]
  cases e with
  | assign target op value =>
    cases op with
    | plain => exact hwhole
    | compound op =>
      cases hel : element env target scope with
      | none => simpa only [exprStmt, hel] using hwhole
      | some el =>
        simp [exprStmt, expr, hel]
  | _ => exact hwhole

theorem localsList_exprLines (es : List Java.Expr) :
    Ceylon.Stmt.localsList (exprLines env es scope) = Ceylon.Expr.localsList (exprs env es scope) := by
  induction es with
  | nil => rfl
  | cons e es ih =>
    rw [exprLines, exprs, Ceylon.Stmt.localsList, Ceylon.Expr.localsList, ih, Ceylon.Stmt.locals]

theorem locals_loopCondition (cond : Option Java.Expr) :
    (loopCondition env cond scope).locals = Ceylon.Expr.localsOption (cond.map (expr env · scope)) := by
  cases cond <;> rfl

/-- The `break`s that a case leaves out hold nothing. -/
theorem localsList_caseBody (ss : List Java.Stmt) :
    Ceylon.Stmt.localsList (caseBody env ss scope) =
      Ceylon.Stmt.localsList (stmts env ss scope) := by
  induction ss with
  | nil => rfl
  | cons s ss ih =>
    rw [stmts, Ceylon.Stmt.localsList_append, ← ih]
    cases s with
    | breakTo label =>
      cases label with
      | none => rfl
      | some label => rw [caseBody, Ceylon.Stmt.localsList_append]; simp
    | _ => rw [caseBody, Ceylon.Stmt.localsList_append]; simp

end CeylonFromJava.Conversion
