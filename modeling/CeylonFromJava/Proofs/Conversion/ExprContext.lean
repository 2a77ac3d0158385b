import CeylonFromJava.Conversion.Tree
import CeylonFromJava.Proofs.Java.Bodies

/-! What the surroundings mean for an expression.

The frames around a node and the repetition of loop tails matter to statements only, and an
expression holds statements only in the body of an anonymous class. So an expression without one is
converted to the same tree everywhere. -/
namespace CeylonFromJava.Conversion
set_option autoImplicit false

variable {env env' : Env} {scope scope' : Scope}

mutual
theorem expr_congr (hc : env.config = env'.config) : (e : Java.Expr) → e.hasBody = false →
    expr env e scope = expr env' e scope'
  | .literal _, _ | .name _, _ | .thisRef, _ | .superRef, _ => rfl
  | .paren inner, h => by
    rw [expr, expr, expr_congr hc inner h]
  | .field target name, h => by
    rw [expr, expr, expr_congr hc target h]
  | .call target typeArgs name args, h => by
    simp only [Java.Expr.hasBody, Bool.or_eq_false_iff] at h
    simp only [expr, propertyOf, hc, callTarget_congr hc target h.1, exprs_congr hc args h.2]
  | .create ty args body, h => by
    simp only [Java.Expr.hasBody, Bool.or_eq_false_iff, Option.isSome_eq_false_iff,
      Option.isNone_iff_eq_none] at h
    obtain ⟨rfl, h⟩ := h
    rw [expr, expr, exprs_congr hc args h]
  | .createArray _ _ _ (some elements), h => by
    simp only [Java.Expr.hasBody, Bool.or_eq_false_iff] at h
    rw [expr, expr, exprs_congr hc elements h.2]
  | .createArray _ dims _ none, h => by
    rw [expr, expr, exprs_congr hc dims h]
  | .arrayInit elements, h => by
    rw [expr, expr, exprs_congr hc elements h]
  | .index array index, h => by
    simp only [Java.Expr.hasBody, Bool.or_eq_false_iff] at h
    rw [expr, expr, expr_congr hc array h.1, expr_congr hc index h.2]
  | .assign target op value, h => by
    simp only [Java.Expr.hasBody, Bool.or_eq_false_iff] at h
    have helement : element env target scope = element env' target scope' :=
      element_congr hc target h.1
    have htarget : expr env target scope = expr env' target scope' := expr_congr hc target h.1
    have hvalue : expr env value scope = expr env' value scope' := expr_congr hc value h.2
    simp only [expr, helement, htarget, hvalue]
  | .unary op operand, h => by
    have hoperand : expr env operand scope = expr env' operand scope' := expr_congr hc operand h
    simp only [expr, hoperand]
  | .binary left op right, h => by
    simp only [Java.Expr.hasBody, Bool.or_eq_false_iff] at h
    rw [expr, expr, expr_congr hc left h.1, expr_congr hc right h.2]
  | .instanceOf operand ty, h => by
    rw [expr, expr, expr_congr hc operand h]
  | .conditional cond then' otherwise, h => by
    simp only [Java.Expr.hasBody, Bool.or_eq_false_iff] at h
    rw [expr, expr, conditions_congr hc cond h.1.1 (expr_congr hc cond h.1.1),
      expr_congr hc then' h.1.2, expr_congr hc otherwise h.2]
  | .cast ty operand, h => by
    rw [expr, expr, expr_congr hc operand h]

theorem exprs_congr (hc : env.config = env'.config) : (es : List Java.Expr) →
    Java.Expr.hasBodyList es = false → exprs env es scope = exprs env' es scope'
  | [], _ => rfl
  | e :: es, h => by
    simp only [Java.Expr.hasBodyList, Bool.or_eq_false_iff] at h
    rw [exprs, exprs, expr_congr hc e h.1, exprs_congr hc es h.2]

theorem callTarget_congr (hc : env.config = env'.config) : (e : Option Java.Expr) →
    Java.Expr.hasBodyOption e = false → callTarget env e scope = callTarget env' e scope'
  | none, _ => rfl
  | some e, h => by
    rw [callTarget, callTarget, expr_congr hc e h]

theorem element_congr (hc : env.config = env'.config) : (e : Java.Expr) → e.hasBody = false →
    element env e scope = element env' e scope'
  | .paren inner, h => by
    rw [element, element, element_congr hc inner h]
  | .index array index, h => by
    simp only [Java.Expr.hasBody, Bool.or_eq_false_iff] at h
    rw [element, element, expr_congr hc array h.1, expr_congr hc index h.2]
  | .literal _, _ | .name _, _ | .thisRef, _ | .superRef, _ | .field _ _, _ | .call _ _ _ _, _
  | .create _ _ _, _ | .createArray _ _ _ _, _ | .arrayInit _, _ | .assign _ _ _, _
  | .unary _ _, _ | .binary _ _ _, _ | .instanceOf _ _, _ | .conditional _ _ _, _ | .cast _ _, _ => rfl

theorem conditions_congr (hc : env.config = env'.config) : (e : Java.Expr) → e.hasBody = false →
    expr env e scope = expr env' e scope' →
      (conditions env e scope fun _ => expr env e scope) =
        conditions env' e scope' fun _ => expr env' e scope'
  | .binary left .and right, h, _ => by
    simp only [Java.Expr.hasBody, Bool.or_eq_false_iff] at h
    rw [conditions, conditions, conditions_congr hc left h.1 (expr_congr hc left h.1),
      conditions_congr hc right h.2 (expr_congr hc right h.2)]
  | .instanceOf operand ty, h, _ => by
    rw [conditions, conditions, expr_congr hc operand h]
  | .literal _, _, he | .name _, _, he | .thisRef, _, he | .superRef, _, he | .paren _, _, he
  | .field _ _, _, he | .call _ _ _ _, _, he | .create _ _ _, _, he | .createArray _ _ _ _, _, he
  | .arrayInit _, _, he | .index _ _, _, he | .assign _ _ _, _, he | .unary _ _, _, he
  | .conditional _ _ _, _, he | .cast _ _, _, he | .binary _ .or _, _, he | .binary _ .eq _, _, he
  | .binary _ .ne _, _, he | .binary _ .lt _, _, he | .binary _ .gt _, _, he
  | .binary _ .le _, _, he | .binary _ .ge _, _, he | .binary _ (.arith _) _, _, he =>
    congrArg (fun e => [Ceylon.Condition.holds e]) he
end

/-- What a loop may repeat at the end of a round without looking around. -/
def LoopTail.Plain : LoopTail → Prop
  | .native => True
  | .update es => Java.Expr.hasBodyList es = false
  | .guard cond => cond.hasBody = false

end CeylonFromJava.Conversion
