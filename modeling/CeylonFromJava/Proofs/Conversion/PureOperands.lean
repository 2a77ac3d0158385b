import CeylonFromJava.Conversion.Tree
import CeylonFromJava.Proofs.Ceylon.UpdateForm

/-! Operands that may run twice.

An expression without calls, assignments and steps holds no update, so no temporary is numbered in what
it is converted to. -/
namespace CeylonFromJava.Conversion
set_option autoImplicit false

open Ceylon (Condition)

theorem unnumbered_grouped {e : Ceylon.Expr} (h : e.Unnumbered) (needed : Bool) :
    (grouped needed e).Unnumbered := by
  cases needed with
  | false => exact h
  | true =>
    refine ⟨h.temps, fun k k' => ?_⟩
    show Output.Piece.text "(" :: e.pieces k ++ [.text ")"] = .text "(" :: e.pieces k' ++ [.text ")"]
    rw [h.pieces k k']

/-! ## Trees -/

section

variable {env : Env}

mutual
theorem unnumbered_expr : (e : Java.Expr) → (scope : Scope) → isPure e = true →
    (expr env e scope).Unnumbered
  | .literal _, _, _ | .name _, _, _ | .thisRef, _, _ | .superRef, _, _ => ⟨rfl, fun _ _ => rfl⟩
  | .paren e, scope, h => unnumbered_grouped (unnumbered_expr e scope h) true
  | .cast _ e, scope, h => unnumbered_grouped (unnumbered_expr e scope h) _
  | .field e _, scope, h | .instanceOf e _, scope, h => by
    have he := unnumbered_grouped (unnumbered_expr e scope h)
    exact ⟨(he _).temps, fun k k' => congrArg (· ++ _) ((he _).pieces k k')⟩
  | .index a b, scope, h => by
    simp only [isPure, Bool.and_eq_true] at h
    have ha := unnumbered_grouped (unnumbered_expr a scope h.1) (a.precedence < .postfixed)
    have hb := unnumbered_expr b scope h.2
    constructor
    · rw [expr, Ceylon.Expr.temps, ha.temps, hb.temps]
    · intro k k'
      rw [expr, Ceylon.Expr.pieces, Ceylon.Expr.pieces, ha.pieces k k', hb.pieces _ (k' + _)]
  | .binary a op b, scope, h => by
    simp only [isPure, Bool.and_eq_true] at h
    have ha := unnumbered_expr a scope h.1
    have hb := unnumbered_grouped (unnumbered_expr b scope h.2)
      (b.precedence < op.precedence + 1)
    rw [expr]
    split
    · exact ⟨ha.temps, fun k k' => congrArg (_ ++ ·) (ha.pieces k k')⟩
    · have ha := unnumbered_grouped ha (a.precedence < op.precedence)
      constructor
      · rw [Ceylon.Expr.temps, ha.temps, hb.temps]
      · intro k k'
        rw [Ceylon.Expr.pieces, Ceylon.Expr.pieces, ha.pieces k k', hb.pieces _ (k' + _)]
  | .unary op e, scope, h => by
    simp only [isPure, Bool.and_eq_true] at h
    have he := unnumbered_grouped (unnumbered_expr e scope h.2)
    cases op with
    | preIncrement | preDecrement | postIncrement | postDecrement => cases h.1
    | complement => exact ⟨(he _).temps, fun k k' => congrArg (· ++ _) ((he _).pieces k k')⟩
    | plus | minus | not => exact ⟨(he _).temps, fun k k' => congrArg (_ :: ·) ((he _).pieces k k')⟩
  | .conditional a b c, scope, h => by
    simp only [isPure, Bool.and_eq_true] at h
    have ha := unnumbered_conditions a scope h.1.1 (unnumbered_expr a scope h.1.1)
    have hb := unnumbered_expr b scope h.1.2
    have hc := unnumbered_expr c scope h.2
    constructor
    · rw [expr, Ceylon.Expr.temps, Condition.tempsList_of_unnumbered ha, hb.temps, hc.temps]
    · intro k k'
      rw [expr, Ceylon.Expr.pieces, Ceylon.Expr.pieces, Condition.piecesList_of_unnumbered ha k k',
        hb.pieces _ (k' + _), hc.pieces _ (k' + _ + _)]
termination_by structural e => e

theorem unnumbered_conditions : (e : Java.Expr) → (scope : Scope) → isPure e = true →
    (expr env e scope).Unnumbered →
      ∀ c ∈ conditions env e scope fun _ => expr env e scope, c.Unnumbered
  | .binary a .and b, scope, h, _ => by
    simp only [isPure, Bool.and_eq_true] at h
    rw [conditions, List.forall_mem_append]
    exact ⟨unnumbered_conditions a scope h.1 (unnumbered_expr a scope h.1),
      unnumbered_conditions b scope h.2 (unnumbered_expr b scope h.2)⟩
  | .instanceOf e _, scope, h, _ => List.forall_mem_singleton.mpr (unnumbered_expr e scope h)
  | .literal _, _, _, he | .name _, _, _, he | .thisRef, _, _, he | .superRef, _, _, he
  | .paren _, _, _, he | .field _ _, _, _, he | .index _ _, _, _, he | .unary _ _, _, _, he
  | .conditional _ _ _, _, _, he | .cast _ _, _, _, he | .binary _ .or _, _, _, he
  | .binary _ .eq _, _, _, he | .binary _ .ne _, _, _, he | .binary _ .lt _, _, _, he
  | .binary _ .gt _, _, _, he | .binary _ .le _, _, _, he | .binary _ .ge _, _, _, he
  | .binary _ (.arith _) _, _, _, he => List.forall_mem_singleton.mpr he
termination_by structural e => e
end

end

end CeylonFromJava.Conversion
