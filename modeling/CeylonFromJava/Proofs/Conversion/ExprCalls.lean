import CeylonFromJava.Proofs.Conversion.Marker

/-! Calls in expressions are written once.

For a marker of a method, the text of an expression has as many markers as the expression has calls of
the method. What an element update binds is written once, what it writes twice has no calls. -/
namespace CeylonFromJava.Conversion
set_option autoImplicit false

open Output (Piece marks)

attribute [local simp] expr Ceylon.Expr.pieces Java.Expr.calls

section

variable {c : Char} {f : String} {env : Env}

/-! ## Parts of expressions -/

section

variable (hc : Ceylon.Lacks c Ceylon.ownTexts)

include hc

theorem marks_literal (value : Java.Literal) :
    marks c (Ceylon.literalText value) = marks c (lexeme value) := by
  cases value with
  | bool b => cases b <;> simp [Ceylon.literalText, lexeme, Output.marks_empty, hc]
  | null | number text | char text | string text =>
    simp [Ceylon.literalText, lexeme, Output.marks_append, Output.marks_empty, hc]

theorem marks_grouped (needed : Bool) (e : Ceylon.Expr) (k : Nat) :
    Piece.marks c ((grouped needed e).pieces k) = Piece.marks c (e.pieces k) := by
  cases needed <;> simp [grouped, hc]

theorem marks_array (elements : List Ceylon.Expr) (k : Nat) :
    Piece.marks c ((Ceylon.Expr.array elements).pieces k) =
      Piece.marks c (Ceylon.Expr.piecesList elements k) := by
  cases elements <;> simp [Ceylon.Expr.piecesList, hc]

end

/-- The marks of the two operands of an element; an operand that may be written twice has none. -/
structure Element.Holds (c : Char) (e : Element) (m n : Nat) : Prop where
  array : ∀ k, Piece.marks c (e.array.pieces k) = m
  arrayPure : e.arrayPure = true → m = 0
  index : ∀ k, Piece.marks c (e.index.pieces k) = n
  indexPure : e.indexPure = true → n = 0

namespace Element.Holds

variable {e : Element} {m n : Nat}

theorem target (h : e.Holds c m n) (hc : Ceylon.Lacks c Ceylon.ownTexts) (k : Nat) :
    Piece.marks c (e.target.pieces k) = m := by
  rw [Element.target, marks_grouped hc, h.array]

theorem arraySlot (h : e.Holds c m n) (hc : Ceylon.Lacks c Ceylon.ownTexts) :
    e.arraySlot.Holds c m := by
  rw [Element.arraySlot]
  by_cases hp : e.arrayPure = true
  · rw [if_pos hp]
    exact ⟨h.target hc, fun _ => h.arrayPure hp⟩
  · rw [if_neg hp]
    exact ⟨h.array, nofun⟩

theorem indexSlot (h : e.Holds c m n) : e.indexSlot.Holds c n := by
  rw [Element.indexSlot]
  by_cases hp : e.indexPure = true
  · rw [if_pos hp]
    exact ⟨h.index, fun _ => h.indexPure hp⟩
  · rw [if_neg hp]
    exact ⟨h.index, nofun⟩

end Element.Holds

/-! ## Expressions -/

/-- Calls of `f` are written with the name of the method, and can be counted by the character. -/
structure Counting (c : Char) (f : String) (env : Env) : Prop extends IsMarker c f where
  getters : env.config.convertGetters = false

mutual
theorem marks_expr (hm : Counting c f env) : (e : Java.Expr) → MarksOnly.expr c f e = true →
    (scope : Scope) → (k : Nat) → Piece.marks c ((expr env e scope).pieces k) = e.calls f
  | .literal value, h, scope, k => by
    simp only [MarksOnly.expr, beq_iff_eq] at h
    simp [marks_literal hm.lacks, h]
  | .name text, h, scope, k => by
    simp only [MarksOnly.expr, beq_iff_eq] at h
    simp [Ceylon.marks_word hm.lacks, h]
  | .thisRef, _, _, _ | .superRef, _, _, _ => by
    simp [hm.lacks]
  | .paren inner, h, scope, k => by
    simp [marks_expr hm inner h scope, hm.lacks]
  | .field target name, h, scope, k => by
    simp only [MarksOnly.expr, Bool.and_eq_true, beq_iff_eq] at h
    simp [marks_grouped hm.lacks, Ceylon.marks_small hm.lacks, h.1, marks_expr hm target h.2 scope,
      hm.lacks]
  | .call target typeArgs name args, h, scope, k => by
    simp only [MarksOnly.expr, Bool.and_eq_true, Bool.or_eq_true, beq_iff_eq] at h
    obtain ⟨⟨⟨hname, htypes⟩, htarget⟩, hargs⟩ := h
    have hproperty : propertyOf env.config name args = none := by simp [propertyOf, hm.getters]
    -- The console is printed to without its name; neither it nor `println` is a call of `f`.
    by_cases hprint : (name == "println" && target.any isSystemOut) = true
    · rw [expr, if_pos hprint, hm.calls_println hprint]
      simp [Ceylon.Expr.targetPieces, Ceylon.typeArgsText, Output.marks_empty,
        marks_exprs hm args hargs scope, hm.lacks]
    · rw [expr, if_neg hprint, hproperty]
      simp [marks_callTarget hm target htarget scope, Ceylon.marks_small hm.lacks,
        hm.marks_name hname, marks_typeArgs hm.lacks htypes, marks_exprs hm args hargs scope,
        hm.lacks, Nat.add_assoc, Nat.add_left_comm]
  | .create ty args none, h, scope, k => by
    simp only [MarksOnly.expr, Bool.and_eq_true] at h
    have hty : marks c (classType ty).text = 0 := marks_segmentList hm.lacks ty h.1
    simp [hty, marks_exprs hm args h.2 scope, hm.lacks]
  | .create _ _ (some _), h, _, _ => by cases h
  | .createArray element dims _ none, h, scope, k => by
    simp only [MarksOnly.expr, Bool.and_eq_true] at h
    simp [marks_arrayType hm.lacks element h.1, marks_exprs hm dims h.2 scope, hm.lacks]
  | .createArray _ _ _ (some elements), h, scope, k | .arrayInit elements, h, scope, k => by
    rw [expr, marks_array hm.lacks, marks_exprs hm elements h scope, Java.Expr.calls]
  | .index array index, h, scope, k => by
    simp only [MarksOnly.expr, Bool.and_eq_true] at h
    simp [marks_grouped hm.lacks, marks_expr hm array h.1 scope, marks_expr hm index h.2 scope,
      hm.lacks]
  | .assign target op value, h, scope, k => by
    simp only [MarksOnly.expr, Bool.and_eq_true] at h
    have hvalue := marks_expr hm value h.2 scope
    cases he : element env target scope with
    | none =>
      simp [he, Ceylon.marks_assignOp hm.lacks, marks_expr hm target h.1 scope, hvalue, hm.lacks]
    | some e =>
      obtain ⟨m, n, hsum, hholds⟩ := marks_element hm target h.1 scope e he
      rw [Java.Expr.calls, ← hsum]
      cases op with
      | plain =>
        simp [he, hholds.target hm.lacks, hholds.index, hvalue, hm.lacks, Nat.add_assoc]
      | compound op =>
        have hgrouped := fun k => (marks_grouped hm.lacks (value.precedence < op.precedence + 1)
          (expr env value scope) k).trans (hvalue k)
        simp only [expr, he, Ceylon.Expr.marks_update hm.lacks (hholds.arraySlot hm.lacks)
          hholds.indexSlot hgrouped]
  | .unary op operand, h, scope, k => by
    have hoperand := marks_expr hm operand h scope
    cases op <;> simp [marks_grouped hm.lacks, Ceylon.marks_unaryOp hm.lacks, hoperand, hm.lacks]
  | .binary left op right, h, scope, k => by
    simp only [MarksOnly.expr, Bool.and_eq_true] at h
    have hleft := marks_expr hm left h.1.2 scope
    by_cases hnull : isNullTest op right = true
    · have hright : right.calls f = 0 :=
        Java.Expr.calls_of_isNull ((Bool.and_eq_true _ _).mp hnull).2
      rw [expr, if_pos hnull, Ceylon.Expr.marks_existence hm.lacks
        (hm.marks_binding (by simpa using h.1.1) hnull), hleft, Java.Expr.calls, hright,
        Nat.add_zero]
    · simp [hnull, marks_grouped hm.lacks, Ceylon.marks_binaryOp hm.lacks, hleft,
        marks_expr hm right h.2 scope, hm.lacks]
  | .instanceOf operand ty, h, scope, k => by
    simp only [MarksOnly.expr, Bool.and_eq_true] at h
    simp [marks_grouped hm.lacks, marks_typeRef hm.lacks ty h.1, marks_expr hm operand h.2 scope,
      hm.lacks]
  | .conditional cond then' otherwise, h, scope, k => by
    simp only [MarksOnly.expr, Bool.and_eq_true] at h
    have hcond := marks_conditions hm cond h.1.1 scope (fun _ => expr env cond scope)
      (marks_expr hm cond h.1.1 scope)
    simp [hcond, marks_expr hm then' h.1.2 scope, marks_expr hm otherwise h.2 scope, hm.lacks,
      Nat.add_assoc]
  | .cast _ operand, h, scope, k => by
    rw [expr, marks_grouped hm.lacks, Java.Expr.calls]
    exact marks_expr hm operand h scope k
termination_by structural e => e

theorem marks_exprs (hm : Counting c f env) : (es : List Java.Expr) →
    MarksOnly.exprs c f es = true → (scope : Scope) → (k : Nat) →
      Piece.marks c (Ceylon.Expr.piecesList (exprs env es scope) k) = Java.Expr.callsList f es
  | [], _, _, _ => rfl
  | e :: es, h, scope, k => by
    simp only [MarksOnly.exprs, Bool.and_eq_true] at h
    rw [exprs, Ceylon.Expr.marks_piecesList_cons hm.lacks, marks_expr hm e h.1 scope,
      marks_exprs hm es h.2 scope, Java.Expr.callsList]
termination_by structural es => es

theorem marks_callTarget (hm : Counting c f env) : (target : Option Java.Expr) →
    MarksOnly.exprOption c f target = true → (scope : Scope) → (k : Nat) →
      Piece.marks c (Ceylon.Expr.targetPieces (callTarget env target scope) k) =
        Java.Expr.callsOption f target
  | none, _, _, _ => rfl
  | some target, h, scope, k => by
    simp [callTarget, Ceylon.Expr.targetPieces, Java.Expr.callsOption, marks_grouped hm.lacks,
      marks_expr hm target h scope, hm.lacks]
termination_by structural target => target

theorem marks_element (hm : Counting c f env) : (target : Java.Expr) →
    MarksOnly.expr c f target = true → (scope : Scope) → (e : Element) →
      element env target scope = some e →
        ∃ m n, m + n = target.calls f ∧ e.Holds c m n
  | .paren inner, h, scope, e, he => marks_element hm inner h scope e he
  | .index array index, h, scope, e, he => by
    simp only [MarksOnly.expr, Bool.and_eq_true] at h
    cases he
    exact ⟨array.calls f, index.calls f, rfl, marks_expr hm array h.1 scope, calls_of_isPure array,
      marks_expr hm index h.2 scope, calls_of_isPure index⟩
  | .literal _, _, _, _, he | .name _, _, _, _, he | .thisRef, _, _, _, he
  | .superRef, _, _, _, he | .field _ _, _, _, _, he | .call _ _ _ _, _, _, _, he
  | .create _ _ _, _, _, _, he | .createArray _ _ _ _, _, _, _, he | .arrayInit _, _, _, _, he
  | .assign _ _ _, _, _, _, he | .unary _ _, _, _, _, he | .binary _ _ _, _, _, _, he
  | .instanceOf _ _, _, _, _, he | .conditional _ _ _, _, _, _, he | .cast _ _, _, _, _, he => by
    cases he
termination_by structural target => target

theorem marks_conditions (hm : Counting c f env) : (e : Java.Expr) →
    MarksOnly.expr c f e = true → (scope : Scope) → (whole : Unit → Ceylon.Expr) →
      (∀ k, Piece.marks c ((whole ()).pieces k) = e.calls f) → (k : Nat) →
        Piece.marks c (Ceylon.Condition.piecesList (conditions env e scope whole) k) = e.calls f
  | .binary left .and right, h, scope, _, _, k => by
    simp only [MarksOnly.expr, Bool.and_eq_true] at h
    rw [conditions, Ceylon.Condition.marks_piecesList_append hm.lacks,
      marks_conditions hm left h.1.2 scope (fun _ => expr env left scope)
        (marks_expr hm left h.1.2 scope),
      marks_conditions hm right h.2 scope (fun _ => expr env right scope)
        (marks_expr hm right h.2 scope), Java.Expr.calls]
  | .instanceOf operand ty, h, scope, _, _, k => by
    simp only [MarksOnly.expr, Bool.and_eq_true] at h
    simp [conditions, Ceylon.Condition.piecesList, Ceylon.Condition.pieces,
      marks_typeRef hm.lacks ty h.1, marks_expr hm operand h.2 scope, hm.lacks]
  | .binary _ .or _, _, _, _, hw, k | .binary _ .eq _, _, _, _, hw, k
  | .binary _ .ne _, _, _, _, hw, k | .binary _ .lt _, _, _, _, hw, k
  | .binary _ .gt _, _, _, _, hw, k | .binary _ .le _, _, _, _, hw, k
  | .binary _ .ge _, _, _, _, hw, k | .binary _ (.arith _) _, _, _, _, hw, k
  | .literal _, _, _, _, hw, k | .name _, _, _, _, hw, k | .thisRef, _, _, _, hw, k
  | .superRef, _, _, _, hw, k | .paren _, _, _, _, hw, k | .field _ _, _, _, _, hw, k
  | .call _ _ _ _, _, _, _, hw, k | .create _ _ _, _, _, _, hw, k
  | .createArray _ _ _ _, _, _, _, hw, k | .arrayInit _, _, _, _, hw, k
  | .index _ _, _, _, _, hw, k | .assign _ _ _, _, _, _, hw, k | .unary _ _, _, _, _, hw, k
  | .conditional _ _ _, _, _, _, hw, k | .cast _ _, _, _, _, hw, k => hw k
termination_by structural e => e
end

theorem marks_condition (hm : Counting c f env) {cond : Java.Expr}
    (h : MarksOnly.expr c f cond = true) {scope : Scope} (k : Nat) :
    Piece.marks c (Ceylon.Condition.piecesList
      (conditions env cond scope fun _ => expr env cond scope) k) = cond.calls f :=
  marks_conditions hm cond h scope _ (marks_expr hm cond h scope) k

end

end CeylonFromJava.Conversion
