import CeylonFromJava.Conversion.Tree
import CeylonFromJava.Proofs.Ceylon.OwnTexts

/-! Null tests and the grouping of what they test.

An existence test binds as tightly as a comparison, yet what it tests is written without parentheses.
So `(l op r) != null` and `(l != null) op r`, for an operator that binds looser, can have one text:
they have exactly if the test of `l` binds a name and `l` needs no parentheses in front of the operator,
`null_test_text_ne_iff`. -/
namespace CeylonFromJava.Conversion
set_option autoImplicit false

open Java (Precedence BinaryOp)
open Output (Piece)

section

variable {env : Env} {scope : Scope} {l r null : Java.Expr} {op cmp : BinaryOp}

/-! ## Trees of null tests -/

theorem isNullTest_of_loose (hop : op.precedence < .equality) (right : Java.Expr) :
    isNullTest op right = false := by
  cases op with
  | eq | ne => exact absurd hop (Nat.lt_irrefl _)
  | _ => rfl

theorem isNullTest_of_isNull (hcmp : cmp = .eq ∨ cmp = .ne) (hnull : null.unparenthesized.isNull = true) :
    isNullTest cmp null = true := by
  rcases hcmp with rfl | rfl <;> exact hnull

/-- A test of `l op r` binds a name, since that is no name itself. -/
theorem expr_test_outside (hcmp : cmp = .eq ∨ cmp = .ne) (hnull : null.unparenthesized.isNull = true)
    (hop : op.precedence < .equality) :
    expr env (.binary (.binary l op r) cmp null) scope =
      .existence (cmp == .ne) (some (bindingName l))
        (.binary (grouped (l.precedence < op.precedence) (expr env l scope)) op
          (grouped (r.precedence < op.precedence + 1) (expr env r scope))) := by
  simp [expr, isNullTest_of_isNull hcmp hnull, isNullTest_of_loose hop, isSimpleName,
    Java.Expr.unparenthesized, bindingName, leftmostToken]

theorem expr_test_inside (hcmp : cmp = .eq ∨ cmp = .ne) (hnull : null.unparenthesized.isNull = true)
    (hop : op.precedence < .equality) :
    expr env (.binary (.binary l cmp null) op r) scope =
      .binary (.existence (cmp == .ne) (if isSimpleName l then none else some (bindingName l))
          (expr env l scope)) op
        (grouped (r.precedence < op.precedence + 1) (expr env r scope)) := by
  have htight : ¬ (Java.Expr.binary l cmp null).precedence < op.precedence := by
    rcases hcmp with rfl | rfl <;> exact Nat.not_lt.mpr (Nat.le_of_lt hop)
  simp [expr, isNullTest_of_isNull hcmp hnull, isNullTest_of_loose hop, htight, grouped]

/-! ## Their texts -/

section

variable (holds : Bool) (name : String) (left right : Ceylon.Expr) (k level : Nat) (fresh : Bool)

/-- Without parentheses nothing tells the two groupings apart. -/
theorem pieces_existence_binary (binding : Option String) :
    (Ceylon.Expr.existence holds binding (.binary left op right)).pieces k =
      (Ceylon.Expr.binary (.existence holds binding left) op right).pieces k := by
  simp [Ceylon.Expr.pieces, Ceylon.Expr.temps]

/-- Parentheses around the left operand tell them apart. -/
theorem text_ne_of_paren (binding : Option String) :
    String.join (Piece.lines level fresh
        ((Ceylon.Expr.existence holds binding (.binary (.paren left) op right)).pieces k)) ≠
      String.join (Piece.lines level fresh
        ((Ceylon.Expr.binary (.existence holds binding left) op right).pieces k)) := by
  intro h
  have hmarks := congrArg (Output.marks '(') h
  rw [Piece.marks_lines (by decide) (by decide), Piece.marks_lines (by decide) (by decide),
    pieces_existence_binary] at hmarks
  have hopen : Output.marks '(' "(" = 1 := by decide
  simp only [Ceylon.Expr.pieces, Ceylon.Expr.temps, Piece.marks_append,
    Output.HasPieces.ofPiece_eq, Piece.marks_text, hopen, List.cons_append] at hmarks
  omega

/-- A name that is bound is followed by an equals sign. -/
theorem text_ne_of_bound (needed : Bool) :
    String.join (Piece.lines level fresh
        ((Ceylon.Expr.existence holds (some name) (.binary (grouped needed left) op right)).pieces k)) ≠
      String.join (Piece.lines level fresh
        ((Ceylon.Expr.binary (.existence holds none left) op right).pieces k)) := by
  intro h
  have hmarks := congrArg (Output.marks '=') h
  rw [Piece.marks_lines (by decide) (by decide), Piece.marks_lines (by decide) (by decide),
    pieces_existence_binary] at hmarks
  have hequals : Output.marks '=' " = " = 1 := by decide
  cases needed <;>
    simp only [grouped, Ceylon.Expr.pieces, Ceylon.Expr.temps, Piece.marks_append,
      Output.HasPieces.ofPiece_eq, Piece.marks_text, hequals, List.cons_append, if_true, if_false,
      Bool.false_eq_true] at hmarks
  · omega
  · omega

end

/-! ## Groupings that are told apart -/

/-- Whether the test is outside or inside is seen in the text exactly if the test of `l` alone binds no
name or `l` is in parentheses in front of the operator. -/
theorem null_test_text_ne_iff (env : Env) (scope : Scope) (l r : Java.Expr) {null : Java.Expr}
    {op cmp : BinaryOp} (hop : op.precedence < .equality) (hcmp : cmp = .eq ∨ cmp = .ne)
    (hnull : null.unparenthesized.isNull = true) (k level : Nat) (fresh : Bool) :
    String.join (Piece.lines level fresh
        ((expr env (.binary (.binary l op r) cmp null) scope).pieces k)) ≠
      String.join (Piece.lines level fresh
        ((expr env (.binary (.binary l cmp null) op r) scope).pieces k)) ↔
      isSimpleName l = true ∨ l.precedence < op.precedence := by
  rw [expr_test_outside hcmp hnull hop, expr_test_inside hcmp hnull hop]
  cases hsimple : isSimpleName l with
  | true => exact iff_of_true (text_ne_of_bound _ _ _ _ _ _ _ _) (.inl rfl)
  | false =>
    by_cases hloose : l.precedence < op.precedence
    · rw [grouped, if_pos (decide_eq_true hloose)]
      exact iff_of_true (text_ne_of_paren _ _ _ _ _ _ _) (.inr hloose)
    · rw [grouped, if_neg (by simpa using hloose)]
      refine iff_of_false (fun hne => hne ?_) (by simp [hloose])
      rw [← pieces_existence_binary]
      rfl

/-- With a name as the left operand the texts differ. -/
theorem null_test_text_ne_iff_name :
    let env : Env := ⟨.default, fun _ _ => []⟩
    let null : Java.Expr := .literal .null
    BinaryOp.or.precedence < Precedence.equality ∧ null.unparenthesized.isNull = true ∧
      (Piece.render ((expr env (.binary (.binary (.name "a") .or (.name "b")) .ne null) []).pieces 0) ≠
          Piece.render ((expr env (.binary (.binary (.name "a") .ne null) .or (.name "b")) []).pieces 0) ↔
        isSimpleName (.name "a") = true ∨ (Java.Expr.name "a").precedence < BinaryOp.or.precedence) :=
  ⟨by decide, rfl, null_test_text_ne_iff _ _ _ _ (by decide) (.inr rfl) rfl 0 0 true⟩

/-- `(f.g || b) != null` and `(f.g != null) || b` have the same text. -/
theorem null_test_groupings_collide :
    let env : Env := ⟨.default, fun _ _ => []⟩
    let field : Java.Expr := .field (.name "f") "g"
    let outside : Java.Expr := .binary (.binary field .or (.name "b")) .ne (.literal .null)
    let inside : Java.Expr := .binary (.binary field .ne (.literal .null)) .or (.name "b")
    Piece.render ((expr env outside []).pieces 0) = "exists f = f.g || b" ∧
      Piece.render ((expr env inside []).pieces 0) = "exists f = f.g || b" := by
  decide

end

end CeylonFromJava.Conversion
