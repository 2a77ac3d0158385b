import CeylonFromJava.Proofs.Conversion.CountingLoop
import CeylonFromJava.Proofs.Conversion.ElementUpdates
import CeylonFromJava.Proofs.Conversion.TailBudget
import CeylonFromJava.Proofs.Output.SinkBytes

/-! Expressions in the header of a counting loop.

The first expressions of a counting loop stand before the loop, its updates at the end of the body and
before each `continue`. All three places write an expression as it is written inside others, with a
`let` for what an update of an element has to bind. A statement has lines of their own for that. So the
places agree with each other, and with statements exactly if nothing is bound,
`header_text_eq_statements_iff`. -/
namespace CeylonFromJava.Output.Piece
set_option autoImplicit false

/-- Texts that start with different characters at the same place. -/
theorem join_lines_ne_of_head {s t : String} {c d : Char} (hs : s.toList.head? = some c)
    (ht : t.toList.head? = some d) (hne : c ≠ d) (level : Nat) (fresh : Bool) (ps qs : List Piece) :
    String.join (lines level fresh (.text s :: ps)) ≠
      String.join (lines level fresh (.text t :: qs)) := by
  have hfirst : ∀ {s : String} {c : Char} (ps : List Piece), s.toList.head? = some c →
      ∃ rest, (String.join (lines level fresh (.text s :: ps))).toList =
        (if fresh then (indentation level).toList else []) ++ c :: rest := by
    intro s c ps hs
    obtain ⟨cs, hcs⟩ := List.head?_eq_some_iff.mp hs
    have hsome : s.isEmpty = false := by
      rw [← Bool.not_eq_true, String.isEmpty_iff]
      rintro rfl
      cases hcs
    cases fresh <;> simp [lines, hsome, hcs]
  intro h
  obtain ⟨rest, hrest⟩ := hfirst ps hs
  obtain ⟨rest', hrest'⟩ := hfirst qs ht
  rw [h, hrest'] at hrest
  exact hne (List.cons.inj (List.append_cancel_left hrest)).1.symm

end CeylonFromJava.Output.Piece

namespace CeylonFromJava.Conversion
set_option autoImplicit false

open Output (Piece)
open Output.Piece (lines_append join_lines_ne_of_head)

/-! ## Updates that bind -/

/-- A binding inside an expression starts with `let`. -/
theorem pieces_update_let {array index : Ceylon.Slot}
    (h : array.isBound = true ∨ index.isBound = true) (op : Java.ArithOp) (value : Ceylon.Expr)
    (k : Nat) : ∃ rest, (Ceylon.Expr.update array index op value).pieces k = .text "let (" :: rest := by
  cases array <;> cases index <;>
    simp [Ceylon.Slot.isBound, Ceylon.Expr.pieces, Ceylon.Slot.bindingPieces] at h ⊢

/-- The first line of a statement that binds starts with `value`. -/
theorem pieces_update_value {array index : Ceylon.Slot}
    (h : array.isBound = true ∨ index.isBound = true) (op : Java.ArithOp) (value : Ceylon.Expr)
    (k : Nat) : ∃ rest, (Ceylon.Stmt.update array index op value).pieces k = .text "value " :: rest := by
  cases array <;> cases index <;>
    simp [Ceylon.Slot.isBound, Ceylon.Stmt.pieces, Ceylon.Slot.bindingPieces] at h ⊢

section

variable {env : Env} {scope : Scope}

/-- One update, as an expression and as a statement. -/
theorem update_of_bindsFirst (env : Env) (scope : Scope) {e : Java.Expr} (h : bindsFirst e = true) :
    ∃ array index op value, expr env e scope = .update array index op value ∧
      stmt env (.expr e) scope = [.update array index op value] ∧
      (array.isBound = true ∨ index.isBound = true) := by
  unfold bindsFirst at h
  split at h
  · next target op value =>
    split at h
    · next array index htarget =>
      have hel : element env target scope = some _ := element_of_unparenthesized target htarget
      refine ⟨_, _, op, _, expr_update hel op value, by simp only [stmt, exprStmt, hel], ?_⟩
      rw [Bool.not_eq_true', Bool.and_eq_false_iff] at h
      rcases h with h | h
      · left
        simp [Element.arraySlot, h, Ceylon.Slot.isBound]
      · right
        simp [Element.indexSlot, h, Ceylon.Slot.isBound]
    · cases h
  · cases h

theorem sameLayout_stmt {e : Java.Expr} (h : bindsFirst e = false) :
    SameLayout [.expr (expr env e scope)] (stmt env (.expr e) scope) :=
  sameLayout_exprStmt h

/-! ## One expression -/

/-- An expression takes as many numbers in a header as it takes as a statement. -/
theorem temps_stmt_expr (env : Env) (scope : Scope) (e : Java.Expr) :
    Ceylon.Stmt.tempsList [.expr (expr env e scope)] =
      Ceylon.Stmt.tempsList (stmt env (.expr e) scope) := by
  cases h : bindsFirst e with
  | false => exact (sameLayout_stmt h).temps
  | true =>
    obtain ⟨array, index, op, value, hexpr, hstmt, -⟩ := update_of_bindsFirst env scope h
    rw [hexpr, hstmt]
    simp [Ceylon.Stmt.tempsList, Ceylon.Stmt.temps, Ceylon.Expr.temps]

/-! ## Lists of expressions -/

theorem stmts_map_cons (env : Env) (scope : Scope) (e : Java.Expr) (es : List Java.Expr) :
    stmts env ((e :: es).map .expr) scope =
      stmt env (.expr e) scope ++ stmts env (es.map .expr) scope := by
  rw [List.map_cons, stmts]

theorem temps_exprLines (env : Env) (scope : Scope) (es : List Java.Expr) :
    Ceylon.Stmt.tempsList (exprLines env es scope) =
      Ceylon.Stmt.tempsList (stmts env (es.map .expr) scope) := by
  induction es with
  | nil => rfl
  | cons e es ih =>
    have hlines : exprLines env (e :: es) scope =
        [.expr (expr env e scope)] ++ exprLines env es scope := rfl
    rw [hlines, stmts_map_cons, tempsList_append, tempsList_append, temps_stmt_expr, ih]

/-- The texts first differ where an update binds. -/
theorem text_exprLines_eq_iff (es : List Java.Expr) (k level : Nat) (fresh : Bool) :
    String.join (Piece.lines level fresh (Ceylon.Stmt.piecesList (exprLines env es scope) k)) =
        String.join (Piece.lines level fresh
          (Ceylon.Stmt.piecesList (stmts env (es.map .expr) scope) k)) ↔
      ∀ e ∈ es, bindsFirst e = false := by
  induction es generalizing k level fresh with
  | nil => simp [exprLines, stmts]
  | cons e es ih =>
    have hlines : exprLines env (e :: es) scope =
        [.expr (expr env e scope)] ++ exprLines env es scope := rfl
    rw [hlines, stmts_map_cons, piecesList_append, piecesList_append, List.forall_mem_cons]
    cases h : bindsFirst e with
    | false =>
      -- the same pieces up to here
      have hsame : SameLayout [.expr (expr env e scope)] (stmt env (.expr e) scope) :=
        sameLayout_stmt h
      rw [hsame.pieces, hsame.temps, lines_append, lines_append, String.join_append, String.join_append,
        String.append_right_inj, ih]
      simp
    | true =>
      obtain ⟨array, index, op, value, hexpr, hstmt, hbound⟩ := update_of_bindsFirst env scope h
      obtain ⟨rest, hlet⟩ := pieces_update_let hbound op value k
      obtain ⟨rest', hvalue⟩ := pieces_update_value hbound op value k
      have hheader : Ceylon.Stmt.piecesList [.expr (.update array index op value)] k =
          .text "let (" :: (rest ++ [.text ";", .newline]) := by
        simp [Ceylon.Stmt.piecesList, Ceylon.Stmt.pieces, hlet]
      have hstatement : Ceylon.Stmt.piecesList [.update array index op value] k =
          .text "value " :: rest' := by
        simp [Ceylon.Stmt.piecesList, hvalue]
      rw [hexpr, hstmt, hheader, hstatement, List.cons_append, List.cons_append]
      refine iff_of_false ?_ (by simp)
      exact join_lines_ne_of_head (c := 'l') (d := 'v') rfl rfl (by decide) _ _ _ _

end

/-! ## Headers -/

/-- The expressions of a header are written alike before the loop, at the end of its body and before
each `continue`, and take as many numbers as statements do. Their text is that of statements exactly if
none of them is an update that binds its array or its index. -/
theorem header_text_eq_statements_iff (config : Config) (n : Nat) (scope : Scope)
    (es : List Java.Expr) (k level : Nat) (fresh : Bool) :
    let env := Env.upTo config (fun _ _ => []) (n + 1)
    let header := exprLines env es scope
    let statements := stmts env (es.map .expr) scope
    let text := fun ss => String.join (Piece.lines level fresh (Ceylon.Stmt.piecesList ss k))
    (∀ cond update b, ∃ loop,
      stmt env (.forLoop (some (.exprs es)) cond update b) scope = header ++ [loop]) ∧
    (∀ init cond b, ∃ round, stmt env (.forLoop init cond es b) scope =
      forInit env init scope ++ [.whileLoop (loopCondition env cond scope) (round ++ header)]) ∧
    (∀ label, scope.loopTail? = some (.update es) → Java.Expr.continuesBoundList es = true →
      Java.Expr.tailDepthList es ≤ n →
        stmt env (.continueTo label) scope = header ++ [.continueLoop]) ∧
    Ceylon.Stmt.tempsList header = Ceylon.Stmt.tempsList statements ∧
    (text header = text statements ↔ ∀ e ∈ es, bindsFirst e = false) := by
  intro env header statements text
  refine ⟨fun cond update b => ⟨_, rfl⟩, fun init cond b => ⟨_, rfl⟩, ?_,
    temps_exprLines env scope es, text_exprLines_eq_iff es k level fresh⟩
  intro label htail hbound hdepth
  -- the tail is repeated with a budget smaller by one, which is enough for it
  have hrepeat : env.repeatTail scope (.update es) = header := by
    show exprLines (Env.upTo config (fun _ _ => []) n) es scope = header
    exact exprLines_upTo_eq (fun _ => rfl) (fun _ => rfl) ⟨Nat.le_refl _, hbound⟩ hdepth
      (Nat.le_succ_of_le hdepth)
  simp only [stmt, htail, hrepeat]

/-- `i++, f()[0] += 1` as the updates of the loop around a `continue`: the first is written as a
statement is, the second is not. -/
theorem header_text_eq_statements_iff_updates :
    let es : List Java.Expr := [.unary .postIncrement (.name "i"),
      .assign (.index (.call none [] "f" []) (.literal (.number "0"))) (.compound .add)
        (.literal (.number "1"))]
    let scope : Scope := [.branch [], .loop (.update es)]
    let env := Env.upTo .default (fun _ _ => []) 1
    let text := fun ss => Piece.render (Ceylon.Stmt.piecesList ss 0)
    scope.loopTail? = some (.update es) ∧ Java.Expr.continuesBoundList es = true ∧
      Java.Expr.tailDepthList es ≤ 0 ∧
      stmt env (.continueTo none) scope = exprLines env es scope ++ [.continueLoop] ∧
      (text (exprLines env es scope) = text (stmts env (es.map .expr) scope) ↔
        ∀ e ∈ es, bindsFirst e = false) := by
  intro es scope env text
  obtain ⟨-, -, hcontinue, -, htext⟩ := header_text_eq_statements_iff .default 0 scope es 0 0 true
  exact ⟨rfl, rfl, by decide, hcontinue none rfl rfl (by decide), htext⟩

/-- `f()[0] += 1` in front of a loop, at the end of a body and before a `continue` is one line with a
`let`, as a statement it is two lines. -/
theorem header_binds_on_its_line :
    let e : Java.Expr := .assign (.index (.call none [] "f" []) (.literal (.number "0")))
      (.compound .add) (.literal (.number "1"))
    let env := Env.upTo .default (fun _ _ => []) 1
    let text := fun ss => Piece.render (Ceylon.Stmt.piecesList ss 0)
    let line := "let (array0 = f()) array0.set(0, array0.get(0) + 1);\n"
    text (forInit env (some (.exprs [e])) []) = line ∧ text (tail env [] (.update [e])) = line ∧
      text (env.repeatTail [] (.update [e])) = line ∧
      text (stmt env (.expr e) []) =
        "value array0 = f();\n" ++ "array0.set(0, array0.get(0) + 1);\n" := by
  decide

end CeylonFromJava.Conversion
