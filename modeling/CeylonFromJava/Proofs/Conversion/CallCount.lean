import CeylonFromJava.Proofs.Conversion.CountingLoop
import CeylonFromJava.Proofs.Conversion.ExprCalls

/-! Each call is written as often as it counts.

For a marker of a method, the text of statements has as many markers as the statements have calls of the
method, each counted as often as it is written. A `continue` writes the tail of the loop around it, which
is no part of the statement: a statement is counted with the calls of that tail for each of its
`continue`s. -/
namespace CeylonFromJava.Conversion
set_option autoImplicit false

open Output (Piece marks)

attribute [local simp] stmt Ceylon.Stmt.pieces Ceylon.Stmt.piecesList Java.Stmt.calls
  Java.Stmt.continues

/-! ## Tails -/

/-- The calls in what a loop runs at the end of a round. -/
@[simp] def LoopTail.calls (f : String) : LoopTail → Nat
  | .native => 0
  | .update es => Java.Expr.callsList f es
  | .guard cond => cond.calls f

def MarksOnly.tail (c : Char) (f : String) : LoopTail → Bool
  | .native => true
  | .update es => MarksOnly.exprs c f es
  | .guard cond => MarksOnly.expr c f cond

/-- The calls that a `continue` writes. -/
def Scope.tailCalls (f : String) (scope : Scope) : Nat :=
  match scope.loopTail? with
  | none => 0
  | some t => t.calls f

/-- The tail is repeated with its calls. -/
def Env.CountsTail (env : Env) (c : Char) (f : String) (t : LoopTail) : Prop :=
  ∀ scope k, Piece.marks c (Ceylon.Stmt.piecesList (env.repeatTail scope t) k) = t.calls f

/-- So is the tail of the loop around, if there is one. -/
def Scope.Counts (env : Env) (c : Char) (f : String) (scope : Scope) : Prop :=
  ∀ t, scope.loopTail? = some t → env.CountsTail c f t

/-- Calls can be counted, and tails that are not deeper than `d` are repeated with theirs. -/
structure CountingTails (c : Char) (f : String) (d : Nat) (env : Env) : Prop
    extends Counting c f env where
  tails : ∀ t, LoopTail.depth t ≤ d → MarksOnly.tail c f t = true → env.CountsTail c f t

section

variable {c : Char} {f : String} {env : Env} {d : Nat} {scope : Scope}

theorem Scope.Counts.branch (h : Scope.Counts env c f scope) (tests : List Narrowing) :
    Scope.Counts env c f (.branch tests :: scope) := by
  intro t ht
  exact h t ht

theorem Scope.Counts.loop {t : LoopTail} (h : env.CountsTail c f t) :
    Scope.Counts env c f (.loop t :: scope) := by
  intro t' ht'
  cases ht'
  exact h

@[simp] theorem Scope.tailCalls_branch (tests : List Narrowing) :
    Scope.tailCalls f (.branch tests :: scope) = Scope.tailCalls f scope := rfl

@[simp] theorem Scope.tailCalls_loop (t : LoopTail) :
    Scope.tailCalls f (.loop t :: scope) = t.calls f := rfl

/-! ## Statements without statements in them -/

theorem marks_locals (hm : Counting c f env) {ty : Java.TypeRef} (hty : ty.lacks c = true)
    {ds : List Java.Declarator} (h : MarksOnly.declarators c f ds = true) (k : Nat) :
    Piece.marks c (Ceylon.Stmt.piecesList (locals env ds ty scope) k) =
      Java.Declarator.callsList f ds := by
  have htype := marks_typeRef hm.lacks ty hty
  induction ds generalizing k with
  | nil => rfl
  | cons decl ds ih =>
    obtain ⟨name, init⟩ := decl
    simp only [MarksOnly.declarators, Bool.and_eq_true, beq_iff_eq] at h
    obtain ⟨⟨hname, hinit⟩, hds⟩ := h
    have hsmall := (Ceylon.marks_small hm.lacks name).trans hname
    cases init with
    | none =>
      cases hv : env.config.declareMutable <;>
      simp [locals, hv, Ceylon.wordIf, Ceylon.Expr.initPieces, Java.Declarator.callsList,
        Java.Expr.callsOption, htype, hsmall, ih hds, hm.lacks]
    | some init =>
      have he := marks_expr hm init hinit scope
      by_cases ha : isAsserted scope init = true
      · simp [locals, ha, Java.Declarator.callsList, Java.Expr.callsOption, htype, hsmall, he,
          ih hds, hm.lacks]
      · cases hv : env.config.declareMutable <;>
        simp [locals, ha, hv, Ceylon.wordIf, Ceylon.Expr.initPieces, Java.Declarator.callsList,
          Java.Expr.callsOption, htype, hsmall, he, ih hds, hm.lacks]

theorem marks_exprLines (hm : Counting c f env) {es : List Java.Expr}
    (h : MarksOnly.exprs c f es = true) (k : Nat) :
    Piece.marks c (Ceylon.Stmt.piecesList (exprLines env es scope) k) =
      Java.Expr.callsList f es := by
  induction es generalizing k with
  | nil => rfl
  | cons e es ih =>
    simp only [MarksOnly.exprs, Bool.and_eq_true] at h
    simp [exprLines, Java.Expr.callsList, marks_expr hm e h.1 scope, ih h.2, hm.lacks]

theorem marks_forInit (hm : Counting c f env) {init : Option Java.ForInit}
    (h : MarksOnly.forInit c f init = true) (k : Nat) :
    Piece.marks c (Ceylon.Stmt.piecesList (forInit env init scope) k) =
      Java.ForInit.calls f init := by
  cases init with
  | none => rfl
  | some init =>
    cases init with
    | declare decl =>
      obtain ⟨_, ty, ds⟩ := decl
      simp only [MarksOnly.forInit, MarksOnly.localVar, Bool.and_eq_true] at h
      exact marks_locals hm h.1 h.2 k
    | exprs es => exact marks_exprLines hm h k

theorem marks_loopCondition (hm : Counting c f env) {cond : Option Java.Expr}
    (h : MarksOnly.exprOption c f cond = true) (k : Nat) :
    Piece.marks c ((loopCondition env cond scope).pieces k) = Java.Expr.callsOption f cond := by
  cases cond with
  | none => simp [loopCondition, Ceylon.Expr.pieces, Ceylon.literalText, Java.Expr.callsOption,
    hm.lacks]
  | some cond => exact marks_expr hm cond h scope k

theorem marks_exprStmt (hm : Counting c f env) {e : Java.Expr} (h : MarksOnly.expr c f e = true)
    (k : Nat) : Piece.marks c (Ceylon.Stmt.piecesList
      (exprStmt env e scope fun _ => expr env e scope) k) = e.calls f := by
  have hline : Piece.marks c (Ceylon.Stmt.piecesList [.expr (expr env e scope)] k) = e.calls f := by
    simp [marks_expr hm e h scope, hm.lacks]
  cases e with
  | assign target op value =>
    cases op with
    | plain => exact hline
    | compound op =>
      cases he : element env target scope with
      | none => simpa only [exprStmt, he] using hline
      | some el =>
        simp only [MarksOnly.expr, Bool.and_eq_true] at h
        obtain ⟨m, n, hsum, hholds⟩ := marks_element hm target h.1 scope el he
        have hgrouped := fun k => (marks_grouped hm.lacks (value.precedence < op.precedence + 1)
          (expr env value scope) k).trans (marks_expr hm value h.2 scope k)
        rw [Java.Expr.calls, ← hsum]
        simp only [exprStmt, he, Ceylon.Stmt.piecesList, List.append_nil,
          Ceylon.Stmt.marks_update hm.lacks (hholds.arraySlot hm.lacks) hholds.indexSlot hgrouped]
  | _ => exact hline

theorem marks_resources (hm : Counting c f env) {rs : List Java.Resource}
    (h : MarksOnly.resources c f rs = true) (k : Nat) :
    Piece.marks c (Ceylon.Resource.listPieces (resourceList env rs scope) k) =
      Java.Resource.callsList f rs := by
  have hfurther : ∀ rs k, MarksOnly.resources c f rs = true →
      Piece.marks c (Ceylon.Resource.furtherPieces (resourceList env rs scope) k) =
        Java.Resource.callsList f rs := by
    intro rs
    induction rs with
    | nil => exact fun _ _ => rfl
    | cons r rs ih =>
      intro k h
      obtain ⟨ty, name, init⟩ := r
      simp only [MarksOnly.resources, Bool.and_eq_true, beq_iff_eq] at h
      simp [resourceList, Ceylon.Resource.furtherPieces, Java.Resource.callsList,
        marks_typeRef hm.lacks ty h.1.1.1, Ceylon.marks_small hm.lacks, h.1.1.2,
        marks_expr hm init h.1.2 scope, ih _ h.2, hm.lacks]
  cases rs with
  | nil => rfl
  | cons r rs =>
    obtain ⟨ty, name, init⟩ := r
    simp only [MarksOnly.resources, Bool.and_eq_true, beq_iff_eq] at h
    simp [resourceList, Ceylon.Resource.listPieces, Java.Resource.callsList,
      marks_typeRef hm.lacks ty h.1.1.1, Ceylon.marks_small hm.lacks, h.1.1.2,
      marks_expr hm init h.1.2 scope, hfurther rs _ h.2, hm.lacks]

/-! ## Bodies and branches -/

section

variable (hc : Ceylon.Lacks c Ceylon.ownTexts)

include hc

/-- A block as a body has no braces of its own. -/
theorem marks_body (s : Java.Stmt) (k : Nat) :
    Piece.marks c (Ceylon.Stmt.piecesList (body env s scope fun _ => stmt env s scope) k) =
      Piece.marks c (Ceylon.Stmt.piecesList (stmt env s scope) k) := by
  cases s with
  | block b => simp [body, Ceylon.marks_braced hc]
  | _ => rfl

/-- What follows an `else` is the statement, seen from the branch or, in a chain, from outside. -/
theorem marks_elseBranch (env : Env) (scope : Scope) (s : Java.Stmt) : ∃ scope' : Scope,
    scope'.loopTail? = scope.loopTail? ∧ ∀ k,
      Piece.marks c ((elseBranch env (some s) scope).pieces k) =
        Piece.marks c (Ceylon.Stmt.piecesList (stmt env s scope') k) := by
  cases hs : isIf s with
  | false =>
    refine ⟨.branch [] :: scope, rfl, ?_⟩
    intro k
    rw [elseBranch_of_not_isIf hs, ← body_eq_stmts, Ceylon.Else.pieces,
      Output.HasPieces.text, Output.HasPieces.ofPiece_eq, Piece.marks_text, Ceylon.marks_braced hc,
      marks_body hc]
    simp [hc]
  | true =>
    cases s with
    | ifElse cond then' otherwise =>
      refine ⟨scope, rfl, ?_⟩
      intro k
      simp [elseBranch, Ceylon.Else.pieces, hc]
    | _ => cases hs

end

/-! ## Groups of a switch -/

theorem calls_of_endsCase {s : Java.Stmt} (h : endsCase s = true) :
    s.calls f = 0 ∧ s.continues = 0 := by
  cases s with
  | breakTo _ => exact ⟨rfl, rfl⟩
  | _ => cases h

/-! ## Statements -/

mutual
theorem marks_stmt (hm : CountingTails c f d env) : (s : Java.Stmt) → MarksOnly.stmt c f s = true →
    s.tailDepth ≤ d → (scope : Scope) → Scope.Counts env c f scope → (k : Nat) →
      Piece.marks c (Ceylon.Stmt.piecesList (stmt env s scope) k) =
        s.calls f + s.continues * Scope.tailCalls f scope
  | .block b, h, hd, scope, hs, k => by
    simp [Ceylon.marks_braced hm.lacks, marks_stmts hm b h hd scope hs]
  | .synchronized _ b, h, hd, scope, hs, k => by
    simp only [Java.Stmt.tailDepth, Nat.max_le] at hd
    simp [Ceylon.marks_braced hm.lacks, marks_stmts hm b h hd.2 scope hs]
  | .localVar ⟨_, ty, ds⟩, h, hd, scope, hs, k => by
    simp only [MarksOnly.stmt, MarksOnly.localVar, Bool.and_eq_true] at h
    rw [stmt, marks_locals hm.toCounting h.1 h.2, Java.Stmt.calls, Java.Stmt.continues,
      Nat.zero_mul, Nat.add_zero]
  | .expr e, h, hd, scope, hs, k => by
    rw [stmt, marks_exprStmt hm.toCounting h, Java.Stmt.calls, Java.Stmt.continues, Nat.zero_mul,
      Nat.add_zero]
  | .ifElse cond s none, h, hd, scope, hs, k => by
    simp only [MarksOnly.stmt, Bool.and_eq_true] at h
    simp only [Java.Stmt.tailDepth, Nat.max_le] at hd
    have hbody := marks_stmt hm s h.1.2 hd.2 (.branch (Narrowing.ofCondition cond) :: scope)
      (hs.branch _)
    simp [elseBranch, Ceylon.Else.pieces, Ceylon.marks_braced hm.lacks, marks_body hm.lacks,
      marks_condition hm.toCounting h.1.1, hbody, hm.lacks, Nat.add_assoc]
  | .ifElse cond s (some t), h, hd, scope, hs, k => by
    simp only [MarksOnly.stmt, MarksOnly.stmtOption, Bool.and_eq_true] at h
    simp only [Java.Stmt.tailDepth, Nat.max_le] at hd
    have hbody := marks_stmt hm s h.1.2 hd.2.1 (.branch (Narrowing.ofCondition cond) :: scope)
      (hs.branch _)
    obtain ⟨scope', htail, helse⟩ := marks_elseBranch hm.lacks env scope t
    have hother := marks_stmt hm t h.2 hd.2.2 scope' (by simpa only [Scope.Counts, htail] using hs)
    have hcalls : Scope.tailCalls f scope' = Scope.tailCalls f scope := by
      simp only [Scope.tailCalls, htail]
    rw [hcalls] at hother
    simp [Ceylon.marks_braced hm.lacks, marks_body hm.lacks, marks_condition hm.toCounting h.1.1,
      hbody, helse, hother, hm.lacks, Nat.add_mul, Nat.add_assoc, Nat.add_left_comm]
  | .whileLoop cond b, h, hd, scope, hs, k => by
    simp only [MarksOnly.stmt, Bool.and_eq_true] at h
    simp only [Java.Stmt.tailDepth, Nat.max_le] at hd
    have hbody := marks_stmt hm b h.2 hd.2 (.loop .native :: scope)
      (.loop (hm.tails .native (Nat.zero_le d) rfl))
    simp [Ceylon.marks_braced hm.lacks, marks_body hm.lacks,
      marks_expr hm.toCounting cond h.1 scope, hbody, hm.lacks]
  | .doWhile b cond, h, hd, scope, hs, k => by
    simp only [MarksOnly.stmt, Bool.and_eq_true] at h
    simp only [Java.Stmt.tailDepth, Nat.max_le] at hd
    -- The condition is written at the end of the body and for each `continue` of the body.
    have hbody := marks_stmt hm b h.2 hd.1 (.loop (.guard cond) :: scope)
      (.loop (hm.tails (.guard cond) hd.2 h.1))
    simp [Ceylon.Expr.pieces, Ceylon.literalText, piecesList_append, Ceylon.marks_braced hm.lacks,
      marks_body hm.lacks, marks_expr hm.toCounting cond h.1 scope, hbody, hm.lacks,
      Nat.add_mul, Nat.add_assoc, Nat.add_comm, Nat.add_left_comm]
  | .forLoop init cond update b, h, hd, scope, hs, k => by
    simp only [MarksOnly.stmt, Bool.and_eq_true] at h
    simp only [Java.Stmt.tailDepth, Nat.max_le] at hd
    have hbody := marks_stmt hm b h.2 hd.2.2 (.loop (.update update) :: scope)
      (.loop (hm.tails (.update update) hd.2.1 h.1.2))
    simp [piecesList_append, Ceylon.marks_braced hm.lacks, marks_body hm.lacks,
      marks_forInit hm.toCounting h.1.1.1, marks_loopCondition hm.toCounting h.1.1.2,
      marks_exprLines hm.toCounting h.1.2, hbody, hm.lacks, Nat.add_mul, Nat.add_assoc,
      Nat.add_comm, Nat.add_left_comm]
  | .forEach ty name iterable b, h, hd, scope, hs, k => by
    simp only [MarksOnly.stmt, Bool.and_eq_true, beq_iff_eq] at h
    simp only [Java.Stmt.tailDepth, Nat.max_le] at hd
    have hbody := marks_stmt hm b h.2 hd.2 (.loop .native :: scope)
      (.loop (hm.tails .native (Nat.zero_le d) rfl))
    simp [Ceylon.marks_braced hm.lacks, marks_body hm.lacks,
      marks_typeRef hm.lacks ty h.1.1.1, Ceylon.marks_small hm.lacks, h.1.1.2,
      marks_expr hm.toCounting iterable h.1.2 scope, hbody, hm.lacks]
  | .switch selector gs, h, hd, scope, hs, k => by
    simp only [MarksOnly.stmt, Bool.and_eq_true] at h
    simp only [Java.Stmt.tailDepth, Nat.max_le] at hd
    have hcases := marks_cases hm gs h.2 hd.2 scope hs
    have hdefault := marks_default hm gs h.2 hd.2 scope hs
      (k + (expr env selector scope).temps + Ceylon.Case.tempsList (cases env gs scope))
    rw [Java.Stmt.calls, Java.Stmt.continues, Nat.add_assoc, ← hdefault]
    simp [marks_expr hm.toCounting selector h.1 scope, hcases, hm.lacks, Nat.add_assoc,
      Nat.add_comm, Nat.add_left_comm]
  | .breakTo _, _, _, _, _, _ => by
    simp [hm.lacks]
  | .continueTo _, _, _, scope, hs, k => by
    rw [stmt, Java.Stmt.calls, Java.Stmt.continues, Nat.zero_add, Nat.one_mul, piecesList_append]
    -- The tail is no part of the statement: what it writes is known from the loop around.
    cases ht : scope.loopTail? with
    | none => simp [Scope.tailCalls, ht, hm.lacks]
    | some t => simp [Scope.tailCalls, ht, hs t ht scope, hm.lacks]
  | .labeled _ b, h, hd, scope, hs, k => marks_stmt hm b h hd scope hs k
  | .constructorCall target args, h, _, scope, _, k => by
    cases target <;>
    simp [Java.ConstructorTarget.name, marks_exprs hm.toCounting args h scope, hm.lacks]
  | .returnValue none, _, _, _, _, _ => by
    simp [Java.Expr.callsOption, hm.lacks]
  | .returnValue (some value), h, _, scope, _, k | .throwValue value, h, _, scope, _, k => by
    simp [Java.Expr.callsOption, marks_expr hm.toCounting value h scope, hm.lacks]
  | .tryCatch rs b cs none, h, hd, scope, hs, k => by
    simp only [MarksOnly.stmt, Bool.and_eq_true] at h
    simp only [Java.Stmt.tailDepth, Nat.max_le] at hd
    simp [optionalBlock, Ceylon.Stmt.finallyPieces, Ceylon.marks_braced hm.lacks,
      marks_resources hm.toCounting h.1.1.1, marks_stmts hm b h.1.1.2 hd.2.1 scope hs,
      marks_catches hm cs h.1.2 hd.2.2 scope hs, hm.lacks, Nat.add_mul, Nat.add_assoc,
      Nat.add_left_comm]
  | .tryCatch rs b cs (some last), h, hd, scope, hs, k => by
    simp only [MarksOnly.stmt, MarksOnly.block, Bool.and_eq_true] at h
    simp only [Java.Stmt.tailDepth, Nat.max_le] at hd
    simp [optionalBlock, Ceylon.Stmt.finallyPieces, Ceylon.marks_braced hm.lacks,
      marks_resources hm.toCounting h.1.1.1, marks_stmts hm b h.1.1.2 hd.1.2 scope hs,
      marks_catches hm cs h.1.2 hd.2.1 scope hs, marks_stmts hm last h.2 hd.2.2 scope hs, hm.lacks,
      Nat.add_mul, Nat.add_assoc, Nat.add_left_comm]
  | .empty, _, _, _, _, _ => by
    simp
termination_by structural s => s

theorem marks_stmts (hm : CountingTails c f d env) : (ss : List Java.Stmt) →
    MarksOnly.stmts c f ss = true → Java.Stmt.tailDepthList ss ≤ d → (scope : Scope) →
      Scope.Counts env c f scope → (k : Nat) →
        Piece.marks c (Ceylon.Stmt.piecesList (stmts env ss scope) k) =
          Java.Stmt.callsList f ss + Java.Stmt.continuesList ss * Scope.tailCalls f scope
  | [], _, _, _, _, _ => by
    simp [stmts, Java.Stmt.callsList, Java.Stmt.continuesList]
  | s :: ss, h, hd, scope, hs, k => by
    simp only [MarksOnly.stmts, Bool.and_eq_true] at h
    simp only [Java.Stmt.tailDepthList, Nat.max_le] at hd
    rw [stmts, piecesList_append, Piece.marks_append, marks_stmt hm s h.1 hd.1 scope hs,
      marks_stmts hm ss h.2 hd.2 scope hs, Java.Stmt.callsList, Java.Stmt.continuesList, Nat.add_mul]
    omega
termination_by structural ss => ss

theorem marks_caseBody (hm : CountingTails c f d env) : (ss : List Java.Stmt) →
    MarksOnly.stmts c f ss = true → Java.Stmt.tailDepthList ss ≤ d → (scope : Scope) →
      Scope.Counts env c f scope → (k : Nat) →
        Piece.marks c (Ceylon.Stmt.piecesList (caseBody env ss scope) k) =
          Java.Stmt.callsList f ss + Java.Stmt.continuesList ss * Scope.tailCalls f scope
  | [], _, _, _, _, _ => by
    simp [caseBody, Java.Stmt.callsList, Java.Stmt.continuesList]
  | s :: ss, h, hd, scope, hs, k => by
    simp only [MarksOnly.stmts, Bool.and_eq_true] at h
    simp only [Java.Stmt.tailDepthList, Nat.max_le] at hd
    have hs' : Piece.marks c (Ceylon.Stmt.piecesList
        (if endsCase s then [] else stmt env s scope) k) =
          s.calls f + s.continues * Scope.tailCalls f scope := by
      by_cases he : endsCase s = true
      · have hnone := calls_of_endsCase (f := f) he
        simp [he, hnone]
      · rw [if_neg he]
        exact marks_stmt hm s h.1 hd.1 scope hs k
    rw [caseBody_cons, piecesList_append, Piece.marks_append, hs',
      marks_caseBody hm ss h.2 hd.2 scope hs, Java.Stmt.callsList, Java.Stmt.continuesList, Nat.add_mul]
    omega
termination_by structural ss => ss

theorem marks_cases (hm : CountingTails c f d env) : (gs : List Java.SwitchGroup) →
    MarksOnly.groups c f gs = true → Java.SwitchGroup.tailDepthList gs ≤ d → (scope : Scope) →
      Scope.Counts env c f scope → (k : Nat) →
        Piece.marks c (Ceylon.Case.piecesList (cases env gs scope) k) =
          Java.SwitchGroup.callsList f gs false +
            Java.SwitchGroup.continuesList gs false * Scope.tailCalls f scope
  | [], _, _, _, _, _ => by
    simp [cases, Ceylon.Case.piecesList, Java.SwitchGroup.callsList, Java.SwitchGroup.continuesList]
  | ⟨labels, b⟩ :: gs, h, hd, scope, hs, k => by
    simp only [MarksOnly.groups, Bool.and_eq_true] at h
    simp only [Java.SwitchGroup.tailDepthList, Nat.max_le] at hd
    have hbody := marks_caseBody hm b h.1.2 hd.1.2 scope hs
    have hrest := marks_cases hm gs h.2 hd.2 scope hs
    by_cases hdefault : (⟨labels, b⟩ : Java.SwitchGroup).isDefault = true
    · have hcases : cases env (⟨labels, b⟩ :: gs) scope = cases env gs scope := by
        rw [cases]
        split
        · rfl
        · rw [if_pos hdefault]
      rw [hcases, hrest, Java.SwitchGroup.callsList, Java.SwitchGroup.continuesList]
      simp [Java.SwitchGroup.isWritten, hdefault]
    · cases labels with
      | nil =>
        simp [cases, firstLabel, hrest, Java.SwitchGroup.callsList, Java.SwitchGroup.continuesList,
          Java.SwitchGroup.isWritten, hdefault]
      | cons label labels =>
        cases label with
        | default => simp [Java.SwitchGroup.isDefault] at hdefault
        | case value =>
          simp only [MarksOnly.labels, Bool.and_eq_true] at h
          simp [cases, firstLabel, hdefault, Ceylon.Case.piecesList, Ceylon.marks_braced hm.lacks,
            Java.SwitchGroup.callsList, Java.SwitchGroup.continuesList, Java.SwitchGroup.isWritten,
            Java.SwitchLabel.callsFirst, marks_expr hm.toCounting value h.1.1.1 scope, hbody, hrest,
            hm.lacks, Nat.add_mul, Nat.add_assoc, Nat.add_left_comm]
termination_by structural gs => gs

theorem marks_default (hm : CountingTails c f d env) : (gs : List Java.SwitchGroup) →
    MarksOnly.groups c f gs = true → Java.SwitchGroup.tailDepthList gs ≤ d → (scope : Scope) →
      Scope.Counts env c f scope → (k : Nat) →
        Piece.marks c (Ceylon.Stmt.elsePieces (defaultBody env gs scope) k) +
          (Java.SwitchGroup.callsList f gs false +
            Java.SwitchGroup.continuesList gs false * Scope.tailCalls f scope) =
          Java.SwitchGroup.callsList f gs true +
            Java.SwitchGroup.continuesList gs true * Scope.tailCalls f scope
  | [], _, _, _, _, _ => by
    simp [defaultBody, Ceylon.Stmt.elsePieces, Java.SwitchGroup.callsList,
      Java.SwitchGroup.continuesList, hm.lacks]
  | ⟨labels, b⟩ :: gs, h, hd, scope, hs, k => by
    simp only [MarksOnly.groups, Bool.and_eq_true] at h
    simp only [Java.SwitchGroup.tailDepthList, Nat.max_le] at hd
    have hbody := marks_caseBody hm b h.1.2 hd.1.2 scope hs
    have hrest := marks_default hm gs h.2 hd.2 scope hs k
    by_cases hdefault : (⟨labels, b⟩ : Java.SwitchGroup).isDefault = true
    · simp [defaultBody, hdefault, Ceylon.Stmt.elsePieces, Ceylon.marks_braced hm.lacks, hbody,
      Java.SwitchGroup.callsList, Java.SwitchGroup.continuesList, Java.SwitchGroup.isWritten,
      hm.lacks, Nat.add_mul, Nat.add_assoc, Nat.add_left_comm]
    · rw [Bool.not_eq_true] at hdefault
      simp only [defaultBody, hdefault, Java.SwitchGroup.callsList, Java.SwitchGroup.continuesList,
        Java.SwitchGroup.isWritten, Bool.false_eq_true, if_false, Bool.not_false, Bool.and_true,
        Nat.add_mul]
      omega
termination_by structural gs => gs

theorem marks_catches (hm : CountingTails c f d env) : (cs : List Java.CatchClause) →
    MarksOnly.catches c f cs = true → Java.CatchClause.tailDepthList cs ≤ d → (scope : Scope) →
      Scope.Counts env c f scope → (k : Nat) →
        Piece.marks c (Ceylon.Catch.piecesList (catchList env cs scope) k) =
          Java.CatchClause.callsList f cs +
            Java.CatchClause.continuesList cs * Scope.tailCalls f scope
  | [], _, _, _, _, _ => by
    simp [catchList, Ceylon.Catch.piecesList, Java.CatchClause.callsList,
      Java.CatchClause.continuesList]
  | ⟨types, name, b⟩ :: cs, h, hd, scope, hs, k => by
    simp only [MarksOnly.catches, Bool.and_eq_true, beq_iff_eq] at h
    simp only [Java.CatchClause.tailDepthList, Nat.max_le] at hd
    have hbar : marks c "|" = 0 := by simp [hm.lacks]
    have htypes := marks_types hm.lacks h.1.1.1 hbar
    simp only [catchList, Ceylon.Catch.piecesList, Java.CatchClause.callsList,
      Java.CatchClause.continuesList, Output.HasPieces.ofPiece_eq, Piece.marks_append,
      Piece.marks_text, Piece.marks_nil, htypes,
      Ceylon.marks_small hm.lacks, h.1.1.2, Ceylon.marks_braced hm.lacks,
      marks_stmts hm b h.1.2 hd.1 scope hs, marks_catches hm cs h.2 hd.2 scope hs, hm.lacks,
      Nat.add_mul]
    omega
termination_by structural cs => cs
end

/-! ## Texts of statements -/

/-- A tail is made of expressions, so with room for it, it is repeated with its calls. -/
theorem Env.countingTails_upTo (hm : IsMarker c f) {config : Config}
    (hgetters : config.convertGetters = false) (n : Nat) :
    CountingTails c f n (Env.upTo config (fun _ _ => []) n) := by
  have hcounting : ∀ n, Counting c f (Env.upTo config (fun _ _ => []) n) := by
    intro n
    exact ⟨hm, by rw [Env.config_upTo, hgetters]⟩
  refine ⟨hcounting n, ?_⟩
  intro t hd ht scope k
  cases n with
  | zero =>
    cases t with
    | native => rfl
    | update es => exact absurd hd (Nat.not_succ_le_zero _)
    | guard cond => exact absurd hd (Nat.not_succ_le_zero _)
  | succ n =>
    cases t with
    | native => rfl
    | update es => exact marks_exprLines (hcounting n) ht k
    | guard cond =>
      have hcond := marks_expr (hcounting n) cond ht scope
      simp [Env.upTo, tail, hcond, hm.lacks]

/-- Outside of loops, the text of statements has one marker for each call of the method, as often as
the call counts. -/
theorem marks_text_stmts (hm : IsMarker c f) {config : Config}
    (hgetters : config.convertGetters = false) {ss : List Java.Stmt}
    (hss : MarksOnly.stmts c f ss = true) {budget : Nat}
    (hbudget : Java.Stmt.tailDepthList ss ≤ budget) (hscope : scope.loopTail? = none)
    (level : Nat) (fresh : Bool) (k : Nat) :
    marks c (String.join (Piece.lines level fresh (Ceylon.Stmt.piecesList
      (stmts (Env.upTo config (fun _ _ => []) budget) ss scope) k))) = Java.Stmt.callsList f ss := by
  have hblank : c ∉ Output.indentUnit.toList := hm.foreign "    " (by simp)
  have hend : c ∉ "\n".toList := hm.foreign "\n" (by simp)
  have hcounts : Scope.Counts (Env.upTo config (fun _ _ => []) budget) c f scope := by
    intro t ht
    rw [hscope] at ht
    cases ht
  have hnone : Scope.tailCalls f scope = 0 := by rw [Scope.tailCalls, hscope]
  rw [Piece.marks_lines hblank hend, marks_stmts (Env.countingTails_upTo hm hgetters budget) ss hss
    hbudget scope hcounts, hnone, Nat.mul_zero, Nat.add_zero]

end

/-- `do { a[next$()] += 1; switch (s) { … } } while (next$() != null);` where the first group of the
`switch` has two labels that are calls and ends with `continue`, and the second one has a call but no
label. The index and the first label are written once, the condition twice. -/
theorem marks_text_stmts_doWhile :
    let next : Java.Expr := .call none [] "next$" []
    let body : Java.Stmt := .block
      [.expr (.assign (.index (.name "a") next) (.compound .add) (.literal (.number "1"))),
       .switch (.name "s") [⟨[.case next, .case next], [.continueTo none]⟩, ⟨[], [.expr next]⟩]]
    let ss : List Java.Stmt := [.doWhile body (.binary next .ne (.literal .null))]
    marks '$' (String.join (Piece.lines 0 true (Ceylon.Stmt.piecesList
      (stmts (Env.upTo .default (fun _ _ => []) 1) ss []) 0))) = 4 := by
  have hm : IsMarker '$' "next$" := by
    refine ⟨?_, by decide, ?_, by decide⟩
    · rw [Ceylon.Foreign]
      decide
    · intro d hd
      cases hd
      decide
  exact marks_text_stmts hm rfl (by decide) (by decide) rfl 0 true 0

end CeylonFromJava.Conversion
