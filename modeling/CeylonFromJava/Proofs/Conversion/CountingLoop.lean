import CeylonFromJava.Ceylon.Source
import CeylonFromJava.Proofs.Conversion.StmtContext

/-! Counting loops are written as their `while` form.

A `continue` asks the frames around it what to repeat. In the body of a counting loop these frames
find the updates exactly where `withTail` puts them: before each `continue` that has no other loop
around it. -/
namespace CeylonFromJava.Conversion
set_option autoImplicit false

open Ceylon (Condition Else)

attribute [local simp] Ceylon.Stmt.pieces

/-! ## Statements that are laid out alike -/

/-- The statements have the same text and take as many temporary numbers. -/
structure SameLayout (ss ss' : List Ceylon.Stmt) : Prop where
  pieces : ∀ k, Ceylon.Stmt.piecesList ss k = Ceylon.Stmt.piecesList ss' k
  temps : Ceylon.Stmt.tempsList ss = Ceylon.Stmt.tempsList ss'

structure SameElse (e e' : Else) : Prop where
  pieces : ∀ k, e.pieces k = e'.pieces k
  temps : e.temps = e'.temps

theorem piecesList_append (ss ss' : List Ceylon.Stmt) (k : Nat) :
    Ceylon.Stmt.piecesList (ss ++ ss') k = Ceylon.Stmt.piecesList ss k ++
      Ceylon.Stmt.piecesList ss' (k + Ceylon.Stmt.tempsList ss) := by
  induction ss generalizing k with
  | nil => simp [Ceylon.Stmt.piecesList, Ceylon.Stmt.tempsList]
  | cons s ss ih => simp [Ceylon.Stmt.piecesList, Ceylon.Stmt.tempsList, ih, Nat.add_assoc]

theorem tempsList_append (ss ss' : List Ceylon.Stmt) :
    Ceylon.Stmt.tempsList (ss ++ ss') = Ceylon.Stmt.tempsList ss + Ceylon.Stmt.tempsList ss' := by
  induction ss with
  | nil => simp [Ceylon.Stmt.tempsList]
  | cons s ss ih => simp [Ceylon.Stmt.tempsList, ih, Nat.add_assoc]

namespace SameLayout

variable {ss ss' ts ts' : List Ceylon.Stmt}

theorem refl (ss : List Ceylon.Stmt) : SameLayout ss ss := ⟨fun _ => rfl, rfl⟩

theorem append (h : SameLayout ss ss') (ht : SameLayout ts ts') : SameLayout (ss ++ ts) (ss' ++ ts') := by
  constructor
  · intro k
    rw [piecesList_append, piecesList_append, h.pieces, h.temps, ht.pieces]
  · rw [tempsList_append, tempsList_append, h.temps, ht.temps]

theorem block (h : SameLayout ss ss') : SameLayout [.block ss] [.block ss'] := by
  constructor
  · simp [Ceylon.Stmt.piecesList, Ceylon.Stmt.pieces, h.pieces]
  · simp [Ceylon.Stmt.tempsList, Ceylon.Stmt.temps, h.temps]

theorem whileLoop (h : SameLayout ss ss') (cond : Ceylon.Expr) :
    SameLayout [.whileLoop cond ss] [.whileLoop cond ss'] := by
  constructor
  · simp [Ceylon.Stmt.piecesList, Ceylon.Stmt.pieces, h.pieces]
  · simp [Ceylon.Stmt.tempsList, Ceylon.Stmt.temps, h.temps]

theorem ifElse (h : SameLayout ss ss') {e e' : Else} (he : SameElse e e') (conds : List Condition) :
    SameLayout [.ifElse conds ss e] [.ifElse conds ss' e'] := by
  constructor
  · simp [Ceylon.Stmt.piecesList, Ceylon.Stmt.pieces, h.pieces, h.temps, he.pieces]
  · simp [Ceylon.Stmt.tempsList, Ceylon.Stmt.temps, h.temps, he.temps]

theorem elseBlock (h : SameLayout ss ss') : SameElse (.block ss) (.block ss') := by
  constructor
  · simp [Else.pieces, h.pieces]
  · simp [Else.temps, h.temps]

theorem elseIf (h : SameLayout ss ss') {e e' : Else} (he : SameElse e e') (conds : List Condition) :
    SameElse (.chained conds ss e) (.chained conds ss' e') := by
  constructor
  · simp [Else.pieces, h.pieces, h.temps, he.pieces]
  · simp [Else.temps, h.temps, he.temps]

end SameLayout

/-! ## Updates as statements -/

/-- Whether the expression is a compound assignment to an element whose array or index has to be
bound first. -/
def bindsFirst : Java.Expr → Bool
  | .assign target (.compound _) _ =>
    match target.unparenthesized with
    | .index array index => !(isPure array && isPure index)
    | _ => false
  | _ => false

section

variable {env : Env} {scope : Scope}

/-- An update that binds nothing is written alike as an expression and as a statement. -/
theorem sameLayout_update (a i : Ceylon.Expr) (op : Java.ArithOp) (v : Ceylon.Expr) :
    SameLayout [.expr (.update (.direct a) (.direct i) op v)] [.update (.direct a) (.direct i) op v] := by
  constructor
  · simp [Ceylon.Stmt.piecesList, Ceylon.Stmt.pieces, Ceylon.Expr.pieces, Ceylon.Slot.bindingPieces]
  · simp [Ceylon.Stmt.tempsList, Ceylon.Stmt.temps, Ceylon.Expr.temps]

theorem sameLayout_exprStmt {e : Java.Expr} (h : bindsFirst e = false) :
    SameLayout [.expr (expr env e scope)] (exprStmt env e scope fun _ => expr env e scope) := by
  cases e with
  | assign target op value =>
    cases op with
    | plain => exact .refl _
    | compound op =>
      cases hel : element env target scope with
      | none => simpa only [exprStmt, hel] using .refl _
      | some el =>
        obtain ⟨array, index, htarget, rfl⟩ := element_eq_some hel
        simp only [bindsFirst, htarget, Bool.not_eq_false', Bool.and_eq_true] at h
        have ha : (elementAt env scope array index).arraySlot = .direct (Element.target _) :=
          if_pos h.1
        have hi : (elementAt env scope array index).indexSlot = .direct (Element.index _) :=
          if_pos h.2
        simp only [expr, exprStmt, hel, ha, hi]
        exact sameLayout_update _ _ _ _
  | _ => exact .refl _

theorem sameLayout_exprLines {es : List Java.Expr} (h : ∀ e ∈ es, bindsFirst e = false) :
    SameLayout (exprLines env es scope) (stmts env (es.map .expr) scope) := by
  induction es with
  | nil => exact .refl _
  | cons e es ih =>
    have he : SameLayout [.expr (expr env e scope)]
        (exprStmt env e scope fun _ => expr env e scope) :=
      sameLayout_exprStmt (h e (List.mem_cons_self ..))
    exact he.append (ih fun a ha => h a (List.mem_cons_of_mem _ ha))

end

/-! ## The tail before each `continue` -/

theorem parts_single_withTail (tail : List Java.Stmt) (s : Java.Stmt) :
    (Java.Stmt.single (s.withTail tail)).parts = Java.Stmt.withTailList tail s.parts := by
  cases s with
  | continueTo label =>
    cases label with
    | none =>
      match tail with
      | [] => rfl
      | [_] | _ :: _ :: _ => simp [Java.Stmt.withTail, Java.Stmt.single, Java.Stmt.parts,
        Java.Stmt.withTailList]
    | some _ => rfl
  | block b => rfl
  | _ => rfl

theorem isIf_single_withTail (tail : List Java.Stmt) (s : Java.Stmt) :
    isIf (.single (s.withTail tail)) = isIf s := by
  cases s with
  | continueTo label =>
    cases label with
    | none =>
      match tail with
      | [] | [_] | _ :: _ :: _ => rfl
    | some _ => rfl
  | _ => rfl

/-- Inside the counting loop with the updates `es`, and inside its `while` form. -/
structure TailFrames (es : List Java.Expr) (scope scope' : Scope) : Prop where
  tests : SameTests scope scope'
  counting : scope.loopTail? = some (.update es)
  native : scope'.loopTail? = some .native

theorem TailFrames.branch {es : List Java.Expr} {scope scope' : Scope}
    (h : TailFrames es scope scope') (tests : List Narrowing) :
    TailFrames es (.branch tests :: scope) (.branch tests :: scope') :=
  ⟨h.tests.cons _, h.counting, h.native⟩

/-- The statement inside the counting loop is written as the one with the tail inside the `while`
loop: as a statement, as a branch, and as what follows `else`. -/
structure Desugars (env : Env) (es : List Java.Expr) (s : Java.Stmt) : Prop where
  whole : ∀ scope scope', TailFrames es scope scope' →
    SameLayout (stmt env s scope) (stmts env (s.withTail (es.map .expr)) scope')
  parts : ∀ scope scope', TailFrames es scope scope' →
    SameLayout (stmts env s.parts scope)
      (stmts env (Java.Stmt.withTailList (es.map .expr) s.parts) scope')
  otherwise : ∀ scope scope', TailFrames es scope scope' →
    SameElse (elseBranch env (some s) scope)
      (elseBranch env (some (.single (s.withTail (es.map .expr)))) scope')

namespace Desugars

variable {env : Env} {es : List Java.Expr}

theorem of_parts {s : Java.Stmt} (hs : isIf s = false)
    (hwhole : ∀ scope scope', TailFrames es scope scope' →
      SameLayout (stmt env s scope) (stmts env (s.withTail (es.map .expr)) scope'))
    (hparts : ∀ scope scope', TailFrames es scope scope' →
      SameLayout (stmts env s.parts scope)
        (stmts env (Java.Stmt.withTailList (es.map .expr) s.parts) scope')) :
    Desugars env es s := by
  refine ⟨hwhole, hparts, fun scope scope' h => ?_⟩
  rw [elseBranch_of_not_isIf hs, elseBranch_of_not_isIf (by rw [isIf_single_withTail, hs]),
    parts_single_withTail]
  exact (hparts _ _ (h.branch [])).elseBlock

/-- A statement that is no block and no branch. -/
theorem of_whole {s : Java.Stmt} (hs : isIf s = false) (hp : s.parts = [s])
    (hwhole : ∀ scope scope', TailFrames es scope scope' →
      SameLayout (stmt env s scope) (stmts env (s.withTail (es.map .expr)) scope')) :
    Desugars env es s := by
  refine of_parts hs hwhole fun scope scope' h => ?_
  rw [hp, stmts_singleton, Java.Stmt.withTailList, Java.Stmt.withTailList, List.append_nil]
  exact hwhole scope scope' h

/-- A statement that the tail leaves alone. -/
theorem of_same {s : Java.Stmt} (hs : isIf s = false) (hp : s.parts = [s])
    (ht : s.withTail (es.map .expr) = [s])
    (h : ∀ scope scope', SameTests scope scope' → stmt env s scope = stmt env s scope') :
    Desugars env es s := by
  refine of_whole hs hp fun scope scope' hf => ?_
  rw [ht, stmts_singleton, h scope scope' hf.tests]
  exact .refl _

theorem list {ss : List Java.Stmt} (h : ∀ s ∈ ss, Desugars env es s) {scope scope' : Scope}
    (hf : TailFrames es scope scope') :
    SameLayout (stmts env ss scope) (stmts env (Java.Stmt.withTailList (es.map .expr) ss) scope') := by
  induction ss with
  | nil => exact .refl _
  | cons s ss ih =>
    rw [stmts, Java.Stmt.withTailList, stmts_append]
    exact ((h s (List.mem_cons_self ..)).whole _ _ hf).append
      (ih fun s hs => h s (List.mem_cons_of_mem _ hs))

theorem block {b : List Java.Stmt} (h : ∀ s ∈ b, Desugars env es s) : Desugars env es (.block b) := by
  refine of_parts rfl (fun scope scope' hf => ?_) fun scope scope' hf => list h hf
  rw [Java.Stmt.withTail, stmts_singleton]
  exact (list h hf).block

theorem ifElse {cond : Java.Expr} {then' : Java.Stmt} {otherwise : Option Java.Stmt}
    (hcond : cond.hasBody = false) (ht : Desugars env es then')
    (ho : ∀ s ∈ otherwise, Desugars env es s) : Desugars env es (.ifElse cond then' otherwise) := by
  have hconds : ∀ scope scope', (conditions env cond scope fun _ => expr env cond scope) =
      conditions env cond scope' fun _ => expr env cond scope' :=
    fun scope scope' => conditions_congr rfl cond hcond (expr_congr rfl cond hcond)
  have hthen : ∀ scope scope', TailFrames es scope scope' →
      SameLayout (stmts env then'.parts (.branch (Narrowing.ofCondition cond) :: scope))
        (stmts env (Java.Stmt.single (then'.withTail (es.map .expr))).parts
          (.branch (Narrowing.ofCondition cond) :: scope')) := by
    intro scope scope' hf
    rw [parts_single_withTail]
    exact ht.parts _ _ (hf.branch _)
  have hother : ∀ scope scope', TailFrames es scope scope' →
      SameElse (elseBranch env otherwise scope)
        (elseBranch env (Java.Stmt.withTailOption (es.map .expr) otherwise) scope') := by
    intro scope scope' hf
    cases otherwise with
    | none => exact ⟨fun _ => rfl, rfl⟩
    | some s => exact (ho s rfl).otherwise _ _ hf
  have hwhole : ∀ scope scope', TailFrames es scope scope' →
      SameLayout (stmt env (.ifElse cond then' otherwise) scope)
        (stmts env ((Java.Stmt.ifElse cond then' otherwise).withTail (es.map .expr)) scope') := by
    intro scope scope' hf
    rw [Java.Stmt.withTail, stmts_singleton]
    simp only [stmt, body_eq_stmts, hconds scope scope']
    exact (hthen _ _ hf).ifElse (hother _ _ hf) _
  refine ⟨hwhole, fun scope scope' hf => ?_, fun scope scope' hf => ?_⟩
  · rw [Java.Stmt.parts, stmts_singleton, Java.Stmt.withTailList, Java.Stmt.withTailList,
      List.append_nil]
    · exact hwhole _ _ hf
    · simp
  · rw [Java.Stmt.withTail, Java.Stmt.single]
    simp only [elseBranch, body_eq_stmts, hconds scope scope']
    exact (hthen _ _ hf).elseIf (hother _ _ hf) _

/-- The `continue` of the loop itself. -/
theorem continueTo (henv : env.Repeats) (hb : Java.Expr.hasBodyList es = false)
    (he : ∀ e ∈ es, bindsFirst e = false) : Desugars env es (.continueTo none) := by
  refine of_whole rfl rfl fun scope scope' hf => ?_
  rw [Java.Stmt.withTail, stmts_append, stmts_singleton, stmt, stmt, hf.counting, hf.native]
  simp only [henv scope scope' (.update es) hb, henv scope' scope' .native trivial, tail]
  exact (sameLayout_exprLines he).append (.refl _)

end Desugars

theorem Structured.desugars {env : Env} {es : List Java.Expr} (henv : env.Repeats)
    (hb : Java.Expr.hasBodyList es = false) (he : ∀ e ∈ es, bindsFirst e = false) {s : Java.Stmt}
    (hs : Structured s) : Desugars env es s := by
  induction hs with
  | block _ ih => exact .block ih
  | localVar hd =>
    refine .of_same rfl rfl rfl fun scope scope' h => ?_
    rw [stmt_localVar, stmt_localVar, locals_congr rfl h hd]
  | expr he => exact .of_same rfl rfl rfl fun _ _ _ => exprStmt_congr he
  | ifElse hcond _ _ iht iho => exact .ifElse hcond iht iho
  | whileLoop hcond hbody _ =>
    exact .of_same rfl rfl rfl fun _ _ h => whileLoop_congr hcond (hbody.stmt_congr henv) h
  | forLoop hi hcond hu hbody _ =>
    exact .of_same rfl rfl rfl fun _ _ h => forLoop_congr hi hcond hu (hbody.stmt_congr henv) h
  | forEach hiter hbody _ =>
    exact .of_same rfl rfl rfl fun _ _ h => forEach_congr hiter (hbody.stmt_congr henv) h
  | breakTo | empty => exact .of_same rfl rfl rfl fun _ _ _ => rfl
  | continueTo => exact .continueTo henv hb he
  | constructorCall ha =>
    refine .of_same rfl rfl rfl fun scope scope' _ => ?_
    rw [stmt, stmt, exprs_congr rfl _ ha]
  | @returnValue value hv =>
    refine .of_same rfl rfl rfl fun scope scope' _ => ?_
    cases value with
    | none => rfl
    | some value => rw [stmt, stmt, expr_congr rfl value hv]
  | throwValue hv =>
    refine .of_same rfl rfl rfl fun scope scope' _ => ?_
    rw [stmt, stmt, expr_congr rfl _ hv]

/-! ## Counting loops -/

/-- No initial expression has to bind its array or its index first. -/
def InitDirect : Option Java.ForInit → Prop
  | some (.exprs es) => ∀ e ∈ es, bindsFirst e = false
  | _ => True

theorem sameLayout_forInit {env : Env} {scope : Scope} {init : Option Java.ForInit}
    (h : InitDirect init) :
    SameLayout (forInit env init scope) (stmts env (Java.ForInit.statements init) scope) := by
  match init with
  | none => exact .refl _
  | some (.declare ⟨_, ty, ds⟩) =>
    rw [Java.ForInit.statements, stmts_singleton]
    exact .refl _
  | some (.exprs es) => exact sameLayout_exprLines h

theorem loopCondition_eq_expr {env : Env} {scope : Scope} (cond : Option Java.Expr) :
    loopCondition env cond scope = expr env (cond.getD (.literal (.bool true))) scope := by
  cases cond <;> rfl

theorem sameLayout_whileForm {env : Env} {scope : Scope} (henv : env.Repeats)
    {init : Option Java.ForInit} {cond : Option Java.Expr} {update : List Java.Expr}
    {b : Java.Stmt} (hs : Structured (.forLoop init cond update b)) (hi : InitDirect init)
    (hu : ∀ e ∈ update, bindsFirst e = false) :
    SameLayout (stmt env (.forLoop init cond update b) scope)
      (stmts env (Java.Stmt.whileForm init cond update b) scope) := by
  cases hs with
  | forLoop _ _ hbody hb =>
    have hframes : TailFrames update (.loop (.update update) :: scope) (.loop .native :: scope) :=
      ⟨SameTests.loop (fun _ _ => rfl) _ _, rfl, rfl⟩
    have hparts := (hb.desugars henv hbody hu).parts _ _ hframes
    have hupdates : SameLayout (exprLines env update scope)
        (stmts env (update.map .expr) (.loop .native :: scope)) := by
      have hsame : exprLines env update scope = exprLines env update (.loop .native :: scope) :=
        exprLines_congr rfl hbody
      rw [hsame]
      exact sameLayout_exprLines hu
    rw [Java.Stmt.whileForm, stmts_append, stmts_singleton]
    simp only [stmt, body_eq_stmts, body, loopCondition_eq_expr, stmts_append]
    exact (sameLayout_forInit hi).append ((hparts.append hupdates).whileLoop _)

/-- A counting loop is written as its `while` form, and that has the runs of the loop. The budget of a
unit that has a counting loop is at least one. -/
theorem counting_loop_desugars (config : Config) (last : Scope → LoopTail → List Ceylon.Stmt)
    (budget : Nat) (scope : Scope) {init : Option Java.ForInit} {cond : Option Java.Expr}
    {update : List Java.Expr} {b : Java.Stmt} (hs : Structured (.forLoop init cond update b))
    (hi : InitDirect init) (hu : ∀ e ∈ update, bindsFirst e = false) :
    let env := Env.upTo config last (budget + 1)
    let loop := Java.Stmt.forLoop init cond update b
    let form := Java.Stmt.whileForm init cond update b
    (∀ k, Ceylon.Stmt.piecesList (stmt env loop scope) k =
      Ceylon.Stmt.piecesList (stmts env form scope) k) ∧
    Ceylon.Stmt.tempsList (stmt env loop scope) = Ceylon.Stmt.tempsList (stmts env form scope) ∧
    ∀ {σ V : Type} (m : Java.Interpretation σ V) (s : σ) (c : Java.Completion V) (s' : σ),
      m.runsList form s c s' ↔ m.runs loop s c s' := by
  intro env loop form
  have hlayout : SameLayout (stmt env loop scope) (stmts env form scope) :=
    sameLayout_whileForm (Env.repeats_upTo config last budget) hs hi hu
  refine ⟨hlayout.pieces, hlayout.temps, ?_⟩
  intro σ V m s c s'
  rw [m.runsList_whileForm]

/-- `for (; more; i++) { if (c) continue; while (d) continue; }`: the first `continue` has the update in
front of it, the second one has not. -/
theorem counting_loop_desugars_nested :
    let update : List Java.Expr := [.unary .postIncrement (.name "i")]
    let b : Java.Stmt := .block [.ifElse (.name "c") (.continueTo none) none,
      .whileLoop (.name "d") (.continueTo none)]
    let env := Env.upTo .default (fun _ _ => []) 1
    let loop := Java.Stmt.forLoop none (some (.name "more")) update b
    let form := Java.Stmt.whileForm none (some (.name "more")) update b
    Output.Piece.render (Ceylon.Stmt.piecesList (stmt env loop []) 0) =
      "while (more) \x7b\n    if (c) \x7b\n        i++;\n        continue;\n    \x7d\n" ++
      "    while (d) \x7b\n        continue;\n    \x7d\n    i++;\n\x7d\n" ∧
    Ceylon.Stmt.piecesList (stmt env loop []) 0 = Ceylon.Stmt.piecesList (stmts env form []) 0 ∧
    ∀ (m : Java.Interpretation Nat Unit) s c s', m.runsList form s c s' ↔ m.runs loop s c s' := by
  intro update b env loop form
  have hb : Structured b := by
    refine .block ?_
    intro s hs
    simp only [List.mem_cons, List.not_mem_nil, or_false] at hs
    rcases hs with rfl | rfl
    · exact .ifElse rfl .continueTo (by simp)
    · exact .whileLoop rfl .continueTo
  have hs : Structured loop := .forLoop trivial rfl rfl hb
  obtain ⟨hpieces, -, hruns⟩ := counting_loop_desugars .default (fun _ _ => []) 0 [] hs trivial
    (by decide)
  exact ⟨by decide, hpieces 0, hruns⟩

end CeylonFromJava.Conversion
