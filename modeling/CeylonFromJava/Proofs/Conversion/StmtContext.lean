import CeylonFromJava.Proofs.Conversion.ExprContext
import CeylonFromJava.Proofs.Conversion.TreeParts

/-! What the surroundings mean for a statement.

Of the frames around it, a statement sees two things: which type tests hold, and what the loop around
it repeats before a `continue`. Structured statements, which have no anonymous classes, are converted
to the same tree where these agree. -/
namespace CeylonFromJava.Conversion
set_option autoImplicit false

attribute [local simp] stmt

/-! ## Structured statements -/

/-- No anonymous class has its body in the initial part of a loop. -/
def InitPlain : Option Java.ForInit → Prop
  | none => True
  | some (.declare decl) => ∀ d ∈ decl.declarators, Java.Expr.hasBodyOption d.init = false
  | some (.exprs es) => Java.Expr.hasBodyList es = false

/-- Statements put together with blocks, branches and loops that test first, without labels and
without anonymous classes. -/
inductive Structured : Java.Stmt → Prop
  | block {b : List Java.Stmt} : (∀ s ∈ b, Structured s) → Structured (.block b)
  | localVar {decl : Java.LocalVar} :
    (∀ d ∈ decl.declarators, Java.Expr.hasBodyOption d.init = false) → Structured (.localVar decl)
  | expr {e : Java.Expr} : e.hasBody = false → Structured (.expr e)
  | ifElse {cond : Java.Expr} {then' : Java.Stmt} {otherwise : Option Java.Stmt} :
    cond.hasBody = false → Structured then' → (∀ s ∈ otherwise, Structured s) →
      Structured (.ifElse cond then' otherwise)
  | whileLoop {cond : Java.Expr} {body : Java.Stmt} :
    cond.hasBody = false → Structured body → Structured (.whileLoop cond body)
  | forLoop {init : Option Java.ForInit} {cond : Option Java.Expr} {update : List Java.Expr}
      {body : Java.Stmt} :
    InitPlain init → Java.Expr.hasBodyOption cond = false → Java.Expr.hasBodyList update = false →
      Structured body → Structured (.forLoop init cond update body)
  | forEach {ty : Java.TypeRef} {name : String} {iterable : Java.Expr} {body : Java.Stmt} :
    iterable.hasBody = false → Structured body → Structured (.forEach ty name iterable body)
  | breakTo : Structured (.breakTo none)
  | continueTo : Structured (.continueTo none)
  | constructorCall {target : Java.ConstructorTarget} {args : List Java.Expr} :
    Java.Expr.hasBodyList args = false → Structured (.constructorCall target args)
  | returnValue {value : Option Java.Expr} :
    Java.Expr.hasBodyOption value = false → Structured (.returnValue value)
  | throwValue {value : Java.Expr} : value.hasBody = false → Structured (.throwValue value)
  | empty : Structured .empty

/-! ## Frames that make no difference -/

section

variable {env env' : Env} {scope scope' : Scope}

def SameTests (scope scope' : Scope) : Prop :=
  ∀ operand ty, scope.narrows operand ty = scope'.narrows operand ty

theorem SameTests.cons (h : SameTests scope scope') (f : Frame) :
    SameTests (f :: scope) (f :: scope') := by
  intro operand ty
  have ht := h operand ty
  simp only [Scope.narrows, List.any_cons] at ht ⊢
  rw [ht]

theorem SameTests.loop (h : SameTests scope scope') (t t' : LoopTail) :
    SameTests (.loop t :: scope) (.loop t' :: scope') := by
  intro operand ty
  simpa [Scope.narrows, Frame.proves] using h operand ty

theorem isAsserted_congr (h : SameTests scope scope') (init : Java.Expr) :
    isAsserted scope init = isAsserted scope' init := by
  unfold isAsserted
  split
  · rw [h]
  · rfl

theorem locals_congr (hc : env.config = env'.config) (h : SameTests scope scope')
    {ds : List Java.Declarator} (hd : ∀ d ∈ ds, Java.Expr.hasBodyOption d.init = false)
    (ty : Java.TypeRef) : locals env ds ty scope = locals env' ds ty scope' := by
  induction ds with
  | nil => rfl
  | cons d ds ih =>
    have hds := ih fun d hd' => hd d (List.mem_cons_of_mem _ hd')
    have hinit := hd d (List.mem_cons_self ..)
    obtain ⟨name, _ | init⟩ := d
    · rw [locals, locals, hds, hc]
    · have he : expr env init scope = expr env' init scope' := expr_congr hc init hinit
      rw [locals, locals, hds, hc, he, isAsserted_congr h]

theorem exprLines_congr (hc : env.config = env'.config) {es : List Java.Expr}
    (h : Java.Expr.hasBodyList es = false) : exprLines env es scope = exprLines env' es scope' := by
  induction es with
  | nil => rfl
  | cons e es ih =>
    simp only [Java.Expr.hasBodyList, Bool.or_eq_false_iff] at h
    have he : expr env e scope = expr env' e scope' := expr_congr hc e h.1
    rw [exprLines, exprLines, he, ih h.2]

theorem exprStmt_congr {e : Java.Expr} (h : e.hasBody = false) :
    (exprStmt env e scope fun _ => expr env e scope) =
      exprStmt env e scope' fun _ => expr env e scope' := by
  have he : expr env e scope = expr env e scope' := expr_congr rfl e h
  cases e with
  | assign target op value =>
    simp only [Java.Expr.hasBody, Bool.or_eq_false_iff] at h
    have ht : element env target scope = element env target scope' := element_congr rfl target h.1
    have hv : expr env value scope = expr env value scope' := expr_congr rfl value h.2
    cases op with
    | plain => simp only [exprStmt, he]
    | compound op => simp only [exprStmt, he, ht, hv]
  | _ => simp only [exprStmt, he]

/-- Tails are repeated as they are written, wherever they are. -/
def Env.Repeats (env : Env) : Prop :=
  ∀ scope scope' t, LoopTail.Plain t → env.repeatTail scope t = tail env scope' t

theorem Env.repeats_upTo (config : Config) (last : Scope → LoopTail → List Ceylon.Stmt)
    (budget : Nat) : (Env.upTo config last (budget + 1)).Repeats := by
  intro scope scope' t ht
  have hc : (Env.upTo config last budget).config = (Env.upTo config last (budget + 1)).config := by
    rw [Env.config_upTo, Env.config_upTo]
  cases t with
  | native => rfl
  | update es => exact exprLines_congr hc ht
  | guard cond => exact congrArg (fun e => [Ceylon.Stmt.breakIf e]) (expr_congr hc cond ht)

/-- The same tests hold, and the loop around repeats the same tail. -/
structure Alike (scope scope' : Scope) : Prop where
  tests : SameTests scope scope'
  tail : ∃ t, LoopTail.Plain t ∧ scope.loopTail? = some t ∧ scope'.loopTail? = some t

theorem Alike.branch (h : Alike scope scope') (tests : List Narrowing) :
    Alike (.branch tests :: scope) (.branch tests :: scope') :=
  ⟨h.tests.cons _, h.tail⟩

/-- Whatever is around a loop, its body sees the loop. -/
theorem SameTests.alike_loop (h : SameTests scope scope') {t : LoopTail} (ht : LoopTail.Plain t) :
    Alike (.loop t :: scope) (.loop t :: scope') :=
  ⟨h.cons _, t, ht, rfl, rfl⟩

/-! ## Bodies and branches -/

theorem stmts_congr {ss : List Java.Stmt} (h : ∀ s ∈ ss, stmt env s scope = stmt env s scope') :
    stmts env ss scope = stmts env ss scope' := by
  induction ss with
  | nil => rfl
  | cons s ss ih =>
    rw [stmts, stmts, h s (List.mem_cons_self ..), ih fun s hs => h s (List.mem_cons_of_mem _ hs)]

theorem stmts_parts_congr {s : Java.Stmt} (h : stmt env s scope = stmt env' s scope') :
    stmts env s.parts scope = stmts env' s.parts scope' := by
  cases s with
  | block b => simpa [Java.Stmt.parts] using h
  | _ =>
    simp only [Java.Stmt.parts, stmts_singleton]
    exact h

theorem elseBranch_congr {s : Java.Stmt} (h : stmt env s scope = stmt env' s scope')
    (hinner : stmt env s (.branch [] :: scope) = stmt env' s (.branch [] :: scope')) :
    elseBranch env (some s) scope = elseBranch env' (some s) scope' := by
  cases hs : isIf s with
  | false => rw [elseBranch_of_not_isIf hs, elseBranch_of_not_isIf hs, stmts_parts_congr hinner]
  | true =>
    cases s with
    | ifElse cond then' otherwise =>
      simp only [stmt, List.cons.injEq, Ceylon.Stmt.ifElse.injEq, and_true] at h
      rw [elseBranch, elseBranch, h.1, h.2.1, h.2.2]
    | _ => cases hs

/-! ## Statements in surroundings that are alike -/

theorem whileLoop_congr {cond : Java.Expr} {b : Java.Stmt} (hcond : cond.hasBody = false)
    (hb : ∀ scope scope', Alike scope scope' → stmt env b scope = stmt env b scope')
    (h : SameTests scope scope') :
    stmt env (.whileLoop cond b) scope = stmt env (.whileLoop cond b) scope' := by
  have he : expr env cond scope = expr env cond scope' := expr_congr rfl cond hcond
  have hinner := stmts_parts_congr (hb _ _ (h.alike_loop (t := .native) trivial))
  simp only [stmt, body_eq_stmts, he, hinner]

theorem forEach_congr {ty : Java.TypeRef} {name : String} {iterable : Java.Expr} {b : Java.Stmt}
    (hiter : iterable.hasBody = false)
    (hb : ∀ scope scope', Alike scope scope' → stmt env b scope = stmt env b scope')
    (h : SameTests scope scope') :
    stmt env (.forEach ty name iterable b) scope = stmt env (.forEach ty name iterable b) scope' := by
  have he : expr env iterable scope = expr env iterable scope' := expr_congr rfl iterable hiter
  have hinner := stmts_parts_congr (hb _ _ (h.alike_loop (t := .native) trivial))
  simp only [stmt, body_eq_stmts, he, hinner]

theorem forInit_congr {init : Option Java.ForInit} (hi : InitPlain init)
    (h : SameTests scope scope') : forInit env init scope = forInit env init scope' := by
  match init with
  | none => rfl
  | some (.declare ⟨_, ty, ds⟩) => exact locals_congr rfl h hi ty
  | some (.exprs es) => exact exprLines_congr rfl hi

theorem loopCondition_congr {cond : Option Java.Expr} (hcond : Java.Expr.hasBodyOption cond = false) :
    loopCondition env cond scope = loopCondition env cond scope' := by
  cases cond with
  | none => rfl
  | some cond => exact expr_congr rfl cond hcond

theorem forLoop_congr {init : Option Java.ForInit} {cond : Option Java.Expr}
    {update : List Java.Expr} {b : Java.Stmt} (hi : InitPlain init)
    (hcond : Java.Expr.hasBodyOption cond = false) (hu : Java.Expr.hasBodyList update = false)
    (hb : ∀ scope scope', Alike scope scope' → stmt env b scope = stmt env b scope')
    (h : SameTests scope scope') :
    stmt env (.forLoop init cond update b) scope = stmt env (.forLoop init cond update b) scope' := by
  have hinit : forInit env init scope = forInit env init scope' := forInit_congr hi h
  have he : loopCondition env cond scope = loopCondition env cond scope' := loopCondition_congr hcond
  have hupdate : exprLines env update scope = exprLines env update scope' := exprLines_congr rfl hu
  have hinner := stmts_parts_congr (hb _ _ (h.alike_loop (t := .update update) hu))
  simp only [stmt, body_eq_stmts, hinit, he, hupdate, hinner]

theorem ifElse_congr {cond : Java.Expr} {then' : Java.Stmt} {otherwise : Option Java.Stmt}
    (hcond : cond.hasBody = false)
    (ht : ∀ scope scope', Alike scope scope' → stmt env then' scope = stmt env then' scope')
    (ho : ∀ s ∈ otherwise, ∀ scope scope', Alike scope scope' → stmt env s scope = stmt env s scope')
    (h : Alike scope scope') :
    stmt env (.ifElse cond then' otherwise) scope = stmt env (.ifElse cond then' otherwise) scope' := by
  have he : expr env cond scope = expr env cond scope' := expr_congr rfl cond hcond
  have hconds := conditions_congr rfl cond hcond he
  have hinner := stmts_parts_congr (ht _ _ (h.branch (Narrowing.ofCondition cond)))
  have hother : elseBranch env otherwise scope = elseBranch env otherwise scope' := by
    cases otherwise with
    | none => rfl
    | some s => exact elseBranch_congr (ho s rfl _ _ h) (ho s rfl _ _ (h.branch []))
  simp only [stmt, body_eq_stmts, hconds, hinner, hother]

/-- A structured statement is converted to the same tree where the same tests hold and the loop around
repeats the same tail. -/
theorem Structured.stmt_congr (henv : env.Repeats) {s : Java.Stmt} (hs : Structured s) :
    ∀ scope scope', Alike scope scope' → stmt env s scope = stmt env s scope' := by
  induction hs with
  | @block b _ ih =>
    intro scope scope' h
    rw [stmt, stmt, stmts_congr fun s hs => ih s hs _ _ h]
  | localVar hd =>
    intro scope scope' h
    rw [stmt_localVar, stmt_localVar, locals_congr rfl h.tests hd]
  | expr he =>
    intro scope scope' _
    exact exprStmt_congr he
  | ifElse hcond _ _ iht iho => exact fun _ _ h => ifElse_congr hcond iht iho h
  | whileLoop hcond _ ih => exact fun _ _ h => whileLoop_congr hcond ih h.tests
  | forLoop hi hcond hu _ ih => exact fun _ _ h => forLoop_congr hi hcond hu ih h.tests
  | forEach hiter _ ih => exact fun _ _ h => forEach_congr hiter ih h.tests
  | breakTo | empty => exact fun _ _ _ => rfl
  | continueTo =>
    intro scope scope' h
    obtain ⟨t, ht, hscope, hscope'⟩ := h.tail
    rw [stmt, stmt, hscope, hscope']
    simp only [henv scope scope t ht, henv scope' scope t ht]
  | constructorCall ha =>
    intro scope scope' _
    rw [stmt, stmt, exprs_congr rfl _ ha]
  | @returnValue value hv =>
    intro scope scope' _
    cases value with
    | none => rfl
    | some value => rw [stmt, stmt, expr_congr rfl value hv]
  | throwValue hv =>
    intro scope scope' _
    rw [stmt, stmt, expr_congr rfl _ hv]

end

end CeylonFromJava.Conversion
