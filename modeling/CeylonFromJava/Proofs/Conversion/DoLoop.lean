import CeylonFromJava.Ceylon.Source
import CeylonFromJava.Proofs.Ceylon.Executions
import CeylonFromJava.Proofs.Conversion.StmtContext
import CeylonFromJava.Proofs.Java.DoLoop

/-! What a `do` loop comes to.

It is written as an endless loop with a guard at the end of its body and before each `continue`. The
guard has the condition of the loop as it stands, so it leaves where the loop would go round again: the
written loop is the one that goes round while its condition does not hold. -/
namespace CeylonFromJava.Conversion
set_option autoImplicit false

open Java (Run)

variable {σ V : Type} {env : Env} {m : Java.Interpretation σ V} {c : Ceylon.Interpretation σ V}

/-! ## Statements whose leaves agree -/

/-- Statements that hold no others and jump no loop. -/
def isSimple : Java.Stmt → Bool
  | .localVar _ | .expr _ | .constructorCall _ _ | .returnValue _ | .throwValue _ => true
  | _ => false

/-- Statements put together with blocks, branches and loops, without labels, where conditions, simple
statements and the parts of loop heads do what their written forms do. No anonymous class is in a
tail. -/
inductive Faithful (env : Env) (m : Java.Interpretation σ V) (c : Ceylon.Interpretation σ V) :
    Java.Stmt → Prop
  | simple {s : Java.Stmt} : isSimple s = true →
    (∀ scope, c.runsList (stmt env s scope) = m.runs s) → Faithful env m c s
  | block {b : List Java.Stmt} : (∀ s ∈ b, Faithful env m c s) → Faithful env m c (.block b)
  | ifElse {cond : Java.Expr} {then' : Java.Stmt} {otherwise : Option Java.Stmt} :
    (∀ scope, c.conds (conditions env cond scope fun _ => expr env cond scope) = m.cond cond) →
    Faithful env m c then' → (∀ s ∈ otherwise, Faithful env m c s) →
      Faithful env m c (.ifElse cond then' otherwise)
  | whileLoop {cond : Java.Expr} {b : Java.Stmt} :
    (∀ scope, c.cond (expr env cond scope) = m.cond cond) → Faithful env m c b →
      Faithful env m c (.whileLoop cond b)
  | doWhile {b : Java.Stmt} {cond : Java.Expr} : cond.hasBody = false →
    (∀ scope, c.cond (expr env cond scope) = m.cond cond) → Faithful env m c b →
      Faithful env m c (.doWhile b cond)
  | forLoop {init : Option Java.ForInit} {cond : Option Java.Expr} {update : List Java.Expr}
      {b : Java.Stmt} : Java.Expr.hasBodyList update = false →
    (∀ scope, c.runsList (forInit env init scope) = m.init init) →
    (∀ scope, c.cond (loopCondition env cond scope) = m.loopTest cond) →
    (∀ scope, c.runsList (exprLines env update scope) = m.effects update) →
    Faithful env m c b → Faithful env m c (.forLoop init cond update b)
  | forEach {ty : Java.TypeRef} {name : String} {iterable : Java.Expr} {b : Java.Stmt} :
    (∀ scope, c.eval (expr env iterable scope) = m.eval iterable) →
    (∀ v, c.element (typeRef ty) (Ceylon.Name.small name) v = m.elementTest ty name v) →
    Faithful env m c b → Faithful env m c (.forEach ty name iterable b)
  | breakTo : Faithful env m c (.breakTo none)
  | continueTo : Faithful env m c (.continueTo none)
  | empty : Faithful env m c .empty

theorem runsDo_of_isSimple {s : Java.Stmt} (hs : isSimple s = true) (again : Bool) :
    m.runsDo again s = m.runs s := by
  cases s with
  | localVar _ | expr _ | constructorCall _ _ | returnValue _ | throwValue _ => rfl
  | _ => cases hs

theorem runsDoList_eq_runsList {b : List Java.Stmt} {again : Bool}
    (h : ∀ s ∈ b, m.runsDo again s = m.runs s) : m.runsDoList again b = m.runsList b := by
  induction b with
  | nil => rfl
  | cons s b ih =>
    have hb := ih fun t ht => h t (List.mem_cons_of_mem _ ht)
    rw [Java.Interpretation.runsDoList, Java.Interpretation.runsList, h s (List.mem_cons_self ..), hb]

/-- Where there are no `do` loops, the runs are those of the statements. -/
theorem Structured.runsDo_eq_runs {s : Java.Stmt} (hs : Structured s) (again : Bool) :
    m.runsDo again s = m.runs s := by
  induction hs with
  | block _ ih =>
    rw [Java.Interpretation.runsDo, Java.Interpretation.runs, runsDoList_eq_runsList ih]
  | @ifElse cond then' otherwise _ _ _ iht iho =>
    have hother : m.runsDoOption again otherwise = m.runsOption otherwise := by
      cases otherwise with
      | none => rfl
      | some s => exact iho s rfl
    rw [Java.Interpretation.runsDo, Java.Interpretation.runs, iht, hother]
  | whileLoop _ _ ih | forLoop _ _ _ _ ih | forEach _ _ ih =>
    rw [Java.Interpretation.runsDo, Java.Interpretation.runs, ih]
  | _ => rfl

theorem stays_of_isSimple {s : Java.Stmt} (hs : isSimple s = true) : (m.runs s).Stays := by
  cases s with
  | localVar decl => exact (m.simple_declare decl.ty decl.declarators).stays
  | expr e => exact (m.simple_effect e).stays
  | constructorCall target args => exact (Run.Simple.bind fun _ => Run.simple_skip).stays
  | returnValue value =>
    cases value with
    | none => exact Run.stays_stop (by simp)
    | some value => exact Run.Stays.bind fun _ => Run.stays_stop (by simp)
  | throwValue value => exact Run.Stays.bind fun _ => Run.stays_stop (by simp)
  | _ => cases hs

/-! ## Inside a loop -/

/-- The loop around has a tail whose written form has the runs `r` wherever it is repeated. -/
def TailRuns (env : Env) (c : Ceylon.Interpretation σ V) (scope : Scope) (r : Run σ V) : Prop :=
  ∃ t, scope.loopTail? = some t ∧ LoopTail.Plain t ∧ ∀ scope', c.runsList (tail env scope' t) = r

theorem TailRuns.branch {scope : Scope} {r : Run σ V} (h : TailRuns env c scope r)
    (tests : List Narrowing) : TailRuns env c (.branch tests :: scope) r :=
  h

theorem tailRuns_native (scope : Scope) : TailRuns env c (.loop .native :: scope) .skip :=
  ⟨.native, rfl, trivial, fun _ => rfl⟩

theorem tailRuns_update {es : List Java.Expr} (hb : Java.Expr.hasBodyList es = false)
    (h : ∀ scope, c.runsList (exprLines env es scope) = m.effects es) (scope : Scope) :
    TailRuns env c (.loop (.update es) :: scope) (m.effects es) :=
  ⟨.update es, rfl, hb, h⟩

theorem tailRuns_guard {cond : Java.Expr} (hb : cond.hasBody = false)
    (h : ∀ scope, c.cond (expr env cond scope) = m.cond cond) (scope : Scope) :
    TailRuns env c (.loop (.guard cond) :: scope) (.guard true (m.cond cond)) := by
  refine ⟨.guard cond, rfl, hb, fun scope' => ?_⟩
  rw [tail, Ceylon.Interpretation.runsList_singleton, Ceylon.Interpretation.runs, h]
  rfl

/-- Inside a loop, the written statement has the runs of the statement with the runs of the tail where
it continues; its own `do` loops go round while their conditions do not hold. -/
def Renders (env : Env) (m : Java.Interpretation σ V) (c : Ceylon.Interpretation σ V)
    (s : Java.Stmt) : Prop :=
  ∀ scope r, TailRuns env c scope r →
    c.runsList (stmt env s scope) = .withTail r (m.runsDo false s)

theorem runsList_parts (s : Java.Stmt) (scope : Scope) :
    c.runsList (stmts env s.parts scope) = c.runsList (stmt env s scope) := by
  cases s with
  | block b => rw [stmt, Ceylon.Interpretation.runsList_singleton, Ceylon.Interpretation.runs,
    Java.Stmt.parts]
  | _ => rw [Java.Stmt.parts, stmts_singleton]; simp

namespace Renders

/-- What stays in the loop around and is written alike everywhere. -/
theorem of_stays {s : Java.Stmt} (hs : (m.runsDo false s).Stays)
    (h : ∀ scope, c.runsList (stmt env s scope) = m.runsDo false s) : Renders env m c s := by
  intro scope r _
  rw [h, Run.withTail_eq_self hs]

theorem list {b : List Java.Stmt} (h : ∀ s ∈ b, Renders env m c s) {scope : Scope} {r : Run σ V}
    (hr : TailRuns env c scope r) :
    c.runsList (stmts env b scope) = .withTail r (m.runsDoList false b) := by
  induction b with
  | nil =>
    rw [stmts, Ceylon.Interpretation.runsList, Java.Interpretation.runsDoList,
      Run.withTail_eq_self Run.simple_skip.stays]
  | cons s b ih =>
    have hs := h s (List.mem_cons_self ..) scope r hr
    have hb := ih fun t ht => h t (List.mem_cons_of_mem _ ht)
    rw [stmts, Ceylon.Interpretation.runsList_append, hs, hb, ← Run.withTail_seq,
      Java.Interpretation.runsDoList]

theorem runsElse {s : Java.Stmt} (h : Renders env m c s) {scope : Scope} {r : Run σ V}
    (hr : TailRuns env c scope r) :
    c.runsElse (elseBranch env (some s) scope) = .withTail r (m.runsDo false s) := by
  cases hs : isIf s with
  | false =>
    rw [elseBranch_of_not_isIf hs, Ceylon.Interpretation.runsElse, runsList_parts]
    exact h _ r (hr.branch [])
  | true =>
    cases s with
    | ifElse cond then' otherwise =>
      have hwhole := h scope r hr
      rw [stmt, Ceylon.Interpretation.runsList_singleton, Ceylon.Interpretation.runs] at hwhole
      rw [elseBranch, Ceylon.Interpretation.runsElse]
      exact hwhole
    | _ => cases hs

theorem ifElse {cond : Java.Expr} {then' : Java.Stmt} {otherwise : Option Java.Stmt}
    (hcond : ∀ scope, c.conds (conditions env cond scope fun _ => expr env cond scope) = m.cond cond)
    (ht : Renders env m c then') (ho : ∀ s ∈ otherwise, Renders env m c s) :
    Renders env m c (.ifElse cond then' otherwise) := by
  intro scope r hr
  have hthen := ht _ r (hr.branch (Narrowing.ofCondition cond))
  have hother : c.runsElse (elseBranch env otherwise scope) =
      .withTail r (m.runsDoOption false otherwise) := by
    cases otherwise with
    | none => exact (Run.withTail_eq_self Run.simple_skip.stays).symm
    | some s => exact (ho s rfl).runsElse hr
  rw [stmt, Ceylon.Interpretation.runsList_singleton, Ceylon.Interpretation.runs, hcond,
    body_eq_stmts, runsList_parts, hthen, hother, Java.Interpretation.runsDo, Run.withTail_bind]
  congr 1
  funext holds
  cases holds <;> rfl

theorem continueTo (henv : env.Repeats) : Renders env m c (.continueTo none) := by
  rintro scope r ⟨t, hscope, ht, hr⟩
  have hrun : m.runsDo false (.continueTo none) = .stop .continued := rfl
  rw [stmt, hscope, hrun, Run.withTail_stop_continued]
  simp only [henv scope scope t ht]
  rw [Ceylon.Interpretation.runsList_append, hr, Ceylon.Interpretation.runsList_singleton,
    Ceylon.Interpretation.runs]

/-! ## Loops -/

theorem whileLoop_runs {cond : Java.Expr} {b : Java.Stmt}
    (hcond : ∀ scope, c.cond (expr env cond scope) = m.cond cond) (hb : Renders env m c b)
    (scope : Scope) :
    c.runsList (stmt env (.whileLoop cond b) scope) = m.runsDo false (.whileLoop cond b) := by
  have hbody := hb _ .skip (tailRuns_native scope)
  rw [Run.withTail_skip] at hbody
  rw [stmt, Ceylon.Interpretation.runsList_singleton, Ceylon.Interpretation.runs, hcond,
    body_eq_stmts, runsList_parts, hbody, Java.Interpretation.runsDo]

theorem forEach_runs {ty : Java.TypeRef} {name : String} {iterable : Java.Expr} {b : Java.Stmt}
    (hiter : ∀ scope, c.eval (expr env iterable scope) = m.eval iterable)
    (helement : ∀ v, c.element (typeRef ty) (Ceylon.Name.small name) v = m.elementTest ty name v)
    (hb : Renders env m c b) (scope : Scope) :
    c.runsList (stmt env (.forEach ty name iterable b) scope) =
      m.runsDo false (.forEach ty name iterable b) := by
  have hbody := hb _ .skip (tailRuns_native scope)
  rw [Run.withTail_skip] at hbody
  rw [stmt, Ceylon.Interpretation.runsList_singleton, Ceylon.Interpretation.runs, hiter,
    body_eq_stmts, runsList_parts, hbody, Java.Interpretation.runsDo]
  simp only [helement]

theorem forLoop_runs {init : Option Java.ForInit} {cond : Option Java.Expr}
    {update : List Java.Expr} {b : Java.Stmt} (hu : Java.Expr.hasBodyList update = false)
    (hinit : ∀ scope, c.runsList (forInit env init scope) = m.init init)
    (hcond : ∀ scope, c.cond (loopCondition env cond scope) = m.loopTest cond)
    (hupdate : ∀ scope, c.runsList (exprLines env update scope) = m.effects update)
    (hb : Renders env m c b) (scope : Scope) :
    c.runsList (stmt env (.forLoop init cond update b) scope) =
      m.runsDo false (.forLoop init cond update b) := by
  have hbody := hb _ _ (tailRuns_update hu hupdate scope)
  rw [stmt, Ceylon.Interpretation.runsList_append, Ceylon.Interpretation.runsList_singleton,
    Ceylon.Interpretation.runs, hinit, hcond, Ceylon.Interpretation.runsList_append, body_eq_stmts,
    runsList_parts, hbody, hupdate, Java.Interpretation.runsDo,
    ← Run.loop_withTail (m.simple_effects update)]

theorem doWhile_runs {b : Java.Stmt} {cond : Java.Expr} (hc : cond.hasBody = false)
    (hcond : ∀ scope, c.cond (expr env cond scope) = m.cond cond) (hb : Renders env m c b)
    (scope : Scope) :
    c.runsList (stmt env (.doWhile b cond) scope) = m.runsDo false (.doWhile b cond) := by
  have hbody := hb _ _ (tailRuns_guard hc hcond scope)
  have halways : c.cond (.literal (.bool true)) = Run.always := by
    funext s r s'
    exact propext (c.cond_true s r s')
  have hguard : c.runsList [.breakIf (expr env cond scope)] = .guard true (m.cond cond) := by
    rw [Ceylon.Interpretation.runsList_singleton, Ceylon.Interpretation.runs, hcond]
    rfl
  rw [stmt, Ceylon.Interpretation.runsList_singleton, Ceylon.Interpretation.runs, halways,
    Ceylon.Interpretation.runsList_append, body_eq_stmts, runsList_parts, hbody, hguard,
    Run.loop_always_guard, Java.Interpretation.runsDo]
  rfl

end Renders

theorem Faithful.renders (henv : env.Repeats) {s : Java.Stmt} (hs : Faithful env m c s) :
    Renders env m c s := by
  induction hs with
  | simple hs h =>
    have hruns := runsDo_of_isSimple (m := m) hs false
    refine .of_stays ?_ fun scope => ?_
    · rw [hruns]
      exact stays_of_isSimple hs
    · rw [hruns, h]
  | block _ ih =>
    intro scope r hr
    rw [stmt, Ceylon.Interpretation.runsList_singleton, Ceylon.Interpretation.runs,
      Java.Interpretation.runsDo, Renders.list ih hr]
  | ifElse hcond _ _ iht iho => exact .ifElse hcond iht iho
  | whileLoop hcond _ ih =>
    exact .of_stays (Run.stays_loop Run.simple_skip) (Renders.whileLoop_runs hcond ih)
  | doWhile hc hcond _ ih => exact .of_stays Run.stays_doLoop (Renders.doWhile_runs hc hcond ih)
  | @forLoop init _ update _ hu hinit hcond hupdate _ ih =>
    refine .of_stays ?_ (Renders.forLoop_runs hu hinit hcond hupdate ih)
    exact (m.simple_init init).stays.seq (Run.stays_loop (m.simple_effects update))
  | forEach hiter helement _ ih =>
    exact .of_stays (Run.Stays.bind fun _ => Run.stays_loop Run.simple_skip)
      (Renders.forEach_runs hiter helement ih)
  | breakTo =>
    refine .of_stays (Run.stays_stop (by simp)) fun scope => ?_
    rw [stmt, Ceylon.Interpretation.runsList_singleton]
    rfl
  | continueTo => exact .continueTo henv
  | empty => exact .of_stays Run.simple_skip.stays fun _ => rfl

/-- A written `do` loop, and every one inside it, runs its body at least once and is left after a round,
also one that ends with `continue`, if and only if its condition holds. The budget of a unit that has a
`do` loop is at least one. -/
theorem do_loop_left_when_condition_holds (config : Config)
    (last : Scope → LoopTail → List Ceylon.Stmt) (budget : Nat) (scope : Scope)
    (m : Java.Interpretation σ V) (c : Ceylon.Interpretation σ V) {b : Java.Stmt} {cond : Java.Expr}
    (h : Faithful (Env.upTo config last (budget + 1)) m c (.doWhile b cond)) :
    c.runsList (stmt (Env.upTo config last (budget + 1)) (.doWhile b cond) scope) =
      m.runsDo false (.doWhile b cond) := by
  cases h with
  | simple hs _ => cases hs
  | doWhile hc hcond hb =>
    exact Renders.doWhile_runs hc hcond (hb.renders (Env.repeats_upTo config last budget)) scope

/-! ## A loop that counts -/

/-- Expressions count up, conditions hold below two. -/
def counting : Java.Interpretation Nat Unit where
  cond e s r s' := r = .ok (match e with | .literal (.bool b) => b | _ => decide (s < 2)) ∧ s' = s
  eval _ s r s' := r = .ok () ∧ s' = s + 1
  next _ _ _ _ := False
  delegate _ _ _ _ _ := False
  assign _ _ _ s := s
  cond_true _ _ _ := Iff.rfl

def countingForms : Ceylon.Interpretation Nat Unit where
  cond e s r s' := r = .ok (match e with | .literal (.bool b) => b | _ => decide (s < 2)) ∧ s' = s
  conds _ s r s' := r = .ok (decide (s < 2)) ∧ s' = s
  eval _ s r s' := r = .ok () ∧ s' = s + 1
  element _ _ _ _ _ _ := False
  act _ s r s' := r = .ok () ∧ s' = s + 1
  cond_true _ _ _ := Iff.rfl

/-- `do { if (skip) continue; do step(); while (more); } while (again);` has a guard in three places. -/
theorem do_loop_left_when_condition_holds_nested :
    let inner : Java.Stmt := .doWhile (.expr (.call none [] "step" [])) (.name "more")
    let b : Java.Stmt := .block [.ifElse (.name "skip") (.continueTo none) none, inner]
    let env := Env.upTo .default (fun _ _ => []) 1
    Faithful env counting countingForms (.doWhile b (.name "again")) ∧
    Output.Piece.render (Ceylon.Stmt.piecesList (stmt env (.doWhile b (.name "again")) []) 0) =
      "while (true) \x7b\n    if (skip) \x7b\n        if (again) \x7bbreak;\x7d\n" ++
      "        continue;\n    \x7d\n    while (true) \x7b\n        step();\n" ++
      "        if (more) \x7bbreak;\x7d\n    \x7d\n    if (again) \x7bbreak;\x7d\n\x7d\n" ∧
    countingForms.runsList (stmt env (.doWhile b (.name "again")) []) =
      counting.runsDo false (.doWhile b (.name "again")) := by
  intro inner b env
  have hstep : Faithful env counting countingForms (.expr (.call none [] "step" [])) :=
    .simple rfl fun _ => Run.seq_skip _
  have hinner : Faithful env counting countingForms inner := .doWhile rfl (fun _ => rfl) hstep
  have hskip : Faithful env counting countingForms (.ifElse (.name "skip") (.continueTo none) none) :=
    .ifElse (fun _ => rfl) .continueTo (by simp)
  have hb : Faithful env counting countingForms b := by
    refine .block ?_
    simp only [List.forall_mem_cons, List.not_mem_nil, false_imp_iff, implies_true, and_true]
    exact ⟨hskip, hinner⟩
  have h : Faithful env counting countingForms (.doWhile b (.name "again")) :=
    .doWhile rfl (fun _ => rfl) hb
  exact ⟨h, by decide +kernel, do_loop_left_when_condition_holds .default (fun _ _ => []) 0 [] _ _ h⟩

/-- `do step(); while (more);` steps once where the loop is written, but not where it is meant: after one
step there is more. -/
theorem do_loop_not_preserved :
    let loop : Java.Stmt := .doWhile (.block [.expr (.call none [] "step" [])]) (.name "more")
    let env := Env.upTo .default (fun _ _ => []) 1
    Faithful env counting countingForms loop ∧
    Output.Piece.render (Ceylon.Stmt.piecesList (stmt env loop []) 0) =
      "while (true) \x7b\n    step();\n    if (more) \x7bbreak;\x7d\n\x7d\n" ∧
    countingForms.runsList (stmt env loop []) 0 .normal 1 ∧
    counting.runsDo true loop 0 .normal 2 ∧ ¬ counting.runsDo true loop 0 .normal 1 := by
  intro loop env
  have hstep : Faithful env counting countingForms (.expr (.call none [] "step" [])) :=
    .simple rfl fun _ => Run.seq_skip _
  have hb : Faithful env counting countingForms (.block [.expr (.call none [] "step" [])]) :=
    .block (by simpa using hstep)
  have hloop : Faithful env counting countingForms loop := .doWhile rfl (fun _ => rfl) hb
  have hround : ∀ again s c s',
      counting.runsDo again (.block [.expr (.call none [] "step" [])]) s c s' ↔
        c = .normal ∧ s' = s + 1 := by
    intro again s c s'
    have heffect : counting.runsDo again (.block [.expr (.call none [] "step" [])]) =
        counting.effect (.call none [] "step" []) := Run.seq_skip _
    rw [heffect]
    constructor
    · rintro (⟨_, _, ⟨_, rfl⟩, rfl, rfl⟩ | ⟨_, ⟨hv, _⟩, _⟩)
      · exact ⟨rfl, rfl⟩
      · cases hv
    · rintro ⟨rfl, rfl⟩
      exact .inl ⟨(), s + 1, ⟨rfl, rfl⟩, rfl, rfl⟩
  refine ⟨hloop, by decide, ?_, ?_, ?_⟩
  · have hwritten : countingForms.runsList (stmt env loop []) = counting.runsDo false loop :=
      Renders.doWhile_runs rfl (fun _ => rfl) (hb.renders (Env.repeats_upTo _ _ 0)) []
    rw [hwritten]
    exact .done ((hround _ _ _ _).mpr ⟨rfl, rfl⟩) (.inl rfl) ⟨rfl, rfl⟩
  · refine .again ((hround _ _ _ _).mpr ⟨rfl, rfl⟩) (.inl rfl) ⟨rfl, rfl⟩ ?_
    exact .done ((hround _ _ _ _).mpr ⟨rfl, rfl⟩) (.inl rfl) ⟨rfl, rfl⟩
  · intro h
    rcases Run.doLoop_normal h with ⟨_, ht, rfl⟩ | ⟨_, hr⟩
    · cases ht
    · cases ((hround _ _ _ _).mp hr).1

end CeylonFromJava.Conversion
