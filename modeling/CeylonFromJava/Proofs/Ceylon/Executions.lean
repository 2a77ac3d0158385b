import CeylonFromJava.Ceylon.Tree
import CeylonFromJava.Proofs.Java.Executions

/-! Executions of Ceylon statements.

Runs are those of Java statements: both end in the same ways. What expressions and the statements that
hold no others do to the store is left open. -/
namespace CeylonFromJava.Ceylon
set_option autoImplicit false

open Java (Run)

variable {σ V : Type}

/-- What the expressions and the simple statements of a program do. -/
structure Interpretation (σ V : Type) where
  cond : Expr → σ → Except V Bool → σ → Prop
  /-- Condition lists hold or not, or throw. -/
  conds : List Condition → σ → Except V Bool → σ → Prop
  eval : Expr → σ → Except V V → σ → Prop
  /-- Whether a loop has another element, which its variable then has. -/
  element : Ty → String → V → σ → Except V Bool → σ → Prop
  /-- Declarations, assertions, expression statements and constructor calls. -/
  act : Stmt → σ → Except V Unit → σ → Prop
  cond_true : ∀ s r s', cond (.literal (.bool true)) s r s' ↔ r = .ok true ∧ s' = s

namespace Interpretation

variable (m : Interpretation σ V)

mutual
/-- `switch` and `try` are left out: they have no runs. -/
def runs : Stmt → Run σ V
  | .block body => runsList body
  | .ifElse conds body otherwise =>
    .bind (m.conds conds) fun holds => if holds then runsList body else runsElse otherwise
  | .whileLoop cond body => .loop (m.cond cond) (runsList body) .skip
  | .forIn ty name iterable body =>
    .bind (m.eval iterable) fun v => .loop (m.element ty name v) (runsList body) .skip
  | .breakIf cond => .bind (m.cond cond) fun holds => if holds then .stop .broken else .skip
  | .breakLoop => .stop .broken
  | .continueLoop => .stop .continued
  | .returnValue none => .stop (.returned none)
  | .returnValue (some value) => .bind (m.eval value) fun v => .stop (.returned (some v))
  | .throwValue value => .bind (m.eval value) fun v => .stop (.thrown v)
  | .switch _ _ _ | .tryCatch _ _ _ _ => fun _ _ _ => False
  | s => .bind (m.act s) fun _ => .skip
termination_by structural s => s

def runsElse : Else → Run σ V
  | .absent => .skip
  | .block body => runsList body
  | .chained conds body otherwise =>
    .bind (m.conds conds) fun holds => if holds then runsList body else runsElse otherwise
termination_by structural e => e

def runsList : List Stmt → Run σ V
  | [] => .skip
  | s :: ss => .seq (runs s) (runsList ss)
termination_by structural s => s
end

attribute [simp] runs runsElse runsList

theorem runsList_append (ss ss' : List Stmt) :
    m.runsList (ss ++ ss') = .seq (m.runsList ss) (m.runsList ss') := by
  induction ss with
  | nil => exact (Run.skip_seq _).symm
  | cons s ss ih => rw [List.cons_append, runsList, runsList, ih, Run.seq_assoc]

theorem runsList_singleton (s : Stmt) : m.runsList [s] = m.runs s := by
  rw [runsList, runsList, Run.seq_skip]

end Interpretation

end CeylonFromJava.Ceylon
