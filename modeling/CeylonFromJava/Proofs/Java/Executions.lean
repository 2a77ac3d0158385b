import CeylonFromJava.Java.Tree

/-! Executions of statements.

A run takes a store to a completion and a store; a statement has any number of them. What
expressions do to the store is left open: an interpretation says which values they can have, or what
they throw, and which stores they leave. A declaration assigns to the one flat store.

Statements that this account leaves out (labels, `switch`, `do`, `try`, locks) have no runs. -/
namespace CeylonFromJava.Java
set_option autoImplicit false

variable {σ V : Type}

/-- How a statement ends. -/
inductive Completion (V : Type) where
  | normal
  | broken
  | continued
  | returned (value : Option V)
  | thrown (value : V)

/-- What the expressions of a program do. -/
structure Interpretation (σ V : Type) where
  /-- Conditions hold or not, or throw. -/
  cond : Expr → σ → Except V Bool → σ → Prop
  /-- Expressions have a value or throw. -/
  eval : Expr → σ → Except V V → σ → Prop
  /-- The next element of what a loop goes through, none at its end. -/
  next : V → σ → Except V (Option V) → σ → Prop
  /-- Calls of other constructors. -/
  delegate : ConstructorTarget → List Expr → σ → Except V Unit → σ → Prop
  /-- The store after a variable has got a value. -/
  assign : TypeRef → String → V → σ → σ
  cond_true : ∀ s r s', cond (.literal (.bool true)) s r s' ↔ r = .ok true ∧ s' = s

abbrev Run (σ V : Type) := σ → Completion V → σ → Prop

/-! ## Runs put together -/

namespace Run

def skip : Run σ V := fun s c s' => c = .normal ∧ s' = s

def stop (c : Completion V) : Run σ V := fun s c' s' => c' = c ∧ s' = s

/-- One after another, unless the first ends early. -/
def seq (r q : Run σ V) : Run σ V := fun s c s' =>
  (∃ m, r s .normal m ∧ q m c s') ∨ (r s c s' ∧ c ≠ .normal)

/-- Goes on with the result of an expression, unless that throws. -/
def bind {α : Type} (e : σ → Except V α → σ → Prop) (use : α → Run σ V) : Run σ V := fun s c s' =>
  (∃ a m, e s (.ok a) m ∧ use a m c s') ∨ (∃ v, e s (.error v) s' ∧ c = .thrown v)

/-- Rounds while a test holds. A round that ends normally or with `continue` is followed by `after`;
`break` ends the loop, and anything else leaves it. -/
inductive loop (test : σ → Except V Bool → σ → Prop) (round after : Run σ V) : Run σ V
  | done {s s' : σ} : test s (.ok false) s' → loop test round after s .normal s'
  | failed {s s' : σ} {v : V} : test s (.error v) s' → loop test round after s (.thrown v) s'
  | again {s m m' m'' s' : σ} {c d : Completion V} : test s (.ok true) m → round m c m' →
    c = .normal ∨ c = .continued → after m' .normal m'' → loop test round after m'' d s' →
      loop test round after s d s'
  | stuck {s m m' s' : σ} {c d : Completion V} : test s (.ok true) m → round m c m' →
    c = .normal ∨ c = .continued → after m' d s' → d ≠ .normal → loop test round after s d s'
  | broken {s m s' : σ} : test s (.ok true) m → round m .broken s' →
      loop test round after s .normal s'
  | left {s m s' : σ} {c : Completion V} : test s (.ok true) m → round m c s' → c ≠ .normal →
    c ≠ .continued → c ≠ .broken → loop test round after s c s'

end Run

/-! ## Runs of statements -/

namespace Interpretation

variable (m : Interpretation σ V)

def effect (e : Expr) : Run σ V := .bind (m.eval e) fun _ => .skip

def effects : List Expr → Run σ V
  | [] => .skip
  | e :: es => .seq (m.effect e) (effects es)

/-- Variables of one type with their initial values. -/
def declare (ty : TypeRef) : List Declarator → Run σ V
  | [] => .skip
  | ⟨_, none⟩ :: ds => declare ty ds
  | ⟨name, some init⟩ :: ds =>
    .seq (.bind (m.eval init) fun v s c s' => c = .normal ∧ s' = m.assign ty name v s)
      (declare ty ds)

def init : Option ForInit → Run σ V
  | none => .skip
  | some (.declare decl) => m.declare decl.ty decl.declarators
  | some (.exprs es) => m.effects es

/-- The condition of a counting loop; without one it holds. -/
def loopTest : Option Expr → σ → Except V Bool → σ → Prop
  | none => fun s r s' => r = .ok true ∧ s' = s
  | some cond => m.cond cond

/-- Whether there is another element, which the variable then has. -/
def elementTest (ty : TypeRef) (name : String) (iterable : V) : σ → Except V Bool → σ → Prop :=
  fun s r s' =>
    (∃ v m', m.next iterable s (.ok (some v)) m' ∧ r = .ok true ∧ s' = m.assign ty name v m') ∨
      (m.next iterable s (.ok none) s' ∧ r = .ok false) ∨
      (∃ v, m.next iterable s (.error v) s' ∧ r = .error v)

mutual
def runs : Stmt → Run σ V
  | .block b => runsList b
  | .localVar decl => m.declare decl.ty decl.declarators
  | .expr e => m.effect e
  | .ifElse cond then' otherwise =>
    .bind (m.cond cond) fun holds => if holds then runs then' else runsOption otherwise
  | .whileLoop cond body => .loop (m.cond cond) (runs body) .skip
  | .forLoop init cond update body =>
    .seq (m.init init) (.loop (m.loopTest cond) (runs body) (m.effects update))
  | .forEach ty name iterable body =>
    .bind (m.eval iterable) fun v => .loop (m.elementTest ty name v) (runs body) .skip
  | .breakTo none => .stop .broken
  | .continueTo none => .stop .continued
  | .constructorCall target args => .bind (m.delegate target args) fun _ => .skip
  | .returnValue none => .stop (.returned none)
  | .returnValue (some value) => .bind (m.eval value) fun v => .stop (.returned (some v))
  | .throwValue value => .bind (m.eval value) fun v => .stop (.thrown v)
  | .empty => .skip
  | .breakTo (some _) | .continueTo (some _) | .labeled _ _ | .doWhile _ _ | .switch _ _
  | .synchronized _ _ | .tryCatch _ _ _ _ => fun _ _ _ => False

def runsOption : Option Stmt → Run σ V
  | none => .skip
  | some s => runs s

def runsList : List Stmt → Run σ V
  | [] => .skip
  | s :: ss => .seq (runs s) (runsList ss)
end

end Interpretation

/-! ## Laws -/

namespace Run

theorem ext {r q : Run σ V} (h : ∀ s c s', r s c s' ↔ q s c s') : r = q := by
  funext s c s'
  exact propext (h s c s')

theorem seq_skip (r : Run σ V) : seq r skip = r := by
  refine ext fun s c s' => ?_
  constructor
  · rintro (⟨m, hr, rfl, rfl⟩ | ⟨hr, _⟩)
    · exact hr
    · exact hr
  · intro hr
    by_cases hc : c = .normal
    · exact .inl ⟨s', hc ▸ hr, hc, rfl⟩
    · exact .inr ⟨hr, hc⟩

theorem skip_seq (r : Run σ V) : seq skip r = r := by
  refine ext fun s c s' => ?_
  constructor
  · rintro (⟨m, ⟨_, rfl⟩, hr⟩ | ⟨⟨hc, _⟩, hn⟩)
    · exact hr
    · exact absurd hc hn
  · exact fun hr => .inl ⟨s, ⟨rfl, rfl⟩, hr⟩

theorem seq_assoc (r q p : Run σ V) : seq (seq r q) p = seq r (seq q p) := by
  refine ext fun s c s' => ?_
  constructor
  · rintro (⟨m, ⟨m', hr, hq⟩ | ⟨_, hn⟩, hp⟩ | ⟨⟨m', hr, hq⟩ | ⟨hr, hn⟩, hc⟩)
    · exact .inl ⟨m', hr, .inl ⟨m, hq, hp⟩⟩
    · exact absurd rfl hn
    · exact .inl ⟨m', hr, .inr ⟨hq, hc⟩⟩
    · exact .inr ⟨hr, hn⟩
  · rintro (⟨m, hr, ⟨m', hq, hp⟩ | ⟨hq, hc⟩⟩ | ⟨hr, hc⟩)
    · exact .inl ⟨m', .inl ⟨m, hr, hq⟩, hp⟩
    · exact .inr ⟨.inl ⟨m, hr, hq⟩, hc⟩
    · exact .inr ⟨.inr ⟨hr, hc⟩, hc⟩

end Run

end CeylonFromJava.Java
