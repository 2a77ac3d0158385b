import CeylonFromJava.Conversion.Operand
import CeylonFromJava.Java.Tree

/-! Evaluation of Java expressions, from left to right.

An evaluation takes a store to a value, or to what is thrown, and a store. What operators, arrays and
variables are is given by a machine. Reading never changes the store; calls and the making of objects do
to it what they like. An expression without calls, assignments and steps only reads. -/
namespace CeylonFromJava.Java
set_option autoImplicit false

open Conversion (isPure)

variable {σ V α β : Type}

/-! ## Evaluations -/

/-- From a store to a result or a thrown value, and a store. -/
abbrev Eval (σ V α : Type) := EStateM V σ α

namespace Eval

/-- Looks at the store and leaves it as it is. -/
def read (f : σ → Except V α) : Eval σ V α := fun s =>
  match f s with
  | .ok a => .ok a s
  | .error v => .error v s

/-- The store that is left. -/
def after (e : Eval σ V α) (s : σ) : σ :=
  match e s with
  | .ok _ s' | .error _ s' => s'

/-- An evaluation that never changes the store. -/
def IsRead (e : Eval σ V α) : Prop := ∀ s, (∃ a, e s = .ok a s) ∨ ∃ v, e s = .error v s

theorem bind_of_ok {e : Eval σ V α} {s s' : σ} {a : α} (h : e s = .ok a s')
    (use : α → Eval σ V β) : (e >>= use) s = use a s' := by
  show EStateM.bind e use s = _
  rw [EStateM.bind, h]

theorem bind_of_error {e : Eval σ V α} {s s' : σ} {v : V} (h : e s = .error v s')
    (use : α → Eval σ V β) : (e >>= use) s = .error v s' := by
  show EStateM.bind e use s = _
  rw [EStateM.bind, h]

theorem bind_apply_congr {e e' : Eval σ V α} {s : σ} (h : e s = e' s) (use : α → Eval σ V β) :
    (e >>= use) s = (e' >>= use) s := by
  show EStateM.bind e use s = EStateM.bind e' use s
  rw [EStateM.bind, EStateM.bind, h]

theorem isRead_read (f : σ → Except V α) : IsRead (read f) := by
  intro s
  cases h : f s with
  | ok a => exact .inl ⟨a, by rw [read, h]⟩
  | error v => exact .inr ⟨v, by rw [read, h]⟩

theorem isRead_pure (a : α) : IsRead (pure a : Eval σ V α) := fun _ => .inl ⟨a, rfl⟩

theorem IsRead.bind {e : Eval σ V α} {use : α → Eval σ V β} (he : IsRead e)
    (huse : ∀ a, IsRead (use a)) : IsRead (e >>= use) := by
  intro s
  obtain ⟨a, ha⟩ | ⟨v, hv⟩ := he s
  · rw [bind_of_ok ha]
    exact huse a s
  · exact .inr ⟨v, bind_of_error hv use⟩

/-- What was read a moment ago is read again. -/
theorem IsRead.twice {e : Eval σ V α} (he : IsRead e) (use : α → α → Eval σ V β) :
    (do let a ← e; let b ← e; use a b) = (do let a ← e; use a a) := by
  funext s
  obtain ⟨a, ha⟩ | ⟨v, hv⟩ := he s
  · rw [bind_of_ok ha, bind_of_ok ha, bind_of_ok ha]
  · rw [bind_of_error hv, bind_of_error hv]

/-- A read in between changes nothing. -/
theorem IsRead.twice_around {γ : Type} {e : Eval σ V α} {e' : Eval σ V β} (he : IsRead e)
    (he' : IsRead e') (use : α → β → α → Eval σ V γ) :
    (do let a ← e; let b ← e'; let c ← e; use a b c) = (do let a ← e; let b ← e'; use a b a) := by
  funext s
  obtain ⟨a, ha⟩ | ⟨v, hv⟩ := he s
  · rw [bind_of_ok ha, bind_of_ok ha]
    obtain ⟨b, hb⟩ | ⟨v, hv⟩ := he' s
    · rw [bind_of_ok hb, bind_of_ok hb, bind_of_ok ha]
    · rw [bind_of_error hv, bind_of_error hv]
  · rw [bind_of_error hv, bind_of_error hv]

end Eval

/-! ## Machines -/

/-- Values, operators and arrays. A step such as `++` is an operator that gives the next value. -/
structure Operations (σ V : Type) where
  literal : Literal → V
  self : σ → Except V V
  parent : σ → Except V V
  truth : V → Bool
  unary : UnaryOp → V → σ → Except V V
  binary : BinaryOp → V → V → σ → Except V V
  element : V → V → σ → Except V V
  /-- Changes an element; what value that leaves is open. -/
  setElement : V → V → V → Eval σ V V
  array : List V → Eval σ V V

/-- What can be assigned to. -/
structure Ref (σ V : Type) where
  load : Eval σ V V
  store : V → Eval σ V V

namespace Operations

variable (ops : Operations σ V)

def elementRef (array index : V) : Ref σ V :=
  ⟨.read (ops.element array index), ops.setElement array index⟩

/-- Two operands; `&&` and `||` leave the second one out if the first decides. -/
def combine (op : BinaryOp) (left right : Eval σ V V) : Eval σ V V :=
  match op with
  | .and => do
    let v ← left
    if ops.truth v then right else pure v
  | .or => do
    let v ← left
    if ops.truth v then pure v else right
  | op => do
    let v ← left
    let w ← right
    Eval.read (ops.binary op v w)

/-- An assignment; a compound one loads before it evaluates the value. -/
def assign (ref : Ref σ V) (op : AssignOp) (value : Eval σ V V) : Eval σ V V :=
  match op with
  | .plain => do
    let v ← value
    ref.store v
  | .compound op => do
    let old ← ref.load
    let v ← value
    let new ← Eval.read (ops.binary (.arith op) old v)
    ref.store new

/-- One more or one less. -/
def step (op : UnaryOp) (ref : Ref σ V) : Eval σ V V := do
  let old ← ref.load
  let new ← Eval.read (ops.unary op old)
  let _ ← ref.store new
  pure (if op.isPostfix then old else new)

end Operations

/-- What the words of Java programs do. -/
structure Machine (ops : Operations σ V) where
  name : String → σ → Except V V
  field : V → String → σ → Except V V
  setName : String → V → Eval σ V V
  setField : V → String → V → Eval σ V V
  call : Option V → List TypeRef → String → List V → Eval σ V V
  create : ClassType → List V → Option (List Member) → Eval σ V V
  createArray : TypeRef → List V → UInt64 → Eval σ V V
  instanceOf : V → TypeRef → σ → Except V V
  cast : TypeRef → V → σ → Except V V
  /-- What is thrown where something is assigned to that cannot be. -/
  unassignable : V

/-! ## Expressions -/

namespace Machine

variable {ops : Operations σ V} (m : Machine ops)

mutual
def eval : Expr → Eval σ V V
  | .literal value => pure (ops.literal value)
  | .name name => .read (m.name name)
  | .thisRef => .read ops.self
  | .superRef => .read ops.parent
  | .paren inner => eval inner
  | .field target name => do
    let owner ← eval target
    Eval.read (m.field owner name)
  | .call target typeArgs name args => do
    let owner ← evalOption target
    let values ← evalList args
    m.call owner typeArgs name values
  | .create ty args body => do
    let values ← evalList args
    m.create ty values body
  | .createArray _ _ _ (some elements) | .arrayInit elements => do
    let values ← evalList elements
    ops.array values
  | .createArray element dims extraDims none => do
    let values ← evalList dims
    m.createArray element values extraDims
  | .index array index => do
    let a ← eval array
    let i ← eval index
    Eval.read (ops.element a i)
  | .assign target op value => do
    let ref ← place target
    ops.assign ref op (eval value)
  | .unary op operand =>
    if op.isIncrement then do
      let ref ← place operand
      ops.step op ref
    else do
      let v ← eval operand
      Eval.read (ops.unary op v)
  | .binary left op right => ops.combine op (eval left) (eval right)
  | .instanceOf operand ty => do
    let v ← eval operand
    Eval.read (m.instanceOf v ty)
  | .conditional cond then' otherwise => do
    let v ← eval cond
    if ops.truth v then eval then' else eval otherwise
  | .cast ty operand => do
    let v ← eval operand
    Eval.read (m.cast ty v)
termination_by structural e => e

def evalOption : Option Expr → Eval σ V (Option V)
  | none => pure none
  | some e => do
    let v ← eval e
    pure (some v)
termination_by structural e => e

def evalList : List Expr → Eval σ V (List V)
  | [] => pure []
  | e :: es => do
    let v ← eval e
    let vs ← evalList es
    pure (v :: vs)
termination_by structural e => e

/-- What an expression stands for on the left of an assignment. -/
def place : Expr → Eval σ V (Ref σ V)
  | .paren inner => place inner
  | .name name => pure ⟨.read (m.name name), m.setName name⟩
  | .field target name => do
    let owner ← eval target
    pure ⟨.read (m.field owner name), m.setField owner name⟩
  | .index array index => do
    let a ← eval array
    let i ← eval index
    pure (ops.elementRef a i)
  | _ => throw m.unassignable
termination_by structural e => e
end

attribute [simp] eval evalOption evalList place

theorem eval_unparenthesized : (e : Expr) → m.eval e.unparenthesized = m.eval e
  | .paren inner => eval_unparenthesized inner
  | .literal _ | .name _ | .thisRef | .superRef | .field _ _ | .call _ _ _ _ | .create _ _ _
  | .createArray _ _ _ _ | .arrayInit _ | .index _ _ | .assign _ _ _ | .unary _ _ | .binary _ _ _
  | .instanceOf _ _ | .conditional _ _ _ | .cast _ _ => rfl

theorem place_unparenthesized : (e : Expr) → m.place e.unparenthesized = m.place e
  | .paren inner => place_unparenthesized inner
  | .literal _ | .name _ | .thisRef | .superRef | .field _ _ | .call _ _ _ _ | .create _ _ _
  | .createArray _ _ _ _ | .arrayInit _ | .index _ _ | .assign _ _ _ | .unary _ _ | .binary _ _ _
  | .instanceOf _ _ | .conditional _ _ _ | .cast _ _ => rfl

/-! ## Expressions that only read -/

theorem isRead_combine (op : BinaryOp) {left right : Eval σ V V} (hl : left.IsRead)
    (hr : right.IsRead) : (ops.combine op left right).IsRead := by
  have hboth : (do
      let v ← left
      let w ← right
      Eval.read (ops.binary op v w)).IsRead :=
    hl.bind fun _ => hr.bind fun _ => Eval.isRead_read _
  cases op with
  | and =>
    refine hl.bind fun v => ?_
    cases ops.truth v with
    | true => exact hr
    | false => exact Eval.isRead_pure v
  | or =>
    refine hl.bind fun v => ?_
    cases ops.truth v with
    | true => exact Eval.isRead_pure v
    | false => exact hr
  | _ => exact hboth

/-- Running such an expression twice does the same as running it once. -/
theorem isRead_eval : (e : Expr) → isPure e = true → (m.eval e).IsRead
  | .literal _, _ => Eval.isRead_pure _
  | .name _, _ | .thisRef, _ | .superRef, _ => Eval.isRead_read _
  | .paren e, h => isRead_eval e h
  | .field e _, h | .cast _ e, h | .instanceOf e _, h =>
    (isRead_eval e h).bind fun _ => Eval.isRead_read _
  | .index a b, h => by
    obtain ⟨ha, hb⟩ := (Bool.and_eq_true ..).mp h
    exact (isRead_eval a ha).bind fun _ => (isRead_eval b hb).bind fun _ => Eval.isRead_read _
  | .binary a op b, h => by
    obtain ⟨ha, hb⟩ := (Bool.and_eq_true ..).mp h
    exact isRead_combine op (isRead_eval a ha) (isRead_eval b hb)
  | .unary op e, h => by
    obtain ⟨hop, he⟩ := (Bool.and_eq_true ..).mp h
    rw [Bool.not_eq_true'] at hop
    rw [eval, if_neg (by simp [hop])]
    exact (isRead_eval e he).bind fun _ => Eval.isRead_read _
  | .conditional a b c, h => by
    obtain ⟨hab, hc⟩ := (Bool.and_eq_true ..).mp h
    obtain ⟨ha, hb⟩ := (Bool.and_eq_true ..).mp hab
    refine (isRead_eval a ha).bind fun v => ?_
    cases ops.truth v with
    | true => exact isRead_eval b hb
    | false => exact isRead_eval c hc
  | .call _ _ _ _, h | .create _ _ _, h | .createArray _ _ _ _, h | .arrayInit _, h
  | .assign _ _ _, h => by cases h

end Machine

end CeylonFromJava.Java
