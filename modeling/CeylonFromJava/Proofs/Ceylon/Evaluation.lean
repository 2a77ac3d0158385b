import CeylonFromJava.Ceylon.Source
import CeylonFromJava.Proofs.Java.Evaluation

/-! Evaluation of Ceylon expressions, from left to right as they are written.

Operators and arrays are those of Java. A name is first looked for among the temporaries around it. An
element update binds its temporaries, if it has any, and then does what `a.set(i, a.get(i) op v)` says:
both operands are evaluated for `set` and again for `get`. -/
namespace CeylonFromJava.Ceylon
set_option autoImplicit false

open Java (Eval Operations Ref)

variable {σ V : Type}

/-! ## Temporaries -/

/-- A temporary with its value. -/
structure Temp (V : Type) where
  role : Role
  number : Nat
  value : V

namespace Temp

def name (t : Temp V) : String := tempName t.role.word t.number

def lookup (temps : List (Temp V)) (name : String) : Option V :=
  (temps.find? fun t => t.name == name).map value

/-- No temporary has this name. -/
def Free (name : String) : Prop := ∀ (role : Role) (n : Nat), tempName role.word n ≠ name

theorem free_of_length_lt {name : String} (h : name.length < 5) : Free name := by
  rintro role n rfl
  have hword : role.word.length = 5 := by cases role <;> rfl
  rw [tempName, String.length_append, hword] at h
  omega

theorem lookup_eq_none {name : String} (h : Free name) (temps : List (Temp V)) :
    lookup temps name = none := by
  have hnone : temps.find? (fun t => t.name == name) = none := by
    rw [List.find?_eq_none]
    intro t _ ht
    exact h t.role t.number (eq_of_beq ht)
  rw [lookup, hnone, Option.map_none]

@[simp] theorem lookup_self (role : Role) (n : Nat) (v : V) (temps : List (Temp V)) :
    lookup (⟨role, n, v⟩ :: temps) (tempName role.word n) = some v := by
  simp [lookup, name]

theorem index_ne_array (n : Nat) : tempName Role.index.word n ≠ tempName Role.array.word n := by
  intro h
  have hhead := congrArg (fun s => s.toList.head?) h
  simp [tempName, Role.word, arrayRole, indexRole] at hhead

/-- The temporary of the index does not hide that of the array. -/
@[simp] theorem lookup_array (n : Nat) (v w : V) (temps : List (Temp V)) :
    lookup (⟨.index, n, v⟩ :: ⟨.array, n, w⟩ :: temps) (tempName Role.array.word n) = some w := by
  simp [lookup, name, beq_false_of_ne (index_ne_array n)]

end Temp

/-! ## Machines -/

/-- What the words of Ceylon programs do. A name or a member may stand for a method without
parameters, so reading it can change the store. -/
structure Machine (ops : Operations σ V) where
  name : String → Eval σ V V
  member : V → String → Eval σ V V
  setName : String → V → Eval σ V V
  setMember : V → String → V → Eval σ V V
  call : Option V → String → List Ty → List V → Eval σ V V
  instantiate : Ty → List V → Eval σ V V
  object : Ty → List V → List Member → Eval σ V V
  isType : V → Ty → σ → Except V V
  unassignable : V

/-! ## Expressions -/

namespace Machine

variable {ops : Operations σ V} (m : Machine ops)

/-- A name, which is a temporary if there is one that is called so. -/
def evalName (temps : List (Temp V)) (name : String) : Eval σ V V :=
  match Temp.lookup temps name with
  | some v => pure v
  | none => m.name name

mutual
/-- The number is that of the next temporary. -/
def eval : Expr → Nat → List (Temp V) → Eval σ V V
  | .literal value, _, _ => pure (ops.literal value)
  | .name text, _, temps => m.evalName temps text
  | .thisRef, _, _ => .read ops.self
  | .superRef, _, _ => .read ops.parent
  | .paren inner, k, temps => eval inner k temps
  | .property target name, k, temps => do
    let owner ← eval target k temps
    m.member owner name
  | .call target name typeArgs args, k, temps => do
    let owner ← evalOption target k temps
    let values ← evalList args (k + Expr.tempsOption target) temps
    m.call owner name typeArgs values
  | .instantiate ty args, k, temps => do
    let values ← evalList args k temps
    m.instantiate ty values
  | .object ty args body, k, temps => do
    let values ← evalList args k temps
    m.object ty values body
  | .array elements, k, temps => do
    let values ← evalList elements k temps
    ops.array values
  | .get array index, k, temps => do
    let a ← eval array k temps
    let i ← eval index (k + array.temps) temps
    Eval.read (ops.element a i)
  | .set array index value, k, temps => do
    let a ← eval array k temps
    let i ← eval index (k + array.temps) temps
    let v ← eval value (k + array.temps + index.temps) temps
    ops.setElement a i v
  | .update array index op value, k, temps => do
    let first := k + Slot.ownTemps array index
    let second := first + array.temps
    let temps ← bind array .array k first temps
    let temps ← bind index .index k second temps
    let a ← use array .array k temps
    let i ← use index .index k temps
    let a' ← use array .array k temps
    let i' ← use index .index k temps
    let old ← Eval.read (ops.element a' i')
    let v ← eval value (second + index.temps) temps
    let new ← Eval.read (ops.binary (.arith op) old v)
    ops.setElement a i new
  | .assign target op value, k, temps => do
    let ref ← place target k temps
    ops.assign ref op (eval value (k + target.temps) temps)
  | .before op operand, k, temps =>
    if op.isIncrement then do
      let ref ← place operand k temps
      ops.step op ref
    else do
      let v ← eval operand k temps
      Eval.read (ops.unary op v)
  | .after operand op, k, temps => do
    let ref ← place operand k temps
    ops.step op ref
  | .binary left op right, k, temps =>
    ops.combine op (eval left k temps) (eval right (k + left.temps) temps)
  | .existence holds _ operand, k, temps => do
    let v ← eval operand k temps
    Eval.read (ops.binary (if holds then .ne else .eq) v (ops.literal .null))
  | .isType operand ty, k, temps => do
    let v ← eval operand k temps
    Eval.read (m.isType v ty)
  | .conditional conditions then' otherwise, k, temps => do
    let holds ← test conditions k temps
    if holds then eval then' (k + Condition.tempsList conditions) temps
    else eval otherwise (k + Condition.tempsList conditions + then'.temps) temps
termination_by structural e => e

def evalOption : Option Expr → Nat → List (Temp V) → Eval σ V (Option V)
  | none, _, _ => pure none
  | some e, k, temps => do
    let v ← eval e k temps
    pure (some v)
termination_by structural e => e

def evalList : List Expr → Nat → List (Temp V) → Eval σ V (List V)
  | [], _, _ => pure []
  | e :: es, k, temps => do
    let v ← eval e k temps
    let vs ← evalList es (k + e.temps) temps
    pure (v :: vs)
termination_by structural e => e

/-- The temporaries after that of a slot is bound, if it has one: `n` is its number. -/
def bind : Slot → Role → Nat → Nat → List (Temp V) → Eval σ V (List (Temp V))
  | .direct _, _, _, _, temps => pure temps
  | .bound value, role, n, k, temps => do
    let v ← eval value k temps
    pure (⟨role, n, v⟩ :: temps)
termination_by structural s => s

/-- What an update reads from a slot. -/
def use : Slot → Role → Nat → List (Temp V) → Eval σ V V
  | .direct value, _, k, temps => eval value k temps
  | .bound _, role, n, temps => m.evalName temps (tempName role.word n)
termination_by structural s => s

/-- Conditions one after another, up to the first that does not hold. -/
def test : List Condition → Nat → List (Temp V) → Eval σ V Bool
  | [], _, _ => pure true
  | .isType ty operand :: cs, k, temps => do
    let v ← eval operand k temps
    let r ← Eval.read (m.isType v ty)
    if ops.truth r then test cs (k + operand.temps) temps else pure false
  | .holds value :: cs, k, temps => do
    let v ← eval value k temps
    if ops.truth v then test cs (k + value.temps) temps else pure false
termination_by structural c => c

/-- What an expression stands for on the left of an assignment; a temporary keeps its value. -/
def place : Expr → Nat → List (Temp V) → Eval σ V (Ref σ V)
  | .paren inner, k, temps => place inner k temps
  | .name text, _, temps =>
    match Temp.lookup temps text with
    | some _ => throw m.unassignable
    | none => pure ⟨m.name text, m.setName text⟩
  | .property target name, k, temps => do
    let owner ← eval target k temps
    pure ⟨m.member owner name, m.setMember owner name⟩
  | .get array index, k, temps => do
    let a ← eval array k temps
    let i ← eval index (k + array.temps) temps
    pure (ops.elementRef a i)
  | _, _, _ => throw m.unassignable
termination_by structural e => e
end

attribute [simp] eval evalOption evalList bind use test place

theorem evalName_of_free {name : String} (h : Temp.Free name) (temps : List (Temp V)) :
    m.evalName temps name = m.name name := by
  rw [evalName, Temp.lookup_eq_none h]

theorem evalName_of_lookup {name : String} {v : V} {temps : List (Temp V)}
    (h : Temp.lookup temps name = some v) : m.evalName temps name = pure v := by
  rw [evalName, h]

theorem test_append (cs ds : List Condition) (k : Nat) (temps : List (Temp V)) :
    m.test (cs ++ ds) k temps = (do
      let holds ← m.test cs k temps
      if holds then m.test ds (k + Condition.tempsList cs) temps else pure false) := by
  induction cs generalizing k with
  | nil => simp [Condition.tempsList]
  | cons c cs ih =>
    have hnumber (n : Nat) : k + n + Condition.tempsList cs = k + (n + Condition.tempsList cs) :=
      Nat.add_assoc ..
    cases c with
    | isType ty operand =>
      simp only [List.cons_append, test, ih, Condition.tempsList, Condition.temps, hnumber, bind_assoc]
      congr 1
      funext v
      congr 1
      funext r
      cases ops.truth r <;> simp
    | holds value =>
      simp only [List.cons_append, test, ih, Condition.tempsList, Condition.temps, hnumber, bind_assoc]
      congr 1
      funext v
      cases ops.truth v <;> simp

/-- The effect of a statement that only evaluates an expression. -/
def effect : Stmt → Nat → List (Temp V) → Option (Eval σ V Unit)
  | .expr value, k, temps => some do
    let _ ← m.eval value k temps
    pure ()
  | .update array index op value, k, temps => some do
    let _ ← m.eval (.update array index op value) k temps
    pure ()
  | _, _, _ => none

end Machine

end CeylonFromJava.Ceylon
