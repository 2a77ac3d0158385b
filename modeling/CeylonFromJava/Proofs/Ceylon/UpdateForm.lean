import CeylonFromJava.Proofs.Ceylon.Evaluation
import CeylonFromJava.Proofs.Output.InlineText

/-! Element updates as they are written: operands bound to temporaries, then an assignment.

`updateForm` spells an update out in bindings and `a.set(i, a.get(i) op v)`. The update is laid out as
the text of this form, on one line with `let` or with each binding on a line of its own, and it is
evaluated as the form is. An operand that stands in the assignment, and so is written twice, must take
no numbers. -/
namespace CeylonFromJava.Ceylon
set_option autoImplicit false

open Output (Piece)
open Output.Piece (SameText sameText_cut)
open Java (Eval Operations ArithOp)

/-! ## Expressions without numbers -/

/-- No temporary is numbered in the expression, so its text is the same at any number. -/
structure Expr.Unnumbered (e : Expr) : Prop where
  temps : e.temps = 0
  pieces : ∀ k k', e.pieces k = e.pieces k'

def Condition.Unnumbered : Condition → Prop
  | .isType _ e | .holds e => e.Unnumbered

theorem Condition.Unnumbered.temps {c : Condition} (h : c.Unnumbered) : c.temps = 0 := by
  cases c <;> exact Expr.Unnumbered.temps h

theorem Condition.Unnumbered.pieces {c : Condition} (h : c.Unnumbered) (k k' : Nat) :
    c.pieces k = c.pieces k' := by
  cases c with
  | isType ty e => exact congrArg (_ ++ ·) (Expr.Unnumbered.pieces h k k')
  | holds e => exact Expr.Unnumbered.pieces h k k'

theorem Condition.tempsList_of_unnumbered {cs : List Condition} (h : ∀ c ∈ cs, c.Unnumbered) :
    Condition.tempsList cs = 0 := by
  induction cs with
  | nil => rfl
  | cons c cs ih =>
    obtain ⟨hc, hcs⟩ := List.forall_mem_cons.mp h
    rw [Condition.tempsList, hc.temps, ih hcs]

theorem Condition.piecesList_of_unnumbered {cs : List Condition} (h : ∀ c ∈ cs, c.Unnumbered)
    (k k' : Nat) : Condition.piecesList cs k = Condition.piecesList cs k' := by
  induction cs generalizing k k' with
  | nil => rfl
  | cons c cs ih =>
    obtain ⟨hc, hcs⟩ := List.forall_mem_cons.mp h
    cases cs with
    | nil => exact hc.pieces k k'
    | cons c' cs =>
      show c.pieces k ++ .text ", " :: Condition.piecesList (c' :: cs) (k + c.temps) =
        c.pieces k' ++ .text ", " :: Condition.piecesList (c' :: cs) (k' + c.temps)
      rw [hc.pieces k k', ih hcs _ (k' + c.temps)]

/-- What an update reads twice is unnumbered. -/
def Slot.Unnumbered : Slot → Prop
  | .direct value => value.Unnumbered
  | .bound _ => True

/-! ## Forms -/

/-- Values with the temporaries they are bound to, and what comes after them. -/
structure UpdateForm where
  bound : List (Temp Expr)
  assignment : Expr

namespace Slot

/-- The binding of a slot, if it has one: `n` is its number. -/
def binding (role : Role) (n : Nat) : Slot → List (Temp Expr)
  | .direct _ => []
  | .bound value => [⟨role, n, value⟩]

/-- What stands for a slot after the bindings. -/
def operand (role : Role) (n : Nat) : Slot → Expr
  | .direct value => value
  | .bound _ => .name (tempName role.word n)

end Slot

/-- `let (array0 = …, index0 = …) a.set(i, a.get(i) op v)`, where `a` and `i` are the temporaries if they
are bound. -/
def updateForm (array index : Slot) (op : ArithOp) (value : Expr) (n : Nat) : UpdateForm :=
  let a := array.operand .array n
  let i := index.operand .index n
  ⟨array.binding .array n ++ index.binding .index n,
    .set a i (.binary (.get a i) (.arith op) value)⟩

namespace UpdateForm

def boundTemps : List (Temp Expr) → Nat
  | [] => 0
  | t :: ts => t.value.temps + boundTemps ts

def boundPieces : List (Temp Expr) → Nat → List (List Piece)
  | [], _ => []
  | t :: ts, k =>
    ([.text t.name, .text " = "] ++ t.value.pieces k) :: boundPieces ts (k + t.value.temps)

/-- The number after that of the update itself, which takes one if it binds something. -/
def first (form : UpdateForm) (n : Nat) : Nat := if form.bound.isEmpty then n else n + 1

/-- The number after those of the bindings. -/
def last (form : UpdateForm) (n : Nat) : Nat := form.first n + boundTemps form.bound

/-- The form inside an expression. -/
def inlinePieces (form : UpdateForm) (n : Nat) : List Piece :=
  (if form.bound.isEmpty then []
   else .text "let (" :: Piece.separated ", " (boundPieces form.bound (form.first n)) ++
    [.text ") "]) ++ form.assignment.pieces (form.last n)

/-- The form as a statement. -/
def linePieces (form : UpdateForm) (n : Nat) : List Piece :=
  ((boundPieces form.bound (form.first n)).flatMap fun b =>
    .text "value " :: b ++ [.text ";", .newline]) ++
  (form.assignment.pieces (form.last n) ++ [.text ";", .newline])

variable {σ V : Type} {ops : Operations σ V} (m : Machine ops)

/-- The temporaries after those of the form. -/
def evalBound : List (Temp Expr) → Nat → List (Temp V) → Eval σ V (List (Temp V))
  | [], _, temps => pure temps
  | t :: ts, k, temps => do
    let v ← m.eval t.value k temps
    evalBound ts (k + t.value.temps) (⟨t.role, t.number, v⟩ :: temps)

def eval (form : UpdateForm) (n : Nat) (temps : List (Temp V)) : Eval σ V V := do
  let temps ← evalBound m form.bound (form.first n) temps
  m.eval form.assignment (form.last n) temps

end UpdateForm

/-! ## Operands -/

namespace Slot

theorem temps_operand {s : Slot} (h : s.Unnumbered) (role : Role) (n : Nat) :
    (s.operand role n).temps = 0 := by
  cases s with
  | direct value => exact h.temps
  | bound value => rfl

theorem pieces_operand {s : Slot} (h : s.Unnumbered) (role : Role) (n k : Nat) :
    (s.operand role n).pieces k = s.usePieces role n := by
  cases s with
  | direct value => exact h.pieces k n
  | bound value => rfl

theorem boundTemps_binding {s : Slot} (h : s.Unnumbered) (role : Role) (n : Nat) :
    UpdateForm.boundTemps (s.binding role n) = s.temps := by
  cases s with
  | direct value => exact h.temps.symm
  | bound value => rfl

theorem boundPieces_binding (s : Slot) (role : Role) (n k : Nat) :
    UpdateForm.boundPieces (s.binding role n) k = s.bindingPieces role n k := by
  cases s <;> rfl

end Slot

namespace UpdateForm

theorem boundTemps_append (ts us : List (Temp Expr)) :
    boundTemps (ts ++ us) = boundTemps ts + boundTemps us := by
  induction ts with
  | nil => exact (Nat.zero_add _).symm
  | cons t ts ih => rw [List.cons_append, boundTemps, boundTemps, ih, Nat.add_assoc]

theorem boundPieces_append (ts us : List (Temp Expr)) (k : Nat) :
    boundPieces (ts ++ us) k = boundPieces ts k ++ boundPieces us (k + boundTemps ts) := by
  induction ts generalizing k with
  | nil => rfl
  | cons t ts ih =>
    rw [List.cons_append, boundPieces, boundPieces, ih, boundTemps, Nat.add_assoc]
    rfl

theorem isEmpty_boundPieces (ts : List (Temp Expr)) (k : Nat) :
    (boundPieces ts k).isEmpty = ts.isEmpty := by
  cases ts <;> rfl

variable {σ V : Type} {ops : Operations σ V} (m : Machine ops)

theorem evalBound_append (ts us : List (Temp Expr)) (k : Nat) (temps : List (Temp V)) :
    evalBound m (ts ++ us) k temps = (do
      let temps ← evalBound m ts k temps
      evalBound m us (k + boundTemps ts) temps) := by
  induction ts generalizing k temps with
  | nil => simp [evalBound, boundTemps]
  | cons t ts ih => simp [evalBound, boundTemps, ih, Nat.add_assoc]

theorem evalBound_binding (s : Slot) (role : Role) (n k : Nat) (temps : List (Temp V)) :
    evalBound m (s.binding role n) k temps = m.bind s role n k temps := by
  cases s <;> simp [evalBound, Slot.binding]

end UpdateForm

/-! ## Updates -/

section

variable {array index : Slot} (op : ArithOp) (value : Expr) (k : Nat)

theorem first_updateForm (array index : Slot) :
    (updateForm array index op value k).first k = k + Slot.ownTemps array index := by
  cases array <;> cases index <;> rfl

variable (harray : array.Unnumbered)

include harray

theorem boundPieces_updateForm : UpdateForm.boundPieces (updateForm array index op value k).bound
      ((updateForm array index op value k).first k) =
    array.bindingPieces .array k (k + Slot.ownTemps array index) ++
      index.bindingPieces .index k (k + Slot.ownTemps array index + array.temps) := by
  rw [first_updateForm, updateForm, UpdateForm.boundPieces_append, Slot.boundPieces_binding,
    Slot.boundPieces_binding, Slot.boundTemps_binding harray]

variable (hindex : index.Unnumbered)

include hindex

theorem last_updateForm : (updateForm array index op value k).last k =
    k + Slot.ownTemps array index + array.temps + index.temps := by
  rw [UpdateForm.last, first_updateForm, updateForm, UpdateForm.boundTemps_append,
    Slot.boundTemps_binding harray, Slot.boundTemps_binding hindex, Nat.add_assoc _ array.temps]

/-- The assignment is laid out in the words of the update, with a blank of its own after a bracket. -/
theorem pieces_assignment (n : Nat) : (updateForm array index op value k).assignment.pieces n =
    let a := array.usePieces .array k
    let i := index.usePieces .index k
    a ++ .text ".set(" :: i ++ .text ", " :: a ++ .text ".get(" :: i ++
      [.text ")", .text " ", .text op.symbol, .text " "] ++ value.pieces n ++ [.text ")"] := by
  have ha := Slot.pieces_operand harray .array k
  have hi := Slot.pieces_operand hindex .index k
  simp [updateForm, Expr.pieces, Expr.temps, ha, hi, Slot.temps_operand harray,
    Slot.temps_operand hindex, Java.BinaryOp.symbol]

theorem sameText_assignment (before after : List Piece) (n : Nat) :
    let a := array.usePieces .array k
    let i := index.usePieces .index k
    SameText (before ++ (a ++ .text ".set(" :: i ++ .text ", " :: a ++ .text ".get(" :: i ++
        [.text ") ", .text op.symbol, .text " "] ++ value.pieces n ++ .text ")" :: after))
      (before ++ ((updateForm array index op value k).assignment.pieces n ++ after)) := by
  intro a i
  have hcut := sameText_cut (before ++ a ++ .text ".set(" :: i ++ .text ", " :: a ++
    .text ".get(" :: i) ")" " " ([.text op.symbol, .text " "] ++ value.pieces n ++ .text ")" :: after)
  rw [pieces_assignment op value k harray hindex]
  simpa [a, i] using hcut

/-- Inside an expression an update has the text of its form. -/
theorem sameText_update : SameText ((Expr.update array index op value).pieces k)
    ((updateForm array index op value k).inlinePieces k) := by
  have hbound := @boundPieces_updateForm array index op value k harray
  have hempty := UpdateForm.isEmpty_boundPieces (updateForm array index op value k).bound
    ((updateForm array index op value k).first k)
  rw [hbound] at hempty
  simp only [UpdateForm.inlinePieces, last_updateForm op value k harray hindex, ← hempty, hbound,
    Expr.pieces]
  simpa using sameText_assignment op value k harray hindex _ [] _

/-- As a statement an update has the text of its form on lines of their own. -/
theorem sameText_updateLines : SameText ((Stmt.update array index op value).pieces k)
    ((updateForm array index op value k).linePieces k) := by
  simp only [UpdateForm.linePieces, last_updateForm op value k harray hindex,
    boundPieces_updateForm op value k harray, Stmt.pieces]
  exact sameText_assignment op value k harray hindex _ [.text ";", .newline] _

end

/-- An update is evaluated as its form is, if the numbers make no difference to what it reads twice. -/
theorem Machine.eval_update_eq {σ V : Type} {ops : Operations σ V} (m : Machine ops)
    {array index : Slot} (harray : array.Unnumbered) (hindex : index.Unnumbered)
    (harray' : ∀ e, array = .direct e → ∀ k k' temps, m.eval e k temps = m.eval e k' temps)
    (hindex' : ∀ e, index = .direct e → ∀ k k' temps, m.eval e k temps = m.eval e k' temps)
    (op : ArithOp) (value : Expr) (k : Nat) (temps : List (Temp V)) :
    m.eval (.update array index op value) k temps =
      (updateForm array index op value k).eval m k temps := by
  have ha : ∀ n temps, m.eval (array.operand .array k) n temps = m.use array .array k temps := by
    intro n temps
    cases array with
    | direct e => exact harray' e rfl n k temps
    | bound e => rfl
  have hi : ∀ n temps, m.eval (index.operand .index k) n temps = m.use index .index k temps := by
    intro n temps
    cases index with
    | direct e => exact hindex' e rfl n k temps
    | bound e => rfl
  rw [UpdateForm.eval, first_updateForm, last_updateForm op value k harray hindex]
  simp [updateForm, UpdateForm.evalBound_append, UpdateForm.evalBound_binding,
    Slot.boundTemps_binding harray, ha, hi, Operations.combine, Slot.temps_operand harray,
    Slot.temps_operand hindex, Expr.temps]

end CeylonFromJava.Ceylon
