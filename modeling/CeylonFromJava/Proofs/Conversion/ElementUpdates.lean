import CeylonFromJava.Proofs.Conversion.PureOperands
import CeylonFromJava.Proofs.Conversion.TreeParts

/-! What a compound assignment to an element comes to.

`a[i] op= v` evaluates the array, then the index, loads the element, evaluates `v` and stores. Its
written form, `writtenUpdate`, binds the operands that have side effects first, and reads the others
where they stand. So an array without side effects is read after an index that has some, and otherwise
the order is kept: the update does what it did if the index leaves the array as it was. -/
namespace CeylonFromJava.Conversion
set_option autoImplicit false

open Java (Eval Operations Ref ArithOp AssignOp)
open Ceylon (Temp)
open Output (Piece)

variable {σ V : Type} {ops : Operations σ V} {env : Env} {scope : Scope} {m : Java.Machine ops}
  {c : Ceylon.Machine ops}

/-! ## Expressions whose words agree -/

/-- An expression is used for its value, or it is assigned to. -/
inductive Use where
  | value
  | place

def isPrint (target : Option Java.Expr) (name : String) : Bool :=
  name == "println" && target.any isSystemOut

/-- The array, then the index. -/
def arrayFirst (m : Java.Machine ops) (array index : Java.Expr) : Eval σ V (V × V) := do
  let a ← m.eval array
  let i ← m.eval index
  pure (a, i)

/-- The index, then the array. -/
def indexFirst (m : Java.Machine ops) (array index : Java.Expr) : Eval σ V (V × V) := do
  let i ← m.eval index
  let a ← m.eval array
  pure (a, i)

section

variable (env : Env) (scope : Scope) (m : Java.Machine ops) (c : Ceylon.Machine ops)

/-- Expressions whose words do what they do as they are written. Only names, fields and elements are
assigned to, no name is that of a temporary, casts keep the values they get, and where an update inside
reads its array after its index, the order of the two makes no difference. -/
inductive SameMeaning : Use → Java.Expr → Prop
  | literal (value : Java.Literal) : SameMeaning .value (.literal value)
  | name {name : String} : Temp.Free (Ceylon.Name.word name) →
    c.name (Ceylon.Name.word name) = .read (m.name name) → SameMeaning .value (.name name)
  | namePlace {name : String} : Temp.Free (Ceylon.Name.word name) →
    c.name (Ceylon.Name.word name) = .read (m.name name) →
    c.setName (Ceylon.Name.word name) = m.setName name → SameMeaning .place (.name name)
  | thisRef : SameMeaning .value .thisRef
  | superRef : SameMeaning .value .superRef
  | paren {use : Use} {inner : Java.Expr} : SameMeaning use inner → SameMeaning use (.paren inner)
  | field {target : Java.Expr} {name : String} :
    (∀ v, c.member v (Ceylon.Name.small name) = .read (m.field v name)) →
    SameMeaning .value target → SameMeaning .value (.field target name)
  | fieldPlace {target : Java.Expr} {name : String} :
    (∀ v, c.member v (Ceylon.Name.small name) = .read (m.field v name)) →
    (∀ v, c.setMember v (Ceylon.Name.small name) = m.setField v name) →
    SameMeaning .value target → SameMeaning .place (.field target name)
  | call {target : Option Java.Expr} {typeArgs : List Java.TypeRef} {name : String}
      {args : List Java.Expr} : isPrint target name = false → propertyOf env.config name args = none →
    (∀ owner values, c.call owner (Ceylon.Name.small name) (typeArgs.map typeRef) values =
      m.call owner typeArgs name values) →
    (∀ t ∈ target, SameMeaning .value t) → (∀ a ∈ args, SameMeaning .value a) →
      SameMeaning .value (.call target typeArgs name args)
  | print {target : Java.Expr} {typeArgs : List Java.TypeRef} {args : List Java.Expr} {console : V} :
    isSystemOut target = true → m.eval target = pure console →
    (∀ values, c.call none "print" [] values = m.call (some console) typeArgs "println" values) →
    (∀ a ∈ args, SameMeaning .value a) →
      SameMeaning .value (.call (some target) typeArgs "println" args)
  | ownProperty {typeArgs : List Java.TypeRef} {name property : String} :
    propertyOf env.config name [] = some property → Temp.Free (Ceylon.Name.small property) →
    c.name (Ceylon.Name.small property) = m.call none typeArgs name [] →
      SameMeaning .value (.call none typeArgs name [])
  | property {target : Java.Expr} {typeArgs : List Java.TypeRef} {name property : String} :
    isPrint (some target) name = false → propertyOf env.config name [] = some property →
    (∀ v, c.member v (Ceylon.Name.small property) = m.call (some v) typeArgs name []) →
    SameMeaning .value target → SameMeaning .value (.call (some target) typeArgs name [])
  | create {ty : Java.ClassType} {args : List Java.Expr} :
    (∀ values, c.instantiate (classType ty) values = m.create ty values none) →
    (∀ a ∈ args, SameMeaning .value a) → SameMeaning .value (.create ty args none)
  | object {ty : Java.ClassType} {args : List Java.Expr} {body : List Java.Member} :
    (∀ values, c.object (classType ty) values (members env .ofClass body scope) =
      m.create ty values (some body)) →
    (∀ a ∈ args, SameMeaning .value a) → SameMeaning .value (.create ty args (some body))
  | createArray {element : Java.TypeRef} {dims : List Java.Expr} {extraDims : UInt64} :
    (∀ values, c.instantiate (arrayType element) values = m.createArray element values extraDims) →
    (∀ d ∈ dims, SameMeaning .value d) →
      SameMeaning .value (.createArray element dims extraDims none)
  | arrayOf {element : Java.TypeRef} {dims elements : List Java.Expr} {extraDims : UInt64} :
    (∀ e ∈ elements, SameMeaning .value e) →
      SameMeaning .value (.createArray element dims extraDims (some elements))
  | arrayInit {elements : List Java.Expr} : (∀ e ∈ elements, SameMeaning .value e) →
      SameMeaning .value (.arrayInit elements)
  | index {use : Use} {array index : Java.Expr} : SameMeaning .value array →
    SameMeaning .value index → SameMeaning use (.index array index)
  | assign {target value : Java.Expr} {op : AssignOp} :
    op = .plain ∨ element env target scope = none → SameMeaning .place target →
    SameMeaning .value value → SameMeaning .value (.assign target op value)
  | update {target array index value : Java.Expr} {op : ArithOp} :
    target.unparenthesized = .index array index →
    (isPure array = true → isPure index = false → indexFirst m array index = arrayFirst m array index) →
    SameMeaning .value array → SameMeaning .value index → SameMeaning .value value →
      SameMeaning .value (.assign target (.compound op) value)
  | step {op : Java.UnaryOp} {operand : Java.Expr} : op.isIncrement = true →
    SameMeaning .place operand → SameMeaning .value (.unary op operand)
  | unary {op : Java.UnaryOp} {operand : Java.Expr} : op.isIncrement = false →
    (op = .complement → ∀ v, c.member v "not" = .read (ops.unary .complement v)) →
    SameMeaning .value operand → SameMeaning .value (.unary op operand)
  | binary {left right : Java.Expr} {op : Java.BinaryOp} : SameMeaning .value left →
    SameMeaning .value right → SameMeaning .value (.binary left op right)
  | instanceOf {operand : Java.Expr} {ty : Java.TypeRef} :
    (∀ v, c.isType v (typeRef ty) = m.instanceOf v ty) → SameMeaning .value operand →
      SameMeaning .value (.instanceOf operand ty)
  | conditional {cond then' otherwise : Java.Expr} : SameMeaning .value cond →
    SameMeaning .value then' → SameMeaning .value otherwise →
      SameMeaning .value (.conditional cond then' otherwise)
  | cast {ty : Java.TypeRef} {operand : Java.Expr} :
    (∀ s v s', m.eval operand s = .ok v s' → m.cast ty v s' = .ok v) →
    SameMeaning .value operand → SameMeaning .value (.cast ty operand)

/-- The value of an expression, of its condition list, or what it stands for on the left, is that of its
written form, whatever the number of the next temporary and the temporaries around. -/
def Agrees : Use → Java.Expr → Prop
  | .value, e =>
    (∀ k temps, c.eval (expr env e scope) k temps = m.eval e) ∧
      ∀ k temps, c.test (conditions env e scope fun _ => expr env e scope) k temps = (do
        let v ← m.eval e
        pure (ops.truth v))
  | .place, e => ∀ k temps, c.place (expr env e scope) k temps = m.place e

end

/-! ## Written forms -/

@[simp] theorem eval_grouped (needed : Bool) (e : Ceylon.Expr) (k : Nat) (temps : List (Temp V)) :
    c.eval (grouped needed e) k temps = c.eval e k temps := by
  cases needed <;> rfl

@[simp] theorem place_grouped (needed : Bool) (e : Ceylon.Expr) (k : Nat) (temps : List (Temp V)) :
    c.place (grouped needed e) k temps = c.place e k temps := by
  cases needed <;> rfl

theorem test_holds (e : Ceylon.Expr) (k : Nat) (temps : List (Temp V)) :
    c.test [.holds e] k temps = (do
      let v ← c.eval e k temps
      pure (ops.truth v)) := by
  rw [Ceylon.Machine.test]
  congr 1
  funext v
  cases ops.truth v <;> rfl

/-- An expression that is one condition. -/
theorem agrees_of_holds {e : Java.Expr}
    (hconds : ∀ whole, conditions env e scope whole = [.holds (whole ())])
    (heval : ∀ k temps, c.eval (expr env e scope) k temps = m.eval e) :
    Agrees env scope m c .value e := by
  refine ⟨heval, fun k temps => ?_⟩
  rw [hconds, test_holds, heval]

theorem evalList_exprs {es : List Java.Expr} (h : ∀ e ∈ es, Agrees env scope m c .value e) (k : Nat)
    (temps : List (Temp V)) : c.evalList (exprs env es scope) k temps = m.evalList es := by
  induction es generalizing k with
  | nil => rfl
  | cons e es ih =>
    have hes := ih fun e' he' => h e' (List.mem_cons_of_mem _ he')
    rw [exprs, Ceylon.Machine.evalList, Java.Machine.evalList, (h e (List.mem_cons_self ..)).1]
    simp only [hes]

theorem evalOption_callTarget {target : Option Java.Expr}
    (h : ∀ t ∈ target, Agrees env scope m c .value t) (k : Nat) (temps : List (Temp V)) :
    c.evalOption (callTarget env target scope) k temps = m.evalOption target := by
  cases target with
  | none => rfl
  | some t =>
    rw [callTarget, Ceylon.Machine.evalOption, Java.Machine.evalOption, eval_grouped, (h t rfl).1]

/-! ## Elements -/

namespace Element

variable {el : Element}

theorem arraySlot_of_pure (h : el.arrayPure = true) : el.arraySlot = .direct el.target := if_pos h

theorem arraySlot_of_impure (h : el.arrayPure = false) : el.arraySlot = .bound el.array := by
  rw [arraySlot, h]
  rfl

theorem indexSlot_of_pure (h : el.indexPure = true) : el.indexSlot = .direct el.index := if_pos h

theorem indexSlot_of_impure (h : el.indexPure = false) : el.indexSlot = .bound el.index := by
  rw [indexSlot, h]
  rfl

end Element

theorem place_element {el : Element} (k : Nat) (temps : List (Temp V)) : (target : Java.Expr) →
    element env target scope = some el →
      c.place (expr env target scope) k temps = c.place (.get el.target el.index) k temps
  | .paren inner, h => place_element k temps inner h
  | .index _ _, h => by
    cases h
    rfl
  | .literal _, h | .name _, h | .thisRef, h | .superRef, h | .field _ _, h | .call _ _ _ _, h
  | .create _ _ _, h | .createArray _ _ _ _, h | .arrayInit _, h | .assign _ _ _, h | .unary _ _, h
  | .binary _ _ _, h | .instanceOf _ _, h | .conditional _ _ _, h | .cast _ _, h => by cases h

/-- `a.set(i, v)` assigns to what `a.get(i)` stands for. -/
theorem eval_set (array index value : Ceylon.Expr) (k : Nat) (temps : List (Temp V)) :
    c.eval (.set array index value) k temps = (do
      let ref ← c.place (.get array index) k temps
      ops.assign ref .plain (c.eval value (k + array.temps + index.temps) temps)) := by
  simp [Operations.assign, Operations.elementRef]

/-- The operands of an update, in the order in which its written form evaluates them. -/
def operands (m : Java.Machine ops) (array index : Java.Expr) : Eval σ V (V × V) :=
  if isPure array && !isPure index then indexFirst m array index else arrayFirst m array index

theorem operands_apply {array index : Java.Expr} {s : σ} (h : isPure array = true →
      isPure index = false → indexFirst m array index s = arrayFirst m array index s) :
    operands m array index s = arrayFirst m array index s := by
  unfold operands
  split
  · rename_i hlate
    obtain ⟨harray, hindex⟩ := (Bool.and_eq_true ..).mp hlate
    exact h harray ((Bool.not_eq_true' _).mp hindex)
  · rfl

/-- Loads one element, evaluates a value and stores the result in an element. -/
def changeElement (m : Java.Machine ops) (op : ArithOp) (value : Java.Expr) (array index array' index' : V) :
    Eval σ V V := do
  let old ← Eval.read (ops.element array' index')
  let v ← m.eval value
  let new ← Eval.read (ops.binary (.arith op) old v)
  ops.setElement array index new

/-- An update of an element, from the operands on. -/
def updateElement (m : Java.Machine ops) (op : ArithOp) (value : Java.Expr) (operands : V × V) :
    Eval σ V V :=
  changeElement m op value operands.1 operands.2 operands.1 operands.2

theorem eval_compound {target array index : Java.Expr}
    (htarget : target.unparenthesized = .index array index) (op : ArithOp) (value : Java.Expr) :
    m.eval (.assign target (.compound op) value) =
      arrayFirst m array index >>= updateElement m op value := by
  rw [Java.Machine.eval, ← m.place_unparenthesized, htarget]
  simp [arrayFirst, updateElement, changeElement, Operations.assign, Operations.elementRef]

/-- Each operand is in effect evaluated once: what the written form reads a second time is the same
again. -/
theorem eval_update {array index value : Java.Expr} {written : Ceylon.Expr}
    (harray : ∀ k temps, c.eval (expr env array scope) k temps = m.eval array)
    (hindex : ∀ k temps, c.eval (expr env index scope) k temps = m.eval index)
    (hvalue : ∀ k temps, c.eval written k temps = m.eval value) {el : Element}
    (hel : el = elementAt env scope array index) (op : ArithOp) (k : Nat) (temps : List (Temp V)) :
    c.eval (.update el.arraySlot el.indexSlot op written) k temps =
      operands m array index >>= updateElement m op value := by
  have htarget : ∀ k temps, c.eval el.target k temps = m.eval array := by
    intro k temps
    rw [hel, Element.target, eval_grouped, harray]
  have hel_index : ∀ k temps, c.eval el.index k temps = m.eval index := by
    intro k temps
    rw [hel, hindex]
  have hel_array : ∀ k temps, c.eval el.array k temps = m.eval array := by
    intro k temps
    rw [hel, harray]
  cases ha : isPure array with
  | true =>
    have harraySlot := Element.arraySlot_of_pure (hel ▸ ha : el.arrayPure = true)
    have hread := m.isRead_eval array ha
    cases hi : isPure index with
    | true =>
      have hindexSlot := Element.indexSlot_of_pure (hel ▸ hi : el.indexPure = true)
      calc c.eval (.update el.arraySlot el.indexSlot op written) k temps
        _ = (do
            let a ← m.eval array
            let i ← m.eval index
            let a' ← m.eval array
            let i' ← m.eval index
            changeElement m op value a i a' i') := by
          simp [harraySlot, hindexSlot, htarget, hel_index, hvalue, changeElement]
        _ = (do
            let a ← m.eval array
            let i ← m.eval index
            let i' ← m.eval index
            changeElement m op value a i a i') := hread.twice_around (m.isRead_eval index hi) _
        _ = operands m array index >>= updateElement m op value := by
          simp [(m.isRead_eval index hi).twice, operands, arrayFirst, updateElement, hi]
    | false =>
      have hindexSlot := Element.indexSlot_of_impure (hel ▸ hi : el.indexPure = false)
      calc c.eval (.update el.arraySlot el.indexSlot op written) k temps
        _ = (do
            let i ← m.eval index
            let a ← m.eval array
            let a' ← m.eval array
            changeElement m op value a i a' i) := by
          simp [harraySlot, hindexSlot, htarget, hel_index, hvalue, changeElement,
            c.evalName_of_lookup (Temp.lookup_self ..)]
        _ = operands m array index >>= updateElement m op value := by
          simp [hread.twice, operands, indexFirst, updateElement, ha, hi]
  | false =>
    have harraySlot := Element.arraySlot_of_impure (hel ▸ ha : el.arrayPure = false)
    cases hi : isPure index with
    | true =>
      have hindexSlot := Element.indexSlot_of_pure (hel ▸ hi : el.indexPure = true)
      calc c.eval (.update el.arraySlot el.indexSlot op written) k temps
        _ = (do
            let a ← m.eval array
            let i ← m.eval index
            let i' ← m.eval index
            changeElement m op value a i a i') := by
          simp [harraySlot, hindexSlot, hel_array, hel_index, hvalue, changeElement,
            c.evalName_of_lookup (Temp.lookup_self ..)]
        _ = operands m array index >>= updateElement m op value := by
          simp [(m.isRead_eval index hi).twice, operands, arrayFirst, updateElement, ha]
    | false =>
      have hindexSlot := Element.indexSlot_of_impure (hel ▸ hi : el.indexPure = false)
      simp [harraySlot, hindexSlot, hel_array, hel_index, hvalue, operands, arrayFirst, updateElement,
        changeElement, ha, c.evalName_of_lookup (Temp.lookup_self ..),
        c.evalName_of_lookup (Temp.lookup_array ..)]

/-! ## Whole expressions -/

attribute [local simp] expr

theorem expr_call_of_not_print {target : Option Java.Expr} {name : String} (h : isPrint target name = false)
    (typeArgs : List Java.TypeRef) (args : List Java.Expr) :
    expr env (.call target typeArgs name args) scope =
      match propertyOf env.config name args with
      | some property =>
        match callTarget env target scope with
        | none => .name (Ceylon.Name.small property)
        | some owner => .property owner (Ceylon.Name.small property)
      | none =>
        .call (callTarget env target scope) (Ceylon.Name.small name) (typeArgs.map typeRef)
          (exprs env args scope) := by
  rw [expr]
  exact if_neg (Bool.eq_false_iff.mp h)

theorem expr_set {target : Java.Expr} {el : Element} (hel : element env target scope = some el)
    (value : Java.Expr) : expr env (.assign target .plain value) scope =
      .set el.target el.index (expr env value scope) := by
  simp [hel]

theorem expr_update {target : Java.Expr} {el : Element} (hel : element env target scope = some el)
    (op : ArithOp) (value : Java.Expr) : expr env (.assign target (.compound op) value) scope =
      .update el.arraySlot el.indexSlot op
        (grouped (value.precedence < op.precedence + 1) (expr env value scope)) := by
  simp [hel]

theorem eval_expr_update {target array index value : Java.Expr}
    (htarget : target.unparenthesized = .index array index)
    (harray : Agrees env scope m c .value array) (hindex : Agrees env scope m c .value index)
    (hvalue : Agrees env scope m c .value value) (op : ArithOp) (k : Nat) (temps : List (Temp V)) :
    c.eval (expr env (.assign target (.compound op) value) scope) k temps =
      operands m array index >>= updateElement m op value := by
  have hgrouped : ∀ k temps, c.eval (grouped (value.precedence < op.precedence + 1)
      (expr env value scope)) k temps = m.eval value := by
    intro k temps
    rw [eval_grouped, hvalue.1]
  rw [expr_update (element_of_unparenthesized target htarget),
    eval_update harray.1 hindex.1 hgrouped rfl]

/-- Whether it is written in front or behind, a step is a step. -/
theorem eval_step {op : Java.UnaryOp} (hop : op.isIncrement = true) {operand : Java.Expr}
    (hplace : Agrees env scope m c .place operand) (k : Nat) (temps : List (Temp V)) :
    c.eval (expr env (.unary op operand) scope) k temps = m.eval (.unary op operand) := by
  have hplace : ∀ k temps, c.place (expr env operand scope) k temps = m.place operand := hplace
  cases op with
  | plus | minus | not | complement => cases hop
  | preIncrement | preDecrement | postIncrement | postDecrement =>
    simp [Java.UnaryOp.isIncrement, hplace]

theorem eval_unary {op : Java.UnaryOp} (hop : op.isIncrement = false)
    (hnot : op = .complement → ∀ v, c.member v "not" = .read (ops.unary .complement v))
    {operand : Java.Expr} (hvalue : ∀ k temps, c.eval (expr env operand scope) k temps = m.eval operand)
    (k : Nat) (temps : List (Temp V)) :
    c.eval (expr env (.unary op operand) scope) k temps = m.eval (.unary op operand) := by
  cases op with
  | preIncrement | preDecrement | postIncrement | postDecrement => cases hop
  | complement => simp [Java.UnaryOp.isIncrement, hvalue, hnot]
  | plus | minus | not => simp [Java.UnaryOp.isIncrement, hvalue]

/-- A comparison with `null` is a test for existence. -/
theorem eval_nullTest {op : Java.BinaryOp} {left right : Java.Expr} (hnull : isNullTest op right = true) :
    m.eval (.binary left op right) = (do
      let v ← m.eval left
      Eval.read (ops.binary (if op == .ne then .ne else .eq) v (ops.literal .null))) := by
  obtain ⟨hop, hright⟩ := (Bool.and_eq_true ..).mp hnull
  have hvalue : m.eval right = pure (ops.literal .null) := by
    rw [← m.eval_unparenthesized]
    cases h : right.unparenthesized with
    | literal value =>
      cases value with
      | null => rfl
      | _ => simp [h, Java.Expr.isNull] at hright
    | _ => simp [h, Java.Expr.isNull] at hright
  cases op with
  | eq | ne => simp [Operations.combine, hvalue]
  | _ => simp at hop

theorem eval_binary {op : Java.BinaryOp} {left right : Java.Expr}
    (hleft : ∀ k temps, c.eval (expr env left scope) k temps = m.eval left)
    (hright : ∀ k temps, c.eval (expr env right scope) k temps = m.eval right) (k : Nat)
    (temps : List (Temp V)) :
    c.eval (expr env (.binary left op right) scope) k temps = m.eval (.binary left op right) := by
  cases hnull : isNullTest op right with
  | true =>
    rw [eval_nullTest hnull]
    simp [hnull, hleft]
  | false => simp [hnull, hleft, hright]

theorem agrees_binary {op : Java.BinaryOp} {left right : Java.Expr}
    (hl : Agrees env scope m c .value left) (hr : Agrees env scope m c .value right) :
    Agrees env scope m c .value (.binary left op right) := by
  have heval : ∀ k temps, c.eval (expr env (.binary left op right) scope) k temps =
      m.eval (.binary left op right) := eval_binary hl.1 hr.1
  cases op with
  | and =>
    refine ⟨heval, fun k temps => ?_⟩
    rw [conditions, c.test_append, hl.2, hr.2, Java.Machine.eval, Operations.combine]
    simp only [bind_assoc, pure_bind]
    congr 1
    funext v
    cases htruth : ops.truth v <;> simp [htruth]
  | _ => exact agrees_of_holds (fun _ => rfl) heval

/-- A type test is a condition of its own. -/
theorem agrees_instanceOf {operand : Java.Expr} {ty : Java.TypeRef}
    (hty : ∀ v, c.isType v (typeRef ty) = m.instanceOf v ty)
    (h : ∀ k temps, c.eval (expr env operand scope) k temps = m.eval operand) :
    Agrees env scope m c .value (.instanceOf operand ty) := by
  constructor
  · intro k temps
    simp [h, hty]
  · intro k temps
    rw [conditions, Ceylon.Machine.test, h, Java.Machine.eval]
    simp only [hty, bind_assoc]
    congr 1
    funext v
    congr 1
    funext r
    cases ops.truth r <;> rfl

/-- A cast that keeps what it gets does nothing. -/
theorem eval_cast {operand : Java.Expr} {ty : Java.TypeRef}
    (h : ∀ s v s', m.eval operand s = .ok v s' → m.cast ty v s' = .ok v) :
    m.eval (.cast ty operand) = m.eval operand := by
  funext s
  rw [Java.Machine.eval]
  cases hs : m.eval operand s with
  | ok v s' => rw [Eval.bind_of_ok hs, Eval.read, h s v s' hs]
  | error v s' => rw [Eval.bind_of_error hs]

/-- The written form of an expression does what the expression does. -/
theorem SameMeaning.agrees {use : Use} {e : Java.Expr} (h : SameMeaning env scope m c use e) :
    Agrees env scope m c use e := by
  induction h with
  | literal value => exact agrees_of_holds (fun _ => rfl) fun _ _ => rfl
  | name hfree hname =>
    refine agrees_of_holds (fun _ => rfl) fun k temps => ?_
    rw [expr, Ceylon.Machine.eval, c.evalName_of_free hfree, hname, Java.Machine.eval]
  | namePlace hfree hname hset =>
    intro k temps
    rw [expr, Ceylon.Machine.place, Temp.lookup_eq_none hfree, hname, hset, Java.Machine.place]
  | thisRef | superRef => exact agrees_of_holds (fun _ => rfl) fun _ _ => rfl
  | @paren use inner _ ih =>
    cases use with
    | value => exact agrees_of_holds (fun _ => rfl) ih.1
    | place => exact ih
  | field hfield _ ih =>
    refine agrees_of_holds (fun _ => rfl) fun k temps => ?_
    simp [ih.1, hfield]
  | fieldPlace hfield hset _ ih =>
    intro k temps
    simp [ih.1, hfield, hset]
  | @call target typeArgs name args hprint hproperty hcall _ _ iht iha =>
    refine agrees_of_holds (fun _ => rfl) fun k temps => ?_
    rw [expr_call_of_not_print hprint, hproperty]
    simp [evalOption_callTarget iht, evalList_exprs iha, hcall]
  | @print target typeArgs args console hout hconsole hprint _ iha =>
    refine agrees_of_holds (fun _ => rfl) fun k temps => ?_
    simp [hout, evalList_exprs iha, hprint, hconsole]
  | ownProperty hproperty hfree hname =>
    refine agrees_of_holds (fun _ => rfl) fun k temps => ?_
    simp [hproperty, callTarget, c.evalName_of_free hfree, hname]
  | property hprint hproperty hmember _ ih =>
    refine agrees_of_holds (fun _ => rfl) fun k temps => ?_
    rw [expr_call_of_not_print hprint, hproperty]
    simp [callTarget, ih.1, hmember]
  | create hmake _ ih | createArray hmake _ ih | object hmake _ ih =>
    refine agrees_of_holds (fun _ => rfl) fun k temps => ?_
    simp [evalList_exprs ih, hmake]
  | arrayOf _ ih | arrayInit _ ih =>
    refine agrees_of_holds (fun _ => rfl) fun k temps => ?_
    simp [evalList_exprs ih]
  | @index use array index _ _ iha ihi =>
    cases use with
    | value =>
      refine agrees_of_holds (fun _ => rfl) fun k temps => ?_
      simp [iha.1, ihi.1]
    | place =>
      intro k temps
      simp [iha.1, ihi.1]
  | @assign target value op hop _ _ iht ihv =>
    have hplace : ∀ k temps, c.place (expr env target scope) k temps = m.place target := iht
    refine agrees_of_holds (fun _ => rfl) fun k temps => ?_
    cases hel : element env target scope with
    | none => simp [hel, hplace, ihv.1]
    | some el =>
      obtain rfl : op = .plain := hop.resolve_right (by simp [hel])
      rw [expr_set hel, eval_set, ← place_element k temps target hel, hplace, Java.Machine.eval]
      simp only [ihv.1]
  | @update target array index value op htarget horder _ _ _ iha ihi ihv =>
    have hoperands : operands m array index = arrayFirst m array index := by
      funext s
      exact operands_apply fun harray hindex => congrFun (horder harray hindex) s
    refine agrees_of_holds (fun _ => rfl) fun k temps => ?_
    rw [eval_expr_update htarget iha ihi ihv, eval_compound htarget, hoperands]
  | step hop _ ih => exact agrees_of_holds (fun _ => rfl) (eval_step hop ih)
  | unary hop hnot _ ih => exact agrees_of_holds (fun _ => rfl) (eval_unary hop hnot ih.1)
  | binary _ _ ihl ihr => exact agrees_binary ihl ihr
  | instanceOf hty _ ih => exact agrees_instanceOf hty ih.1
  | conditional _ _ _ ihc iht iho =>
    refine agrees_of_holds (fun _ => rfl) fun k temps => ?_
    simp [ihc.2, iht.1, iho.1]
  | cast hcast _ ih =>
    refine agrees_of_holds (fun _ => rfl) fun k temps => ?_
    rw [expr, eval_grouped, ih.1, eval_cast hcast]

/-! ## A store of whole numbers -/

/-- Variables and arrays of whole numbers; an array is a number too. -/
structure Memory where
  name : String → Int
  cell : Int → Int → Int

namespace Memory

def setName (name : String) (v : Int) : Eval Memory Int Int := fun s =>
  .ok v { s with name := fun n => if n = name then v else s.name n }

def setCell (array index v : Int) : Eval Memory Int Int := fun s =>
  .ok v { s with cell := fun a i => if a = array ∧ i = index then v else s.cell a i }

def digits (text : List Char) : Int := text.foldl (fun n d => 10 * n + (d.toNat - 48)) 0

/-- Numbers, addition and arrays. -/
def operations : Operations Memory Int where
  literal
    | .number text => digits text.toList
    | _ => 0
  self _ := .ok 0
  parent _ := .ok 0
  truth v := v != 0
  unary _ v _ := .ok v
  binary _ v w _ := .ok (v + w)
  element array index s := .ok (s.cell array index)
  setElement := setCell
  array _ := pure 0

/-- A call gives the variable of that name and adds one to it. -/
def count (name : String) : Eval Memory Int Int := do
  let v ← Eval.read fun s => .ok (s.name name)
  let _ ← setName name (v + 1)
  pure v

def java : Java.Machine operations where
  name name s := .ok (s.name name)
  field _ _ _ := .ok 0
  setName := setName
  setField _ _ v := pure v
  call _ _ name _ := count name
  create _ _ _ := pure 0
  createArray _ _ _ := pure 0
  instanceOf _ _ _ := .ok 0
  cast _ v _ := .ok v
  unassignable := 0

def ceylon : Ceylon.Machine operations where
  name name := .read fun s => .ok (s.name name)
  member _ _ := pure 0
  setName := setName
  setMember _ _ v := pure v
  call _ name _ _ := count name
  instantiate _ _ := pure 0
  object _ _ _ := pure 0
  isType _ _ _ := .ok 0
  unassignable := 0

theorem sameMeaning_name {name : String} (hshort : name.length < 5)
    (hword : Ceylon.Name.word name = name) : SameMeaning env scope java ceylon .value (.name name) :=
  .name (hword.symm ▸ Temp.free_of_length_lt hshort) (by rw [hword]; rfl)

end Memory

/-! ## Updates -/

/-- The order does not matter if the array has a value and the index leaves it as it was. -/
theorem indexFirst_eq_arrayFirst {array index : Java.Expr} {s : σ} {a : V}
    (ha : m.eval array s = .ok a s)
    (hkept : ∀ i s', m.eval index s = .ok i s' → m.eval array s' = .ok a s') :
    indexFirst m array index s = arrayFirst m array index s := by
  rw [indexFirst, arrayFirst, Eval.bind_of_ok ha]
  cases hi : m.eval index s with
  | ok i s' => rw [Eval.bind_of_ok hi, Eval.bind_of_ok hi, Eval.bind_of_ok (hkept i s' hi)]
  | error v s' => rw [Eval.bind_of_error hi, Eval.bind_of_error hi]

theorem effects_update {target array index value : Java.Expr}
    (htarget : target.unparenthesized = .index array index) (op : ArithOp) (k : Nat)
    (temps : List (Temp V)) :
    (stmt env (.expr (.assign target (.compound op) value)) scope).map (c.effect · k temps) =
      [some do
        let _ ← c.eval (expr env (.assign target (.compound op) value) scope) k temps
        pure ()] := by
  have hel : element env target scope = some _ := element_of_unparenthesized target htarget
  simp only [stmt, exprStmt, hel, expr_update hel, List.map_cons, List.map_nil, Ceylon.Machine.effect]

/-- What an update is written as: operands with side effects are bound, then the element is set. -/
def writtenUpdate (env : Env) (scope : Scope) (array index : Java.Expr) (op : ArithOp)
    (value : Java.Expr) (k : Nat) : Ceylon.UpdateForm :=
  let el := elementAt env scope array index
  Ceylon.updateForm el.arraySlot el.indexSlot op
    (grouped (value.precedence < op.precedence + 1) (expr env value scope)) k

theorem unnumbered_arraySlot (env : Env) (scope : Scope) (array index : Java.Expr) :
    (elementAt env scope array index).arraySlot.Unnumbered := by
  cases hpure : isPure array with
  | true =>
    rw [Element.arraySlot_of_pure hpure]
    exact unnumbered_grouped (unnumbered_expr array scope hpure) _
  | false =>
    rw [Element.arraySlot_of_impure hpure]
    trivial

theorem unnumbered_indexSlot (env : Env) (scope : Scope) (array index : Java.Expr) :
    (elementAt env scope array index).indexSlot.Unnumbered := by
  cases hpure : isPure index with
  | true =>
    rw [Element.indexSlot_of_pure hpure]
    exact unnumbered_expr index scope hpure
  | false =>
    rw [Element.indexSlot_of_impure hpure]
    trivial

theorem sameText_writtenUpdate (env : Env) (scope : Scope) {target array index : Java.Expr}
    (htarget : target.unparenthesized = .index array index) (op : ArithOp) (value : Java.Expr)
    (k : Nat) :
    let update : Java.Expr := .assign target (.compound op) value
    let form := writtenUpdate env scope array index op value k
    Piece.SameText ((expr env update scope).pieces k) (form.inlinePieces k) ∧
      Piece.SameText (Ceylon.Stmt.piecesList (stmt env (.expr update) scope) k)
        (form.linePieces k) := by
  intro update form
  have hel := @element_of_unparenthesized env scope array index target htarget
  have harray := unnumbered_arraySlot env scope array index
  have hindex := unnumbered_indexSlot env scope array index
  constructor
  · rw [expr_update hel]
    exact Ceylon.sameText_update op _ k harray hindex
  · simp only [update, stmt, exprStmt, hel, Ceylon.Stmt.piecesList, List.append_nil]
    exact Ceylon.sameText_updateLines op _ k harray hindex

/-- The written form is evaluated as the update is. -/
theorem eval_writtenUpdate {target array index : Java.Expr}
    (htarget : target.unparenthesized = .index array index)
    (harray : Agrees env scope m c .value array) (hindex : Agrees env scope m c .value index)
    (op : ArithOp) (value : Java.Expr) (k : Nat) (temps : List (Temp V)) :
    c.eval (expr env (.assign target (.compound op) value) scope) k temps =
      (writtenUpdate env scope array index op value k).eval c k temps := by
  have hdirect : ∀ e, (elementAt env scope array index).arraySlot = .direct e →
      ∀ k k' temps, c.eval e k temps = c.eval e k' temps := by
    intro e he k k' temps
    cases hpure : isPure array with
    | true =>
      rw [Element.arraySlot_of_pure hpure] at he
      cases he
      rw [Element.target, eval_grouped, eval_grouped, harray.1, harray.1]
    | false =>
      rw [Element.arraySlot_of_impure hpure] at he
      cases he
  have hdirect' : ∀ e, (elementAt env scope array index).indexSlot = .direct e →
      ∀ k k' temps, c.eval e k temps = c.eval e k' temps := by
    intro e he k k' temps
    cases hpure : isPure index with
    | true =>
      rw [Element.indexSlot_of_pure hpure] at he
      cases he
      rw [hindex.1, hindex.1]
    | false =>
      rw [Element.indexSlot_of_impure hpure] at he
      cases he
  rw [expr_update (element_of_unparenthesized target htarget)]
  exact c.eval_update_eq (unnumbered_arraySlot env scope array index)
    (unnumbered_indexSlot env scope array index) hdirect hdirect' op _ k temps

/-- As an expression and as a statement, an update has the text of its written form, and does what that
does. It evaluates its two operands, then loads the element, evaluates the value and stores the result.
An array without side effects comes after an index that has some. Where the order of these two makes no
difference, the update does what it did. -/
theorem element_update_order {target array index value : Java.Expr}
    (htarget : target.unparenthesized = .index array index)
    (harray : SameMeaning env scope m c .value array)
    (hindex : SameMeaning env scope m c .value index)
    (hvalue : SameMeaning env scope m c .value value) (op : ArithOp) (k : Nat)
    (temps : List (Temp V)) :
    let update : Java.Expr := .assign target (.compound op) value
    let form := writtenUpdate env scope array index op value k
    let run := operands m array index >>= updateElement m op value
    Piece.SameText ((expr env update scope).pieces k) (form.inlinePieces k) ∧
      Piece.SameText (Ceylon.Stmt.piecesList (stmt env (.expr update) scope) k)
        (form.linePieces k) ∧
      form.eval c k temps = run ∧
      c.eval (expr env update scope) k temps = run ∧
      (stmt env (.expr update) scope).map (c.effect · k temps) =
        [some do
          let _ ← run
          pure ()] ∧
      ∀ s, (isPure array = true → isPure index = false →
          indexFirst m array index s = arrayFirst m array index s) →
        run s = m.eval update s := by
  intro update form run
  obtain ⟨hinline, hlines⟩ := sameText_writtenUpdate env scope htarget op value k
  have hwritten := eval_expr_update htarget harray.agrees hindex.agrees hvalue.agrees op k temps
  have hform := eval_writtenUpdate htarget harray.agrees hindex.agrees op value k temps
  refine ⟨hinline, hlines, hform.symm.trans hwritten, hwritten, ?_, fun s horder => ?_⟩
  · rw [effects_update htarget, hwritten]
  · rw [eval_compound htarget]
    exact Eval.bind_apply_congr (operands_apply horder) _

theorem element_update_order_call :
    let env : Env := ⟨.default, fun _ _ => []⟩
    let array : Java.Expr := .name "a"
    let index : Java.Expr := .call none [] "next" []
    let update : Java.Expr := .assign (.index array index) (.compound .add) (.literal (.number "1"))
    let s : Memory := ⟨fun _ => 0, fun _ _ => 0⟩
    isPure array = true ∧ isPure index = false ∧
      indexFirst Memory.java array index s = arrayFirst Memory.java array index s ∧
      Piece.render ((expr env update []).pieces 0) =
        "let (index0 = next()) a.set(index0, a.get(index0) + 1)" ∧
      Piece.render (Ceylon.Stmt.piecesList (stmt env (.expr update) []) 0) =
        "value index0 = next();\na.set(index0, a.get(index0) + 1);\n" ∧
      (writtenUpdate env [] array index .add (.literal (.number "1")) 0).eval Memory.ceylon 0 [] s =
        Memory.java.eval update s ∧
      Memory.ceylon.eval (expr env update []) 0 [] s = Memory.java.eval update s := by
  intro env array index update s
  have harray : SameMeaning env [] Memory.java Memory.ceylon .value array :=
    Memory.sameMeaning_name (by decide) (by decide)
  have hindex : SameMeaning env [] Memory.java Memory.ceylon .value index :=
    .call rfl rfl (fun _ _ => rfl) (fun _ h => by cases h) (fun _ h => by cases h)
  have htarget : (Java.Expr.index array index).unparenthesized = .index array index := rfl
  have horder : indexFirst Memory.java array index s = arrayFirst Memory.java array index s :=
    indexFirst_eq_arrayFirst rfl fun i s' h => by cases h; rfl
  have hvalue : SameMeaning env [] Memory.java Memory.ceylon .value (.literal (.number "1")) :=
    .literal _
  obtain ⟨-, -, hform, hwritten, -, hsame⟩ := element_update_order htarget harray hindex hvalue .add 0 []
  have hrun := hsame s fun _ _ => horder
  exact ⟨rfl, rfl, horder, by decide, by decide, (congrFun hform s).trans hrun,
    (congrFun hwritten s).trans hrun⟩

/-- In `a[(a = b)[3]] += 1` the index changes the array: the element of another array is updated. -/
theorem element_update_reordered :
    let env : Env := ⟨.default, fun _ _ => []⟩
    let array : Java.Expr := .name "a"
    let index : Java.Expr :=
      .index (.paren (.assign (.name "a") .plain (.name "b"))) (.literal (.number "3"))
    let update : Java.Expr := .assign (.index array index) (.compound .add) (.literal (.number "1"))
    let s : Memory := ⟨fun n => if n = "b" then 1 else 0, fun _ i => i - 1⟩
    SameMeaning env [] Memory.java Memory.ceylon .value array ∧
      SameMeaning env [] Memory.java Memory.ceylon .value index ∧
      Piece.render ((expr env update []).pieces 0) =
        "let (index0 = (a = b).get(3)) a.set(index0, a.get(index0) + 1)" ∧
      Piece.render (Ceylon.Stmt.piecesList (stmt env (.expr update) []) 0) =
        "value index0 = (a = b).get(3);\na.set(index0, a.get(index0) + 1);\n" ∧
      ((Memory.java.eval update).after s).cell 0 2 = 2 ∧
      ((Memory.ceylon.eval (expr env update []) 0 []).after s).cell 0 2 = 1 := by
  intro env array index update s
  have hname {name : String} (hshort : name.length < 5) (hword : Ceylon.Name.word name = name) :
      SameMeaning env [] Memory.java Memory.ceylon .value (.name name) :=
    Memory.sameMeaning_name hshort hword
  have hplace : SameMeaning env [] Memory.java Memory.ceylon .place (.name "a") :=
    .namePlace (Temp.free_of_length_lt (by decide)) rfl rfl
  have harray : SameMeaning env [] Memory.java Memory.ceylon .value array :=
    hname (by decide) (by decide)
  have hindex : SameMeaning env [] Memory.java Memory.ceylon .value index :=
    .index (.paren (.assign (.inl rfl) hplace (hname (by decide) (by decide)))) (.literal _)
  have htarget : (Java.Expr.index array index).unparenthesized = .index array index := rfl
  refine ⟨harray, hindex, by decide, by decide, rfl, ?_⟩
  rw [eval_expr_update htarget harray.agrees hindex.agrees (SameMeaning.literal _).agrees]
  rfl

end CeylonFromJava.Conversion
