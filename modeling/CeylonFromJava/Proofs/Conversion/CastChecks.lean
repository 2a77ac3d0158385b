import CeylonFromJava.Proofs.Conversion.ExprContext
import CeylonFromJava.Proofs.Conversion.TracedTrees

/-! Where the check of a cast goes.

A local value that starts with a cast is asserted to have the type, unless an `if` around it asks
for the type. What an `if` asks is read off its condition: the operands of the `&&` chain, each of
which is an item of the condition list that is written. -/
namespace CeylonFromJava.Conversion
set_option autoImplicit false

/-! ## What a condition asks -/

/-- Whether one of the items is the test that `operand` is a `ty`. -/
def asks (operand : Java.Expr) (ty : Java.TypeRef) (cond : Java.Expr) : Bool :=
  (conjuncts cond).any fun
    | .instanceOf e t => t == ty && e.sameStructure operand
    | _ => false

/-- The tests that narrow are those among the items. -/
theorem any_ofCondition (operand : Java.Expr) (ty : Java.TypeRef) (cond : Java.Expr) :
    (Narrowing.ofCondition cond).any (·.proves operand ty) = asks operand ty cond := by
  unfold asks
  fun_induction conjuncts cond with
  | case1 left right ihl ihr => rw [Narrowing.ofCondition, List.any_append, List.any_append, ihl,
      ihr]
  | case2 e h =>
    cases e with
    | instanceOf e t => rfl
    | binary left op right =>
      cases op with
      | and => exact absurd rfl (h left right)
      | _ => rfl
    | _ => rfl

/-- A local value, and the conditions of the `if` statements that hold it in their first branch. -/
structure WrittenLocal where
  branches : List Java.Expr
  ty : Java.TypeRef
  name : String
  init : Option Java.Expr

/-- What holds inside. -/
def Surround.conditions : Surround → List Java.Expr
  | .branch cond => [cond]
  | .otherwise | .loop _ => []

mutual
def Region.locals : Region → List Java.Expr → List WrittenLocal
  | .declare ty name init, conds => [⟨conds, ty, name, init⟩]
  | .jump, _ => []
  | .inside around parts, conds => Region.localsList parts (around.conditions ++ conds)

def Region.localsList : List Region → List Java.Expr → List WrittenLocal
  | [], _ => []
  | r :: rs, conds => r.locals conds ++ Region.localsList rs conds
end

namespace WrittenLocal

/-- Whether the value is a cast to a type that no branch around it has asked for. -/
def isChecked (l : WrittenLocal) : Bool :=
  match l.init.map Java.Expr.unparenthesized with
  | some (.cast ty operand) => !l.branches.any (asks operand ty)
  | _ => false

def written (l : WrittenLocal) : Ceylon.Local :=
  ⟨typeRef l.ty, Ceylon.Name.small l.name, l.isChecked⟩

end WrittenLocal

/-! ## Tails without anonymous classes -/

instance : (t : LoopTail) → Decidable t.Plain
  | .native => .isTrue trivial
  | .update es => inferInstanceAs (Decidable (Java.Expr.hasBodyList es = false))
  | .guard cond => inferInstanceAs (Decidable (cond.hasBody = false))

def Surround.plain : Surround → Bool
  | .branch _ | .otherwise => true
  | .loop t => decide t.Plain

mutual
def Region.plain : Region → Bool
  | .declare _ _ _ | .jump => true
  | .inside around parts => around.plain && Region.plainList parts

def Region.plainList : List Region → Bool
  | [] => true
  | r :: rs => r.plain && Region.plainList rs
end

/-- Tails without anonymous classes are repeated without local values. -/
def Env.Quiet (env : Env) : Prop :=
  ∀ scope t, LoopTail.Plain t → Ceylon.Stmt.localsList (env.repeatTail scope t) = []

/-- The frames stand for the branches around: the same tests hold, and no loop around repeats an
anonymous class. -/
structure Around (scope : Scope) (conds : List Java.Expr) : Prop where
  tests : ∀ operand ty, scope.narrows operand ty = conds.any (asks operand ty)
  tail : ∀ t, scope.loopTail? = some t → LoopTail.Plain t

section

variable {env : Env} {scope : Scope} {conds : List Java.Expr}

theorem Around.inside (h : Around scope conds) {around : Surround} (hplain : around.plain = true) :
    Around (around.frame :: scope) (around.conditions ++ conds) := by
  constructor
  · intro operand ty
    have htests := h.tests operand ty
    cases around with
    | branch cond =>
      have hframe : (Surround.branch cond).frame.proves operand ty = asks operand ty cond :=
        any_ofCondition operand ty cond
      rw [Scope.narrows, List.any_cons, hframe]
      exact congrArg (asks operand ty cond || ·) htests
    | otherwise => exact htests
    | loop _ => exact htests
  · intro t ht
    cases around with
    | branch _ => exact h.tail t ht
    | otherwise => exact h.tail t ht
    | loop t' =>
      cases ht
      exact of_decide_eq_true hplain

theorem Around.localAt_eq (h : Around scope conds) (ty : Java.TypeRef) (name : String)
    (init : Option Java.Expr) :
    localAt scope ty name init = (⟨conds, ty, name, init⟩ : WrittenLocal).written := by
  have hasserted : init.any (isAsserted scope) =
      (⟨conds, ty, name, init⟩ : WrittenLocal).isChecked := by
    cases init with
    | none => rfl
    | some init =>
      simp only [Option.any_some, isAsserted, WrittenLocal.isChecked, Option.map_some]
      cases init.unparenthesized with
      | cast ty operand => exact congrArg (!·) (h.tests operand ty)
      | _ => rfl
  rw [localAt, hasserted]
  rfl

theorem Around.localsList_repeated (h : Around scope conds) (hquiet : env.Quiet) :
    Ceylon.Stmt.localsList (repeated env scope) = [] := by
  unfold repeated
  split
  · rfl
  · next t ht => exact hquiet scope t (h.tail t ht)

end

mutual
/-- A run meets the locals of the outline, in the form in which they are written. -/
theorem Region.traced_locals {env : Env} (hquiet : env.Quiet) : (r : Region) → {scope : Scope} →
    {conds : List Java.Expr} → Around scope conds → r.plain = true →
      Traced env scope [r] ((r.locals conds).map (·.written))
  | .declare ty name init, scope, _, h, _ => by
    rw [Region.locals, List.map_singleton, ← h.localAt_eq]
    exact .declare ty name init
  | .jump, _, _, h, _ => by
    rw [Region.locals, List.map_nil, ← h.localsList_repeated hquiet]
    exact .jump
  | .inside around parts, _, _, h, hplain => by
    rw [Region.plain, Bool.and_eq_true] at hplain
    exact .inside around (Region.traced_localsList hquiet parts (h.inside hplain.1) hplain.2)

theorem Region.traced_localsList {env : Env} (hquiet : env.Quiet) : (rs : List Region) →
    {scope : Scope} → {conds : List Java.Expr} → Around scope conds → Region.plainList rs = true →
      Traced env scope rs ((Region.localsList rs conds).map (·.written))
  | [], _, _, _, _ => .nil
  | r :: rs, _, _, h, hplain => by
    rw [Region.plainList, Bool.and_eq_true] at hplain
    rw [Region.localsList, List.map_append]
    exact (Region.traced_locals hquiet r h hplain.1).append
      (Region.traced_localsList hquiet rs h hplain.2)
end

/-! ## Units -/

end CeylonFromJava.Conversion
