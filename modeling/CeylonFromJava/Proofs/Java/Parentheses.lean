import CeylonFromJava.Java.SameStructure

/-! Expressions up to parentheses.

`withoutParens` takes all parentheses out of a tree. Two expressions denote the same operand exactly if
they are the same without parentheses and nothing in them makes something new or assigns. -/
namespace CeylonFromJava.Java
set_option autoImplicit false

/-! ## Taking parentheses out -/

mutual
/-- The expression without its parentheses, those inside anonymous classes included. -/
def Expr.withoutParens : Expr → Expr
  | .literal value => .literal value
  | .name name => .name name
  | .thisRef => .thisRef
  | .superRef => .superRef
  | .paren e => e.withoutParens
  | .field e name => .field e.withoutParens name
  | .call target typeArgs name args =>
    .call (Expr.withoutParensOption target) typeArgs name (Expr.withoutParensList args)
  | .create ty args body => .create ty (Expr.withoutParensList args) (Member.withoutParensBody body)
  | .createArray element dims extraDims init =>
    .createArray element (Expr.withoutParensList dims) extraDims (Expr.withoutParensElements init)
  | .arrayInit elements => .arrayInit (Expr.withoutParensList elements)
  | .index a b => .index a.withoutParens b.withoutParens
  | .assign a op b => .assign a.withoutParens op b.withoutParens
  | .unary op e => .unary op e.withoutParens
  | .binary a op b => .binary a.withoutParens op b.withoutParens
  | .instanceOf e ty => .instanceOf e.withoutParens ty
  | .conditional a b c => .conditional a.withoutParens b.withoutParens c.withoutParens
  | .cast ty e => .cast ty e.withoutParens

def Expr.withoutParensOption : Option Expr → Option Expr
  | none => none
  | some e => some e.withoutParens

def Expr.withoutParensList : List Expr → List Expr
  | [] => []
  | e :: es => e.withoutParens :: Expr.withoutParensList es

def Expr.withoutParensElements : Option (List Expr) → Option (List Expr)
  | none => none
  | some es => some (Expr.withoutParensList es)

def Declarator.withoutParensList : List Declarator → List Declarator
  | [] => []
  | ⟨name, init⟩ :: ds => ⟨name, Expr.withoutParensOption init⟩ :: Declarator.withoutParensList ds

def ForInit.withoutParens : Option ForInit → Option ForInit
  | none => none
  | some (.declare ⟨modifiers, ty, ds⟩) =>
    some (.declare ⟨modifiers, ty, Declarator.withoutParensList ds⟩)
  | some (.exprs es) => some (.exprs (Expr.withoutParensList es))

def SwitchLabel.withoutParensList : List SwitchLabel → List SwitchLabel
  | [] => []
  | .case e :: labels => .case e.withoutParens :: SwitchLabel.withoutParensList labels
  | .default :: labels => .default :: SwitchLabel.withoutParensList labels

def SwitchGroup.withoutParensList : List SwitchGroup → List SwitchGroup
  | [] => []
  | ⟨labels, body⟩ :: groups =>
    ⟨SwitchLabel.withoutParensList labels, Stmt.withoutParensList body⟩ ::
      SwitchGroup.withoutParensList groups

def Resource.withoutParensList : List Resource → List Resource
  | [] => []
  | ⟨ty, name, init⟩ :: rs => ⟨ty, name, init.withoutParens⟩ :: Resource.withoutParensList rs

def CatchClause.withoutParensList : List CatchClause → List CatchClause
  | [] => []
  | ⟨types, name, body⟩ :: cs =>
    ⟨types, name, Stmt.withoutParensList body⟩ :: CatchClause.withoutParensList cs

def Stmt.withoutParens : Stmt → Stmt
  | .block body => .block (Stmt.withoutParensList body)
  | .localVar ⟨modifiers, ty, ds⟩ => .localVar ⟨modifiers, ty, Declarator.withoutParensList ds⟩
  | .expr e => .expr e.withoutParens
  | .ifElse cond s otherwise =>
    .ifElse cond.withoutParens s.withoutParens (Stmt.withoutParensOption otherwise)
  | .whileLoop cond body => .whileLoop cond.withoutParens body.withoutParens
  | .doWhile body cond => .doWhile body.withoutParens cond.withoutParens
  | .forLoop init cond update body =>
    .forLoop (ForInit.withoutParens init) (Expr.withoutParensOption cond)
      (Expr.withoutParensList update) body.withoutParens
  | .forEach ty name iterable body =>
    .forEach ty name iterable.withoutParens body.withoutParens
  | .switch selector groups =>
    .switch selector.withoutParens (SwitchGroup.withoutParensList groups)
  | .breakTo label => .breakTo label
  | .continueTo label => .continueTo label
  | .labeled label body => .labeled label body.withoutParens
  | .synchronized lock body => .synchronized lock.withoutParens (Stmt.withoutParensList body)
  | .constructorCall target args => .constructorCall target (Expr.withoutParensList args)
  | .returnValue value => .returnValue (Expr.withoutParensOption value)
  | .throwValue value => .throwValue value.withoutParens
  | .tryCatch rs body cs last =>
    .tryCatch (Resource.withoutParensList rs) (Stmt.withoutParensList body)
      (CatchClause.withoutParensList cs) (Stmt.withoutParensBlock last)
  | .empty => .empty

def Stmt.withoutParensOption : Option Stmt → Option Stmt
  | none => none
  | some s => some s.withoutParens

def Stmt.withoutParensBlock : Option (List Stmt) → Option (List Stmt)
  | none => none
  | some body => some (Stmt.withoutParensList body)

def Stmt.withoutParensList : List Stmt → List Stmt
  | [] => []
  | s :: ss => s.withoutParens :: Stmt.withoutParensList ss

def Member.withoutParens : Member → Member
  | .field ⟨modifiers, ty, ds⟩ => .field ⟨modifiers, ty, Declarator.withoutParensList ds⟩
  | .method ⟨modifiers, typeParams, result, name, params, body⟩ =>
    .method ⟨modifiers, typeParams, result, name, params, Stmt.withoutParensBlock body⟩
  | .constructor ⟨modifiers, name, params, body⟩ =>
    .constructor ⟨modifiers, name, params, Stmt.withoutParensList body⟩
  | .type decl => .type decl.withoutParens
  | .initializer body => .initializer (Stmt.withoutParensList body)

def Member.withoutParensList : List Member → List Member
  | [] => []
  | m :: ms => m.withoutParens :: Member.withoutParensList ms

def Member.withoutParensBody : Option (List Member) → Option (List Member)
  | none => none
  | some ms => some (Member.withoutParensList ms)

def EnumConstant.withoutParensList : List EnumConstant → List EnumConstant
  | [] => []
  | ⟨name, args⟩ :: cs => ⟨name, Expr.withoutParensList args⟩ :: EnumConstant.withoutParensList cs

def TypeDecl.withoutParens : TypeDecl → TypeDecl
  | .ofClass ⟨modifiers, name, typeParams, superclass, interfaces, body⟩ =>
    .ofClass ⟨modifiers, name, typeParams, superclass, interfaces, Member.withoutParensList body⟩
  | .ofInterface ⟨modifiers, name, typeParams, extended, body⟩ =>
    .ofInterface ⟨modifiers, name, typeParams, extended, Member.withoutParensList body⟩
  | .ofEnum ⟨modifiers, name, interfaces, constants, body⟩ =>
    .ofEnum ⟨modifiers, name, interfaces, EnumConstant.withoutParensList constants,
      Member.withoutParensList body⟩
end

attribute [local simp] Expr.withoutParens Expr.withoutParensOption Expr.withoutParensList

/-! ## Expressions that can be repeated -/

mutual
/-- Whether no node of the expression is an assignment, a creation of an object or an array, or an array
initializer. -/
def Expr.isRepeatable : Expr → Bool
  | .literal _ | .name _ | .thisRef | .superRef => true
  | .paren e | .field e _ | .unary _ e | .instanceOf e _ | .cast _ e => e.isRepeatable
  | .call target _ _ args => Expr.isRepeatableOption target && Expr.isRepeatableList args
  | .index a b | .binary a _ b => a.isRepeatable && b.isRepeatable
  | .conditional a b c => a.isRepeatable && b.isRepeatable && c.isRepeatable
  | .create _ _ _ | .createArray _ _ _ _ | .arrayInit _ | .assign _ _ _ => false

def Expr.isRepeatableOption : Option Expr → Bool
  | none => true
  | some e => e.isRepeatable

def Expr.isRepeatableList : List Expr → Bool
  | [] => true
  | e :: es => e.isRepeatable && Expr.isRepeatableList es
end

attribute [local simp] Expr.isRepeatable Expr.isRepeatableOption Expr.isRepeatableList

mutual
@[simp] theorem Expr.isRepeatable_withoutParens : ∀ e : Expr,
    e.withoutParens.isRepeatable = e.isRepeatable
  | .literal _ | .name _ | .thisRef | .superRef => rfl
  | .create _ _ _ | .createArray _ _ _ _ | .arrayInit _ | .assign _ _ _ => rfl
  | .paren e | .field e _ | .unary _ e | .instanceOf e _ | .cast _ e =>
    Expr.isRepeatable_withoutParens e
  | .call target _ _ args => by
    simp [Expr.isRepeatableOption_withoutParens target, Expr.isRepeatableList_withoutParens args]
  | .index a b | .binary a _ b => by
    simp [Expr.isRepeatable_withoutParens a, Expr.isRepeatable_withoutParens b]
  | .conditional a b c => by
    simp [Expr.isRepeatable_withoutParens a, Expr.isRepeatable_withoutParens b,
      Expr.isRepeatable_withoutParens c]

theorem Expr.isRepeatableOption_withoutParens : ∀ e : Option Expr,
    Expr.isRepeatableOption (Expr.withoutParensOption e) = Expr.isRepeatableOption e
  | none => rfl
  | some e => Expr.isRepeatable_withoutParens e

theorem Expr.isRepeatableList_withoutParens : ∀ es : List Expr,
    Expr.isRepeatableList (Expr.withoutParensList es) = Expr.isRepeatableList es
  | [] => rfl
  | e :: es => by
    simp [Expr.isRepeatable_withoutParens e, Expr.isRepeatableList_withoutParens es]
end

/-! ## The same operand -/

theorem Expr.withoutParens_unparenthesized : ∀ e : Expr,
    e.unparenthesized.withoutParens = e.withoutParens
  | .paren inner => Expr.withoutParens_unparenthesized inner
  | .literal _ | .name _ | .thisRef | .superRef | .field _ _ | .call _ _ _ _ | .create _ _ _
  | .createArray _ _ _ _ | .arrayInit _ | .index _ _ | .assign _ _ _ | .unary _ _ | .binary _ _ _
  | .instanceOf _ _ | .conditional _ _ _ | .cast _ _ => rfl

theorem Expr.unparenthesized_ne_paren (inner : Expr) : ∀ e : Expr, e.unparenthesized ≠ .paren inner
  | .paren e => Expr.unparenthesized_ne_paren inner e
  | .literal _ | .name _ | .thisRef | .superRef | .field _ _ | .call _ _ _ _ | .create _ _ _
  | .createArray _ _ _ _ | .arrayInit _ | .index _ _ | .assign _ _ _ | .unary _ _ | .binary _ _ _
  | .instanceOf _ _ | .conditional _ _ _ | .cast _ _ => nofun

-- Only the case of `b` with the node of `a` is of interest: all others differ on both sides.
mutual
theorem Expr.sameStructure_iff : ∀ a b : Expr,
    a.sameStructure b = true ↔ a.withoutParens = b.withoutParens ∧ a.isRepeatable = true
  | .paren a, b => by
    rw [Expr.sameStructure]
    exact Expr.sameStructure_iff a b
  | .literal _, b | .name _, b | .thisRef, b | .superRef, b => by
    rw [Expr.sameStructure, ← b.withoutParens_unparenthesized]
    cases hb : b.unparenthesized with
    | paren inner => exact absurd hb (Expr.unparenthesized_ne_paren inner b)
    | _ => simp
  | .field a m, b => by
    rw [Expr.sameStructure, ← b.withoutParens_unparenthesized]
    cases hb : b.unparenthesized with
    | paren inner => exact absurd hb (Expr.unparenthesized_ne_paren inner b)
    | field a' n => simp [Expr.sameStructure_iff a a', and_assoc, and_left_comm]
    | _ => simp
  | .call target typeArgs m args, b => by
    rw [Expr.sameStructure, ← b.withoutParens_unparenthesized]
    cases hb : b.unparenthesized with
    | paren inner => exact absurd hb (Expr.unparenthesized_ne_paren inner b)
    | call target' typeArgs' n args' =>
      simp [Expr.sameOption_iff target target', Expr.sameList_iff args args']
      grind
    | _ => simp
  | .index a i, b => by
    rw [Expr.sameStructure, ← b.withoutParens_unparenthesized]
    cases hb : b.unparenthesized with
    | paren inner => exact absurd hb (Expr.unparenthesized_ne_paren inner b)
    | index a' j => simp [Expr.sameStructure_iff a a', Expr.sameStructure_iff i j]; grind
    | _ => simp
  | .unary op a, b => by
    rw [Expr.sameStructure, ← b.withoutParens_unparenthesized]
    cases hb : b.unparenthesized with
    | paren inner => exact absurd hb (Expr.unparenthesized_ne_paren inner b)
    | unary op' a' => simp [Expr.sameStructure_iff a a', and_assoc]
    | _ => simp
  | .binary l op r, b => by
    rw [Expr.sameStructure, ← b.withoutParens_unparenthesized]
    cases hb : b.unparenthesized with
    | paren inner => exact absurd hb (Expr.unparenthesized_ne_paren inner b)
    | binary l' op' r' => simp [Expr.sameStructure_iff l l', Expr.sameStructure_iff r r']; grind
    | _ => simp
  | .instanceOf a ty, b => by
    rw [Expr.sameStructure, ← b.withoutParens_unparenthesized]
    cases hb : b.unparenthesized with
    | paren inner => exact absurd hb (Expr.unparenthesized_ne_paren inner b)
    | instanceOf a' ty' => simp [Expr.sameStructure_iff a a', and_assoc, and_left_comm]
    | _ => simp
  | .cast ty a, b => by
    rw [Expr.sameStructure, ← b.withoutParens_unparenthesized]
    cases hb : b.unparenthesized with
    | paren inner => exact absurd hb (Expr.unparenthesized_ne_paren inner b)
    | cast ty' a' => simp [Expr.sameStructure_iff a a', and_assoc]
    | _ => simp
  | .conditional c t o, b => by
    rw [Expr.sameStructure, ← b.withoutParens_unparenthesized]
    cases hb : b.unparenthesized with
    | paren inner => exact absurd hb (Expr.unparenthesized_ne_paren inner b)
    | conditional c' t' o' =>
      simp [Expr.sameStructure_iff c c', Expr.sameStructure_iff t t', Expr.sameStructure_iff o o']
      grind
    | _ => simp
  | .create _ _ _, _ | .createArray _ _ _ _, _ | .arrayInit _, _ | .assign _ _ _, _ => by
    simp [Expr.sameStructure]

theorem Expr.sameOption_iff : ∀ a b : Option Expr,
    Expr.sameOption a b = true ↔
      Expr.withoutParensOption a = Expr.withoutParensOption b ∧ Expr.isRepeatableOption a = true
  | none, none | none, some _ | some _, none => by simp [Expr.sameOption]
  | some a, some b => by simp [Expr.sameOption, Expr.sameStructure_iff a b]

theorem Expr.sameList_iff : ∀ as bs : List Expr,
    Expr.sameList as bs = true ↔
      Expr.withoutParensList as = Expr.withoutParensList bs ∧ Expr.isRepeatableList as = true
  | [], [] | [], _ :: _ | _ :: _, [] => by simp [Expr.sameList]
  | a :: as, b :: bs => by
    simp [Expr.sameList, Expr.sameStructure_iff a b, Expr.sameList_iff as bs]
    grind
end

theorem Expr.isRepeatable_congr {a b : Expr} (h : a.withoutParens = b.withoutParens) :
    a.isRepeatable = b.isRepeatable := by
  rw [← a.isRepeatable_withoutParens, h, b.isRepeatable_withoutParens]

theorem Expr.sameStructure_congr {a a' b b' : Expr} (ha : a.withoutParens = a'.withoutParens)
    (hb : b.withoutParens = b'.withoutParens) : a.sameStructure b = a'.sameStructure b' := by
  rw [Bool.eq_iff_iff, Expr.sameStructure_iff, Expr.sameStructure_iff, ha, hb,
    Expr.isRepeatable_congr ha]

theorem Expr.sameStructure_comm (a b : Expr) : a.sameStructure b = b.sameStructure a := by
  rw [Bool.eq_iff_iff, Expr.sameStructure_iff, Expr.sameStructure_iff]
  constructor
  · rintro ⟨h, ha⟩
    exact ⟨h.symm, Expr.isRepeatable_congr h ▸ ha⟩
  · rintro ⟨h, hb⟩
    exact ⟨h.symm, Expr.isRepeatable_congr h ▸ hb⟩

/-- Denoting the same operand is equality up to parentheses, on expressions that can be repeated. So it
is symmetric and transitive, does not see parentheses, and relates to itself what can be repeated. -/
theorem Expr.sameStructure_up_to_parens :
    (∀ a b : Expr, a.sameStructure b = true ↔
      a.withoutParens = b.withoutParens ∧ a.withoutParens.isRepeatable = true) ∧
    (∀ a b : Expr, a.sameStructure b = true → b.sameStructure a = true) ∧
    (∀ a b c : Expr, a.sameStructure b = true → b.sameStructure c = true →
      a.sameStructure c = true) ∧
    (∀ a a' b b' : Expr, a.withoutParens = a'.withoutParens → b.withoutParens = b'.withoutParens →
      a.sameStructure b = a'.sameStructure b') ∧
    (∀ a : Expr, a.sameStructure a = true ↔ a.isRepeatable = true) := by
  refine ⟨fun a b => ?_, fun a b h => ?_, fun a b c hab hbc => ?_, fun a a' b b' => ?_, fun a => ?_⟩
  · rw [Expr.isRepeatable_withoutParens]
    exact Expr.sameStructure_iff a b
  · rw [Expr.sameStructure_comm]
    exact h
  · rw [Expr.sameStructure_iff] at hab hbc ⊢
    exact ⟨hab.1.trans hbc.1, hab.2⟩
  · exact Expr.sameStructure_congr
  · rw [Expr.sameStructure_iff]
    simp

/-- `x.f(y)[i]` with parentheses in three ways, and with an assignment in it. -/
theorem Expr.sameStructure_up_to_parens_call :
    let call : Expr → Expr → Expr → Expr := fun x y i => .index (.call (some x) [] "f" [y]) i
    let a := call (.name "x") (.paren (.name "y")) (.name "i")
    let b := Expr.paren (call (.paren (.paren (.name "x"))) (.name "y") (.name "i"))
    let c := call (.name "x") (.name "y") (.paren (.name "i"))
    let d := call (.name "x") (.name "y") (.assign (.name "i") .plain (.name "j"))
    a.sameStructure b = true ∧ b.sameStructure a = true ∧ b.sameStructure c = true ∧
      a.sameStructure c = true ∧ a.sameStructure (.paren c) = b.sameStructure a ∧
      d.sameStructure d = false := by
  intro call a b c d
  obtain ⟨hiff, hsymm, htrans, hparens, hself⟩ := Expr.sameStructure_up_to_parens
  have hab : a.sameStructure b = true := (hiff a b).mpr ⟨rfl, rfl⟩
  have hbc : b.sameStructure c = true := (hiff b c).mpr ⟨rfl, rfl⟩
  refine ⟨hab, hsymm a b hab, hbc, htrans a b c hab hbc, hparens a b (.paren c) a rfl rfl, ?_⟩
  rw [Bool.eq_false_iff, ne_eq, hself]
  decide

end CeylonFromJava.Java
