import CeylonFromJava.Java.Tree

/-! Calls of a method, counted as often as they are written.

A call counts once, with these exceptions. What a counting loop runs after each round, and the condition
of a `do` loop, is written again before each `continue` of that loop. A lock is not written. Of a
`switch`, the groups that have labels but no `default` are written with their first label, and the first
group with `default` is written without labels. The dimensions of an array with initial elements are not
written. -/
namespace CeylonFromJava.Java
set_option autoImplicit false

/-! ## Expressions -/

mutual
/-- How many calls of `f` an expression writes, anonymous classes left aside. -/
def Expr.calls (f : String) : Expr → Nat
  | .literal _ | .name _ | .thisRef | .superRef => 0
  | .paren e | .field e _ | .unary _ e | .instanceOf e _ | .cast _ e => e.calls f
  | .call target _ method args =>
    (if method = f then 1 else 0) + Expr.callsOption f target + Expr.callsList f args
  | .create _ args _ => Expr.callsList f args
  | .createArray _ dims _ none => Expr.callsList f dims
  | .createArray _ _ _ (some elements) => Expr.callsList f elements
  | .arrayInit elements => Expr.callsList f elements
  | .index a b | .assign a _ b | .binary a _ b => a.calls f + b.calls f
  | .conditional a b c => a.calls f + b.calls f + c.calls f

def Expr.callsOption (f : String) : Option Expr → Nat
  | none => 0
  | some e => e.calls f

def Expr.callsList (f : String) : List Expr → Nat
  | [] => 0
  | e :: es => e.calls f + Expr.callsList f es
end

theorem Expr.calls_unparenthesized (f : String) (e : Expr) :
    e.unparenthesized.calls f = e.calls f := by
  fun_induction Expr.unparenthesized e with
  | case1 inner ih => rw [ih, Expr.calls]
  | case2 e _ => rfl

theorem Expr.calls_of_isNull {f : String} {e : Expr} (h : e.unparenthesized.isNull = true) :
    e.calls f = 0 := by
  rw [← Expr.calls_unparenthesized]
  unfold Expr.isNull at h
  split at h
  · next heq => rw [heq, Expr.calls]
  · cases h

/-! ## Statements -/

/-- Whether a group of a `switch` is written: with `default`, if it is the first such group, and
otherwise if it has a label. -/
def SwitchGroup.isWritten (group : SwitchGroup) (first : Bool) : Bool :=
  if group.isDefault then first else !group.labels.isEmpty

mutual
/-- How many `continue`s of the loop around are written. -/
def Stmt.continues : Stmt → Nat
  | .continueTo _ => 1
  | .block body | .synchronized _ body => Stmt.continuesList body
  | .ifElse _ s none | .labeled _ s => s.continues
  | .ifElse _ s (some t) => s.continues + t.continues
  | .switch _ groups => SwitchGroup.continuesList groups true
  | .tryCatch _ body catches none =>
    Stmt.continuesList body + CatchClause.continuesList catches
  | .tryCatch _ body catches (some last) =>
    Stmt.continuesList body + CatchClause.continuesList catches + Stmt.continuesList last
  | .localVar _ | .expr _ | .whileLoop _ _ | .doWhile _ _ | .forLoop _ _ _ _ | .forEach _ _ _ _
  | .breakTo _ | .constructorCall _ _ | .returnValue _ | .throwValue _ | .empty => 0

def Stmt.continuesList : List Stmt → Nat
  | [] => 0
  | s :: ss => s.continues + Stmt.continuesList ss

def SwitchGroup.continuesList : List SwitchGroup → Bool → Nat
  | [], _ => 0
  | ⟨labels, body⟩ :: groups, first =>
    (if (⟨labels, body⟩ : SwitchGroup).isWritten first then Stmt.continuesList body else 0) +
      SwitchGroup.continuesList groups (first && !(⟨labels, body⟩ : SwitchGroup).isDefault)

def CatchClause.continuesList : List CatchClause → Nat
  | [] => 0
  | ⟨_, _, body⟩ :: cs => Stmt.continuesList body + CatchClause.continuesList cs
end

def Declarator.callsList (f : String) : List Declarator → Nat
  | [] => 0
  | ⟨_, init⟩ :: ds => Expr.callsOption f init + Declarator.callsList f ds

def ForInit.calls (f : String) : Option ForInit → Nat
  | none => 0
  | some (.declare decl) => Declarator.callsList f decl.declarators
  | some (.exprs es) => Expr.callsList f es

def Resource.callsList (f : String) : List Resource → Nat
  | [] => 0
  | ⟨_, _, init⟩ :: rs => init.calls f + Resource.callsList f rs

/-- The calls in the first label that has a value. -/
def SwitchLabel.callsFirst (f : String) : List SwitchLabel → Nat
  | [] => 0
  | .case value :: _ => value.calls f
  | .default :: labels => SwitchLabel.callsFirst f labels

mutual
/-- How many calls of `f` a statement writes, those aside that a `continue` of the loop around
writes. -/
def Stmt.calls (f : String) : Stmt → Nat
  | .block body | .synchronized _ body => Stmt.callsList f body
  | .localVar decl => Declarator.callsList f decl.declarators
  | .expr e | .throwValue e => e.calls f
  | .ifElse cond s none => cond.calls f + s.calls f
  | .ifElse cond s (some t) => cond.calls f + s.calls f + t.calls f
  | .whileLoop cond body => cond.calls f + body.calls f
  | .doWhile body cond => body.calls f + (1 + body.continues) * cond.calls f
  | .forLoop init cond update body =>
    ForInit.calls f init + Expr.callsOption f cond + body.calls f +
      (1 + body.continues) * Expr.callsList f update
  | .forEach _ _ iterable body => iterable.calls f + body.calls f
  | .switch selector groups => selector.calls f + SwitchGroup.callsList f groups true
  | .labeled _ body => body.calls f
  | .constructorCall _ args => Expr.callsList f args
  | .returnValue value => Expr.callsOption f value
  | .tryCatch resources body catches none =>
    Resource.callsList f resources + Stmt.callsList f body + CatchClause.callsList f catches
  | .tryCatch resources body catches (some last) =>
    Resource.callsList f resources + Stmt.callsList f body + CatchClause.callsList f catches +
      Stmt.callsList f last
  | .breakTo _ | .continueTo _ | .empty => 0

def Stmt.callsList (f : String) : List Stmt → Nat
  | [] => 0
  | s :: ss => s.calls f + Stmt.callsList f ss

def SwitchGroup.callsList (f : String) : List SwitchGroup → Bool → Nat
  | [], _ => 0
  | ⟨labels, body⟩ :: groups, first =>
    (if (⟨labels, body⟩ : SwitchGroup).isWritten first then
      (if (⟨labels, body⟩ : SwitchGroup).isDefault then 0 else SwitchLabel.callsFirst f labels) +
        Stmt.callsList f body
    else 0) +
      SwitchGroup.callsList f groups (first && !(⟨labels, body⟩ : SwitchGroup).isDefault)

def CatchClause.callsList (f : String) : List CatchClause → Nat
  | [] => 0
  | ⟨_, _, body⟩ :: cs => Stmt.callsList f body + CatchClause.callsList f cs
end

end CeylonFromJava.Java
