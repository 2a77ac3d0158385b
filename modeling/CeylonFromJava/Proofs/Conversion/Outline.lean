import CeylonFromJava.Proofs.Ceylon.Locals
import CeylonFromJava.Proofs.Conversion.TreeParts
import CeylonFromJava.Proofs.Java.Bodies

/-! The outline of a tree: its branches and the bodies of its loops, one inside the other, with the
places in them that look at what is around.

There are two kinds of such places. A local value that starts with a cast looks for a test of it, and
a `continue` for the tail of the loop. A run goes along an outline with a stack of frames: it enters
and leaves each region, and collects the local values it meets.

What the conversion leaves out has no place in an outline: the bodies of formal methods, locks, labels
of a case behind the first one, the sizes of an array with elements. -/
namespace CeylonFromJava.Conversion
set_option autoImplicit false

/-- What is around a statement: the first branch of an `if`, the other one, or a loop. -/
inductive Surround where
  | branch (cond : Java.Expr)
  | otherwise
  | loop (tail : LoopTail)

def Surround.frame : Surround → Frame
  | .branch cond => .branch (Narrowing.ofCondition cond)
  | .otherwise => .branch []
  | .loop tail => .loop tail

inductive Region where
  | declare (ty : Java.TypeRef) (name : String) (init : Option Java.Expr)
  | jump
  | inside (around : Surround) (parts : List Region)

/-! ## Outlines of trees -/

mutual
def exprOutline : Java.Expr → List Region
  | .literal _ | .name _ | .thisRef | .superRef => []
  | .paren e | .field e _ | .unary _ e | .instanceOf e _ | .cast _ e => exprOutline e
  | .call target _ _ args => exprOutlineOption target ++ exprOutlineList args
  | .create _ args none => exprOutlineList args
  | .create _ args (some body) => exprOutlineList args ++ memberOutlineList .ofClass body
  | .createArray _ dims _ none => exprOutlineList dims
  | .createArray _ _ _ (some elements) => exprOutlineList elements
  | .arrayInit elements => exprOutlineList elements
  | .index a b | .assign a _ b | .binary a _ b => exprOutline a ++ exprOutline b
  | .conditional a b c => exprOutline a ++ exprOutline b ++ exprOutline c

def exprOutlineOption : Option Java.Expr → List Region
  | none => []
  | some e => exprOutline e

def exprOutlineList : List Java.Expr → List Region
  | [] => []
  | e :: es => exprOutline e ++ exprOutlineList es

/-- Each name is a local, besides those in its initial value. -/
def localOutline : List Java.Declarator → Java.TypeRef → List Region
  | [], _ => []
  | ⟨name, init⟩ :: ds, ty => .declare ty name init :: (exprOutlineOption init ++ localOutline ds ty)

def fieldOutline : List Java.Declarator → List Region
  | [] => []
  | ⟨_, init⟩ :: ds => exprOutlineOption init ++ fieldOutline ds

def initOutline : Option Java.ForInit → List Region
  | none => []
  | some (.declare ⟨_, ty, ds⟩) => localOutline ds ty
  | some (.exprs es) => exprOutlineList es

def stmtOutline : Java.Stmt → List Region
  | .block body | .synchronized _ body => stmtOutlineList body
  | .localVar ⟨_, ty, ds⟩ => localOutline ds ty
  | .expr e | .throwValue e => exprOutline e
  | .ifElse cond s otherwise =>
    exprOutline cond ++ [.inside (.branch cond) (stmtOutline s)] ++ elseOutline otherwise
  | .whileLoop cond body | .forEach _ _ cond body =>
    exprOutline cond ++ [.inside (.loop .native) (stmtOutline body)]
  | .doWhile body cond => [.inside (.loop (.guard cond)) (stmtOutline body)] ++ exprOutline cond
  | .forLoop init cond update body =>
    initOutline init ++ exprOutlineOption cond ++
      [.inside (.loop (.update update)) (stmtOutline body)] ++ exprOutlineList update
  | .switch selector groups => exprOutline selector ++ caseOutline groups ++ defaultOutline groups
  | .breakTo _ | .empty => []
  | .continueTo _ => [.jump]
  | .labeled _ body => stmtOutline body
  | .constructorCall _ args => exprOutlineList args
  | .returnValue value => exprOutlineOption value
  | .tryCatch resources body catches last =>
    resourceOutline resources ++ stmtOutlineList body ++ catchOutline catches ++ blockOutline last

/-- An `if` behind an `else` goes on in the same surroundings. -/
def elseOutline : Option Java.Stmt → List Region
  | none => []
  | some s => if isIf s then stmtOutline s else [.inside .otherwise (stmtOutline s)]

def stmtOutlineList : List Java.Stmt → List Region
  | [] => []
  | s :: ss => stmtOutline s ++ stmtOutlineList ss

def blockOutline : Option (List Java.Stmt) → List Region
  | none => []
  | some body => stmtOutlineList body

/-- The first label that has a value. -/
def labelOutline : List Java.SwitchLabel → List Region
  | [] => []
  | .case value :: _ => exprOutline value
  | .default :: labels => labelOutline labels

/-- The groups that are cases. A group without a label is no group of a `switch`, and is not
written. -/
def caseOutline : List Java.SwitchGroup → List Region
  | [] => []
  | ⟨labels, body⟩ :: groups =>
    if (⟨labels, body⟩ : Java.SwitchGroup).isDefault || labels.isEmpty then caseOutline groups
    else labelOutline labels ++ stmtOutlineList body ++ caseOutline groups

/-- The first default group. -/
def defaultOutline : List Java.SwitchGroup → List Region
  | [] => []
  | ⟨labels, body⟩ :: groups =>
    if (⟨labels, body⟩ : Java.SwitchGroup).isDefault then stmtOutlineList body else defaultOutline groups

def resourceOutline : List Java.Resource → List Region
  | [] => []
  | ⟨_, _, init⟩ :: rs => exprOutline init ++ resourceOutline rs

def catchOutline : List Java.CatchClause → List Region
  | [] => []
  | ⟨_, _, body⟩ :: cs => stmtOutlineList body ++ catchOutline cs

def memberOutline (owner : Owner) : Java.Member → List Region
  | .field ⟨_, _, ds⟩ => fieldOutline ds
  | .method ⟨modifiers, _, _, _, _, body⟩ =>
    if methodKind owner modifiers == .formal then [] else blockOutline body
  | .constructor ⟨_, _, _, body⟩ | .initializer body => stmtOutlineList body
  | .type decl => typeOutline decl

def memberOutlineList (owner : Owner) : List Java.Member → List Region
  | [] => []
  | m :: ms => memberOutline owner m ++ memberOutlineList owner ms

def constantOutline : List Java.EnumConstant → List Region
  | [] => []
  | ⟨_, args⟩ :: cs => exprOutlineList args ++ constantOutline cs

def typeOutline : Java.TypeDecl → List Region
  | .ofClass ⟨_, _, _, _, _, body⟩ => memberOutlineList .ofClass body
  | .ofInterface ⟨_, _, _, _, body⟩ => memberOutlineList .ofInterface body
  | .ofEnum ⟨_, name, _, constants, body⟩ =>
    memberOutlineList (.ofEnum name) body ++ constantOutline constants
end

def unitOutline (u : Java.CompilationUnit) : List Region := u.types.flatMap typeOutline

theorem stmtOutline_eq_parts (s : Java.Stmt) : stmtOutline s = stmtOutlineList s.parts := by
  cases s with
  | block body => rfl
  | _ => simp [Java.Stmt.parts, stmtOutlineList]

/-! ### Expressions without anonymous classes -/

mutual
theorem exprOutline_of_hasBody : (e : Java.Expr) → e.hasBody = false → exprOutline e = []
  | .literal _, _ | .name _, _ | .thisRef, _ | .superRef, _ => rfl
  | .paren e, h | .field e _, h | .unary _ e, h | .instanceOf e _, h | .cast _ e, h =>
    exprOutline_of_hasBody e h
  | .call target _ _ args, h => by
    simp only [Java.Expr.hasBody, Bool.or_eq_false_iff] at h
    rw [exprOutline, exprOutlineOption_of_hasBody target h.1, exprOutlineList_of_hasBody args h.2,
      List.append_nil]
  | .create _ args none, h => by
    simp only [Java.Expr.hasBody, Bool.or_eq_false_iff] at h
    exact exprOutlineList_of_hasBody args h.2
  | .create _ _ (some _), h => by simp [Java.Expr.hasBody] at h
  | .createArray _ dims _ none, h => exprOutlineList_of_hasBody dims h
  | .createArray _ _ _ (some elements), h => by
    simp only [Java.Expr.hasBody, Bool.or_eq_false_iff] at h
    exact exprOutlineList_of_hasBody elements h.2
  | .arrayInit elements, h => exprOutlineList_of_hasBody elements h
  | .index a b, h | .assign a _ b, h | .binary a _ b, h => by
    simp only [Java.Expr.hasBody, Bool.or_eq_false_iff] at h
    rw [exprOutline, exprOutline_of_hasBody a h.1, exprOutline_of_hasBody b h.2, List.append_nil]
  | .conditional a b c, h => by
    simp only [Java.Expr.hasBody, Bool.or_eq_false_iff] at h
    rw [exprOutline, exprOutline_of_hasBody a h.1.1, exprOutline_of_hasBody b h.1.2,
      exprOutline_of_hasBody c h.2, List.append_nil, List.append_nil]

theorem exprOutlineOption_of_hasBody : (e : Option Java.Expr) → Java.Expr.hasBodyOption e = false →
    exprOutlineOption e = []
  | none, _ => rfl
  | some e, h => exprOutline_of_hasBody e h

theorem exprOutlineList_of_hasBody : (es : List Java.Expr) → Java.Expr.hasBodyList es = false →
    exprOutlineList es = []
  | [], _ => rfl
  | e :: es, h => by
    simp only [Java.Expr.hasBodyList, Bool.or_eq_false_iff] at h
    rw [exprOutlineList, exprOutline_of_hasBody e h.1, exprOutlineList_of_hasBody es h.2,
      List.append_nil]
end

/-! ## Runs -/

inductive FrameEvent where
  | enter (around : Surround)
  | leave
  | declare (ty : Java.TypeRef) (name : String) (init : Option Java.Expr)
  | jump

mutual
/-- Each region is entered, and left behind its last part. -/
def Region.events : Region → List FrameEvent
  | .declare ty name init => [.declare ty name init]
  | .jump => [.jump]
  | .inside around parts => .enter around :: (Region.eventsList parts ++ [.leave])

def Region.eventsList : List Region → List FrameEvent
  | [] => []
  | r :: rs => r.events ++ Region.eventsList rs
end

def unitEvents (u : Java.CompilationUnit) : List FrameEvent := Region.eventsList (unitOutline u)

theorem Region.eventsList_append (rs rs' : List Region) :
    Region.eventsList (rs ++ rs') = Region.eventsList rs ++ Region.eventsList rs' := by
  induction rs with
  | nil => rfl
  | cons r rs ih => rw [List.cons_append, Region.eventsList, ih, Region.eventsList, List.append_assoc]

/-- The frames around, and the local values that were met. -/
structure Visit where
  scope : Scope
  locals : List Ceylon.Local

/-- What is written for a local value. -/
def localAt (scope : Scope) (ty : Java.TypeRef) (name : String) (init : Option Java.Expr) :
    Ceylon.Local :=
  ⟨typeRef ty, Ceylon.Name.small name, init.any (isAsserted scope)⟩

/-- What a `continue` repeats. -/
def repeated (env : Env) (scope : Scope) : List Ceylon.Stmt :=
  match scope.loopTail? with
  | none => []
  | some t => env.repeatTail scope t

namespace Visit

/-- A frame that was not entered cannot be left. -/
def step (env : Env) (v : Visit) : FrameEvent → Option Visit
  | .enter around => some ⟨around.frame :: v.scope, v.locals⟩
  | .leave =>
    match v.scope with
    | [] => none
    | _ :: scope => some ⟨scope, v.locals⟩
  | .declare ty name init => some ⟨v.scope, v.locals ++ [localAt v.scope ty name init]⟩
  | .jump => some ⟨v.scope, v.locals ++ Ceylon.Stmt.localsList (repeated env v.scope)⟩

def run (env : Env) (v : Visit) : List FrameEvent → Option Visit
  | [] => some v
  | e :: es => (v.step env e).bind fun v' => v'.run env es

theorem run_append (env : Env) (v : Visit) (es es' : List FrameEvent) :
    v.run env (es ++ es') = (v.run env es).bind fun v' => v'.run env es' := by
  induction es generalizing v with
  | nil => rfl
  | cons e es ih =>
    rw [List.cons_append, run, run, Option.bind_assoc]
    simp only [ih]

end Visit

/-- A run along the outline comes back to the frames it started from, and has met these locals. -/
def Traced (env : Env) (scope : Scope) (rs : List Region) (ls : List Ceylon.Local) : Prop :=
  ∀ before, (⟨scope, before⟩ : Visit).run env (Region.eventsList rs) = some ⟨scope, before ++ ls⟩

namespace Traced

variable {env : Env} {scope : Scope} {rs rs' : List Region} {ls ls' : List Ceylon.Local}

theorem nil : Traced env scope [] [] := by
  intro before
  rw [List.append_nil]
  rfl

theorem append (h : Traced env scope rs ls) (h' : Traced env scope rs' ls') :
    Traced env scope (rs ++ rs') (ls ++ ls') := by
  intro before
  rw [Region.eventsList_append, Visit.run_append, h before, Option.bind_some, h', List.append_assoc]

theorem declare (ty : Java.TypeRef) (name : String) (init : Option Java.Expr) :
    Traced env scope [.declare ty name init] [localAt scope ty name init] := by
  intro before
  rfl

theorem jump : Traced env scope [.jump] (Ceylon.Stmt.localsList (repeated env scope)) := by
  intro before
  rfl

theorem inside (around : Surround) (h : Traced env (around.frame :: scope) rs ls) :
    Traced env scope [.inside around rs] ls := by
  intro before
  rw [Region.eventsList, Region.eventsList, List.append_nil, Region.events]
  show (Visit.mk (around.frame :: scope) before).run env (Region.eventsList rs ++ [.leave]) = _
  rw [Visit.run_append, h before]
  rfl

theorem flatMap {α : Type} {f : α → List Region} {g : α → List Ceylon.Local} {xs : List α}
    (h : ∀ x ∈ xs, Traced env scope (f x) (g x)) :
    Traced env scope (xs.flatMap f) (xs.flatMap g) := by
  induction xs with
  | nil => exact nil
  | cons x xs ih =>
    obtain ⟨hx, hxs⟩ := List.forall_mem_cons.mp h
    exact hx.append (ih hxs)

/-- What a run meets is determined by the outline. -/
theorem unique (h : Traced env scope rs ls) (h' : Traced env scope rs ls') : ls = ls' := by
  have hrun : (⟨scope, [] ++ ls⟩ : Visit) = ⟨scope, [] ++ ls'⟩ :=
    Option.some.inj ((h []).symm.trans (h' []))
  exact congrArg Visit.locals hrun

end Traced

end CeylonFromJava.Conversion
