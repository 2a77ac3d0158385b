import CeylonFromJava.Conversion.Tree
import CeylonFromJava.Proofs.Ceylon.OwnTexts
import CeylonFromJava.Proofs.Java.Calls
import CeylonFromJava.Proofs.Text.SmallLetters

/-! Markers of a method.

Calls of a method can be counted in the text if its name has a character that comes from nowhere else.
`IsMarker` says what the name and the character must be like, `MarksOnly` that a tree has the character
in calls of the method only. The name that an existence test binds is no word of the tree; it is the
first letter of a word, and that of the method is not the marker. -/
namespace CeylonFromJava
set_option autoImplicit false

open Output (marks marks_append marks_empty marks_eq_zero)

/-! ## Types without a character -/

namespace Java

mutual
/-- No name in the type has the character. -/
def TypeRef.lacks (c : Char) : TypeRef → Bool
  | .primitive _ => true
  | .classType segments => TypeSegment.lacksList c segments
  | .array element _ => element.lacks c

def TypeSegment.lacksList (c : Char) : List TypeSegment → Bool
  | [] => true
  | ⟨name, args⟩ :: segments =>
    marks c name == 0 && TypeArg.lacksList c args && TypeSegment.lacksList c segments

def TypeArg.lacks (c : Char) : TypeArg → Bool
  | .exactly ty | .extending ty | .superOf ty => ty.lacks c
  | .unbounded => true

def TypeArg.lacksList (c : Char) : List TypeArg → Bool
  | [] => true
  | arg :: args => arg.lacks c && TypeArg.lacksList c args
end

end Java

namespace Conversion

section

variable {c : Char}

theorem marks_named {name : String} (h : marks c name = 0) :
    marks c (Ceylon.Ty.named name).text = 0 := by
  simp [Ceylon.Ty.named, Ceylon.Ty.text, Ceylon.segmentsText, Ceylon.bracketedText, h]

variable (hc : Ceylon.Lacks c Ceylon.ownTexts)

include hc

theorem marks_primitiveName (p : Java.Primitive) : marks c (primitiveName p) = 0 := by
  cases p <;> simp [primitiveName, hc]

theorem marks_primitiveArrayName (p : Java.Primitive) : marks c (primitiveArrayName p) = 0 := by
  cases p <;> simp [primitiveArrayName, hc]

mutual
theorem marks_typeRef : (ty : Java.TypeRef) → ty.lacks c = true → marks c (typeRef ty).text = 0
  | .primitive p, _ => marks_named (marks_primitiveName hc p)
  | .classType segments, h => marks_segmentList segments h
  | .array element _, h => marks_arrayType element h
termination_by structural ty => ty

theorem marks_arrayType : (ty : Java.TypeRef) → ty.lacks c = true →
    marks c (arrayType ty).text = 0
  | .primitive p, _ => marks_named (marks_primitiveArrayName hc p)
  | .classType segments, h => by
    simp [arrayType, objectArray, Ceylon.Ty.text, Ceylon.segmentsText, Ceylon.bracketedText,
      Ceylon.furtherText, Ceylon.Variance.text, marks_append,
      marks_segmentList segments h, hc]
  | .array element _, h => marks_arrayType element h
termination_by structural ty => ty

theorem marks_segmentList : (segments : List Java.TypeSegment) →
    Java.TypeSegment.lacksList c segments = true →
      marks c (Ceylon.segmentsText (segmentList segments)) = 0
  | [], _ => by rw [segmentList, Ceylon.segmentsText, marks_empty]
  | ⟨name, args⟩ :: segments, h => by
    simp only [Java.TypeSegment.lacksList, Bool.and_eq_true, beq_iff_eq] at h
    rw [segmentList, Ceylon.marks_segmentsText_cons hc, h.1.1, marks_bracketed args h.1.2,
      marks_segmentList segments h.2]
termination_by structural segments => segments

theorem marks_argument : (arg : Java.TypeArg) → arg.lacks c = true →
    marks c (Ceylon.segmentsText (argument arg).ty) = 0
  | .exactly ty, h | .extending ty, h | .superOf ty, h => marks_typeRef ty h
  | .unbounded, _ => marks_named (by simp [hc])
termination_by structural arg => arg

theorem marks_bracketed : (args : List Java.TypeArg) → Java.TypeArg.lacksList c args = true →
    marks c (Ceylon.bracketedText (argumentList args)) = 0
  | [], _ => by rw [argumentList, Ceylon.bracketedText, marks_empty]
  | arg :: args, h => by
    rw [Java.TypeArg.lacksList, Bool.and_eq_true] at h
    rw [argumentList, Ceylon.marks_bracketedText_cons hc, marks_argument arg h.1,
      marks_further args h.2]
termination_by structural args => args

theorem marks_further : (args : List Java.TypeArg) → Java.TypeArg.lacksList c args = true →
    marks c (Ceylon.furtherText (argumentList args)) = 0
  | [], _ => by rw [argumentList, Ceylon.furtherText, marks_empty]
  | arg :: args, h => by
    rw [Java.TypeArg.lacksList, Bool.and_eq_true] at h
    rw [argumentList, Ceylon.marks_furtherText_cons hc, marks_argument arg h.1,
      marks_further args h.2]
termination_by structural args => args
end

theorem marks_types {types : List Java.TypeRef} (h : types.all (Java.TypeRef.lacks c) = true)
    {between : String} (hbetween : marks c between = 0) :
    marks c (String.intercalate between ((types.map typeRef).map Ceylon.Ty.text)) = 0 := by
  rw [Output.marks_intercalate hbetween]
  induction types with
  | nil => rfl
  | cons ty types ih =>
    rw [List.all_cons, Bool.and_eq_true] at h
    rw [List.map_cons, List.map_cons, String.join_cons, marks_append, marks_typeRef hc ty h.1, ih h.2]

theorem marks_typeArgs {types : List Java.TypeRef} (h : types.all (Java.TypeRef.lacks c) = true) :
    marks c (Ceylon.typeArgsText (types.map typeRef)) = 0 := by
  cases types with
  | nil => rfl
  | cons ty types =>
    rw [List.map_cons, Ceylon.typeArgsText, ← List.map_cons, marks_append, marks_append,
      marks_types hc h (by simp [hc])]
    · simp [hc]
    · simp

end

/-! ## Expressions and statements -/

/-- The text of a literal between its quotes. -/
def lexeme : Java.Literal → String
  | .number text | .char text | .string text => text
  | .null | .bool _ => ""

/-- Whether a comparison binds a name that has the character, the first letter of `f` apart. -/
def bindsMark (c : Char) (f : String) (left : Java.Expr) (op : Java.BinaryOp) (right : Java.Expr) :
    Bool :=
  isNullTest op right && !isSimpleName left && leftmostToken left != some f &&
    marks c (bindingName left) != 0

namespace MarksOnly

variable (c : Char) (f : String)

mutual
/-- No anonymous classes, and the character only in the names of calls of `f`. -/
def expr : Java.Expr → Bool
  | .literal value => marks c (lexeme value) == 0
  | .name text => marks c text == 0
  | .thisRef | .superRef => true
  | .paren e | .unary _ e | .cast _ e => expr e
  | .field e name => marks c name == 0 && expr e
  | .call target typeArgs name args =>
    (name == f || marks c name == 0) && typeArgs.all (Java.TypeRef.lacks c) &&
      exprOption target && exprs args
  | .create ty args none => Java.TypeSegment.lacksList c ty && exprs args
  | .create _ _ (some _) => false
  | .createArray element dims _ none => element.lacks c && exprs dims
  | .createArray _ _ _ (some elements) | .arrayInit elements => exprs elements
  | .index a b | .assign a _ b => expr a && expr b
  | .binary a op b => !bindsMark c f a op b && expr a && expr b
  | .instanceOf e ty => ty.lacks c && expr e
  | .conditional a b c => expr a && expr b && expr c

def exprOption : Option Java.Expr → Bool
  | none => true
  | some e => expr e

def exprs : List Java.Expr → Bool
  | [] => true
  | e :: es => expr e && exprs es
end

def declarators : List Java.Declarator → Bool
  | [] => true
  | ⟨name, init⟩ :: ds => marks c name == 0 && exprOption c f init && declarators ds

def localVar (decl : Java.LocalVar) : Bool :=
  decl.ty.lacks c && declarators c f decl.declarators

def forInit : Option Java.ForInit → Bool
  | none => true
  | some (.declare decl) => localVar c f decl
  | some (.exprs es) => exprs c f es

def resources : List Java.Resource → Bool
  | [] => true
  | ⟨ty, name, init⟩ :: rs =>
    ty.lacks c && marks c name == 0 && expr c f init && resources rs

def labels : List Java.SwitchLabel → Bool
  | [] => true
  | .case value :: ls => expr c f value && labels ls
  | .default :: ls => labels ls

mutual
def stmt : Java.Stmt → Bool
  | .block b | .synchronized _ b => stmts b
  | .localVar decl => localVar c f decl
  | .expr e | .throwValue e => expr c f e
  | .ifElse cond s otherwise => expr c f cond && stmt s && stmtOption otherwise
  | .whileLoop cond b | .doWhile b cond => expr c f cond && stmt b
  | .forLoop init cond update b =>
    forInit c f init && exprOption c f cond && exprs c f update && stmt b
  | .forEach ty name iterable b =>
    ty.lacks c && marks c name == 0 && expr c f iterable && stmt b
  | .switch selector gs => expr c f selector && groups gs
  | .labeled _ b => stmt b
  | .constructorCall _ args => exprs c f args
  | .returnValue value => exprOption c f value
  | .tryCatch rs b cs last => resources c f rs && stmts b && catches cs && block last
  | .breakTo _ | .continueTo _ | .empty => true

def stmtOption : Option Java.Stmt → Bool
  | none => true
  | some s => stmt s

def stmts : List Java.Stmt → Bool
  | [] => true
  | s :: ss => stmt s && stmts ss

def block : Option (List Java.Stmt) → Bool
  | none => true
  | some b => stmts b

def groups : List Java.SwitchGroup → Bool
  | [] => true
  | ⟨ls, b⟩ :: gs => labels c f ls && stmts b && groups gs

def catches : List Java.CatchClause → Bool
  | [] => true
  | ⟨types, name, b⟩ :: cs =>
    types.all (Java.TypeRef.lacks c) && marks c name == 0 && stmts b && catches cs
end

end MarksOnly

/-! ## Markers -/

/-- The name has the character once and not first, starts with a small letter, and is not the one
method whose calls can get another name; the writer has no use for the character. -/
structure IsMarker (c : Char) (f : String) : Prop where
  foreign : Ceylon.Foreign c
  once : marks c f = 1
  initial : ∀ d, f.toList.head? = some d → Text.isLowercase d = true ∧ d ≠ c
  not_println : f ≠ "println"

section

variable {c : Char} {f : String}

theorem IsMarker.lacks (h : IsMarker c f) : Ceylon.Lacks c Ceylon.ownTexts := h.foreign.lacks

/-- The small form of a small letter is itself, so the name bound to a call of `f` is its first
letter. -/
theorem IsMarker.marks_bindingName (h : IsMarker c f) {e : Java.Expr}
    (he : leftmostToken e = some f) : marks c (bindingName e) = 0 := by
  rw [bindingName, he, Option.map_some]
  cases hf : f.toList with
  | nil => simp [h.lacks]
  | cons d rest =>
    obtain ⟨hsmall, hd⟩ := h.initial d (by rw [hf, List.head?_cons])
    simp only
    split
    · rw [Text.toLowercase_of_isLowercase hsmall, marks_eq_zero, String.toList_ofList,
        List.mem_singleton]
      exact hd.symm
    · simp [h.lacks]

theorem IsMarker.marks_binding (h : IsMarker c f) {left : Java.Expr} {op : Java.BinaryOp}
    {right : Java.Expr} (hbinds : bindsMark c f left op right = false)
    (hnull : isNullTest op right = true) :
    ∀ name ∈ (if isSimpleName left then none else some (bindingName left)), marks c name = 0 := by
  intro name hname
  by_cases hsimple : isSimpleName left = true
  · rw [if_pos hsimple] at hname
    cases hname
  · rw [if_neg hsimple] at hname
    cases hname
    by_cases hf : leftmostToken left = some f
    · exact h.marks_bindingName hf
    · simpa [bindsMark, hnull, hsimple, hf] using hbinds

theorem IsMarker.marks_name (h : IsMarker c f) {name : String}
    (hname : name = f ∨ marks c name = 0) : marks c name = if name = f then 1 else 0 := by
  by_cases heq : name = f
  · rw [if_pos heq, heq, h.once]
  · rw [if_neg heq]
    exact hname.resolve_left heq

/-! ## Expressions without calls -/

theorem calls_of_isPure : (e : Java.Expr) → isPure e = true → e.calls f = 0
  | .literal _, _ | .name _, _ | .thisRef, _ | .superRef, _ => rfl
  | .paren e, h | .field e _, h | .cast _ e, h | .instanceOf e _, h => calls_of_isPure e h
  | .index a b, h | .binary a _ b, h => by
    rw [isPure, Bool.and_eq_true] at h
    rw [Java.Expr.calls, calls_of_isPure a h.1, calls_of_isPure b h.2]
  | .unary _ e, h => by
    rw [isPure, Bool.and_eq_true] at h
    rw [Java.Expr.calls, calls_of_isPure e h.2]
  | .conditional a b c, h => by
    rw [isPure, Bool.and_eq_true, Bool.and_eq_true] at h
    rw [Java.Expr.calls, calls_of_isPure a h.1.1, calls_of_isPure b h.1.2, calls_of_isPure c h.2]
  | .call _ _ _ _, h | .create _ _ _, h | .createArray _ _ _ _, h | .arrayInit _, h
  | .assign _ _ _, h => by cases h

theorem calls_of_isSystemOut {e : Java.Expr} (h : isSystemOut e = true) : e.calls f = 0 := by
  rw [← Java.Expr.calls_unparenthesized]
  unfold isSystemOut at h
  split at h
  · next heq => rw [heq, Java.Expr.calls]
  · next target name heq =>
    rw [heq, Java.Expr.calls, ← Java.Expr.calls_unparenthesized]
    rw [Bool.and_eq_true] at h
    have howner := h.2
    split at howner
    · next howner' => rw [howner', Java.Expr.calls]
    · cases howner
  · cases h

theorem IsMarker.calls_println (h : IsMarker c f) {target : Option Java.Expr} {name : String}
    (hprint : (name == "println" && target.any isSystemOut) = true) (typeArgs : List Java.TypeRef)
    (args : List Java.Expr) :
    (Java.Expr.call target typeArgs name args).calls f = Java.Expr.callsList f args := by
  rw [Bool.and_eq_true, beq_iff_eq] at hprint
  obtain ⟨rfl, htarget⟩ := hprint
  have htarget : Java.Expr.callsOption f target = 0 := by
    cases target with
    | none => rfl
    | some target => exact calls_of_isSystemOut htarget
  rw [Java.Expr.calls, if_neg h.not_println.symm, htarget, Nat.zero_add]

end

end Conversion

end CeylonFromJava
