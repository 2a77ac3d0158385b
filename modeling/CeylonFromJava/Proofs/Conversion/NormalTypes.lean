import CeylonFromJava.Ceylon.Source
import CeylonFromJava.Conversion.Tree
import CeylonFromJava.Proofs.Ceylon.TypeDecomposition

/-! What the text of a type tells of the type.

The normal form of a Java type is a Java type again: its primitives, arrays and free wildcards are
replaced by the classes and bounds that they are written as. The main statement,
`text_eq_iff_normal_eq`, is that types have the same text only if they have the same normal form. -/
namespace CeylonFromJava.Java
set_option autoImplicit false

open Ceylon.Name (isUnbroken)
open Conversion (primitiveName)

/-- What an array has as elements below all its dimensions. -/
def TypeRef.innermost : TypeRef → TypeRef
  | .primitive p => .primitive p
  | .classType segments => .classType segments
  | .array element _ => element.innermost

/-! ## Normal forms -/

mutual
/-- Classes only. Arrays of primitives have classes of their own, such as `IntArray`. The dimensions of
an array do not count, so an array of arrays is as its elements. -/
def TypeRef.normal : TypeRef → TypeRef
  | .primitive p => .classType (ClassType.simple (primitiveName p))
  | .classType segments => .classType (TypeSegment.normalList segments)
  | .array (.primitive p) _ => .classType (ClassType.simple (p.name.capitalize ++ "Array"))
  | .array (.classType segments) _ =>
    .classType (ClassType.generic "ObjectArray"
      [.exactly (.classType (TypeSegment.normalList segments))])
  | .array (.array element dims) _ => (TypeRef.array element dims).normal
termination_by structural t => t

def TypeSegment.normalList : List TypeSegment → List TypeSegment
  | [] => []
  | ⟨name, args⟩ :: segments => ⟨name, TypeArg.normalList args⟩ :: TypeSegment.normalList segments
termination_by structural segments => segments

def TypeArg.normal : TypeArg → TypeArg
  | .exactly ty => .exactly ty.normal
  | .unbounded => .extending (.classType (ClassType.simple "Anything"))
  | .extending bound => .extending bound.normal
  | .superOf bound => .superOf bound.normal
termination_by structural arg => arg

def TypeArg.normalList : List TypeArg → List TypeArg
  | [] => []
  | arg :: args => arg.normal :: TypeArg.normalList args
termination_by structural args => args
end

/-! ## Names -/

mutual
/-- Each class type has a name, and no name holds a blank, a point, a comma or an angle bracket. -/
def TypeRef.wellNamed : TypeRef → Bool
  | .primitive _ => true
  | .classType segments => !segments.isEmpty && TypeSegment.wellNamedList segments
  | .array element _ => element.wellNamed
termination_by structural t => t

def TypeSegment.wellNamedList : List TypeSegment → Bool
  | [] => true
  | ⟨name, args⟩ :: segments =>
    isUnbroken name && TypeArg.wellNamedList args && TypeSegment.wellNamedList segments
termination_by structural segments => segments

def TypeArg.wellNamed : TypeArg → Bool
  | .exactly ty | .extending ty | .superOf ty => ty.wellNamed
  | .unbounded => true
termination_by structural arg => arg

def TypeArg.wellNamedList : List TypeArg → Bool
  | [] => true
  | arg :: args => arg.wellNamed && TypeArg.wellNamedList args
termination_by structural args => args
end

end CeylonFromJava.Java

namespace CeylonFromJava.Conversion
set_option autoImplicit false

open Java (Primitive TypeRef TypeSegment TypeArg)
open Ceylon (Ty Segment Argument Variance)
open Ceylon.Name (isUnbroken)

/-! ## Normal forms and Ceylon types -/

def withVariance : Variance → TypeRef → TypeArg
  | .exact, ty => .exactly ty
  | .covariant, ty => .extending ty
  | .contravariant, ty => .superOf ty

mutual
/-- The Java names that become these Ceylon names. -/
def javaSegments : List Segment → List TypeSegment
  | [] => []
  | ⟨name, args⟩ :: segments => ⟨name, javaArguments args⟩ :: javaSegments segments
termination_by structural segments => segments

def javaArgument : Argument → TypeArg
  | ⟨variance, ty⟩ => withVariance variance (.classType (javaSegments ty))
termination_by structural arg => arg

def javaArguments : List Argument → List TypeArg
  | [] => []
  | arg :: args => javaArgument arg :: javaArguments args
termination_by structural args => args
end

mutual
theorem segmentList_javaSegments : (ty : List Segment) → segmentList (javaSegments ty) = ty
  | [] => rfl
  | ⟨name, args⟩ :: segments => by
    rw [javaSegments, segmentList, argumentList_javaArguments args,
      segmentList_javaSegments segments]
termination_by structural ty => ty

theorem argument_javaArgument : (arg : Argument) → argument (javaArgument arg) = arg
  | ⟨variance, ty⟩ => by
    have hty := segmentList_javaSegments ty
    cases variance <;> rw [javaArgument, withVariance, argument, typeRef, hty]
termination_by structural arg => arg

theorem argumentList_javaArguments : (args : List Argument) → argumentList (javaArguments args) = args
  | [] => rfl
  | arg :: args => by
    rw [javaArguments, argumentList, argument_javaArgument arg, argumentList_javaArguments args]
termination_by structural args => args
end

theorem primitiveArrayName_eq (p : Primitive) :
    primitiveArrayName p = p.name.capitalize ++ "Array" := by
  cases p <;> decide

mutual
/-- A Ceylon type gives the normal form back. -/
theorem javaSegments_typeRef : (t : TypeRef) → .classType (javaSegments (typeRef t)) = t.normal
  | .primitive p => rfl
  | .classType segments => by
    rw [typeRef, javaSegments_segmentList segments, TypeRef.normal]
  | .array element dims => javaSegments_arrayType element dims
termination_by structural t => t

theorem javaSegments_arrayType : (t : TypeRef) → (dims : UInt64) →
    .classType (javaSegments (arrayType t)) = (TypeRef.array t dims).normal
  | .primitive p, _ => by
    rw [arrayType, primitiveArrayName_eq, TypeRef.normal]
    rfl
  | .classType segments, _ => by
    have hsegments := javaSegments_segmentList segments
    simp only [arrayType, objectArray, javaSegments, javaArguments, javaArgument, withVariance,
      hsegments, TypeRef.normal]
    rfl
  | .array element dims, _ => by
    rw [arrayType, TypeRef.normal]
    exact javaSegments_arrayType element dims
termination_by structural t => t

theorem javaSegments_segmentList : (segments : List TypeSegment) →
    javaSegments (segmentList segments) = TypeSegment.normalList segments
  | [] => rfl
  | ⟨name, args⟩ :: segments => by
    rw [segmentList, javaSegments, javaArguments_argumentList args,
      javaSegments_segmentList segments, TypeSegment.normalList]
termination_by structural segments => segments

theorem javaArgument_argument : (arg : TypeArg) → javaArgument (argument arg) = arg.normal
  | .exactly ty | .extending ty | .superOf ty => by
    rw [argument, javaArgument, javaSegments_typeRef ty]
    rfl
  | .unbounded => rfl
termination_by structural arg => arg

theorem javaArguments_argumentList : (args : List TypeArg) →
    javaArguments (argumentList args) = TypeArg.normalList args
  | [] => rfl
  | arg :: args => by
    rw [argumentList, javaArguments, javaArgument_argument arg, javaArguments_argumentList args,
      TypeArg.normalList]
termination_by structural args => args
end

/-- Types have the same normal form exactly if they become the same Ceylon type. -/
theorem normal_eq_iff (t u : TypeRef) : t.normal = u.normal ↔ typeRef t = typeRef u := by
  rw [← javaSegments_typeRef t, ← javaSegments_typeRef u]
  constructor
  · intro h
    rw [← segmentList_javaSegments (typeRef t), ← segmentList_javaSegments (typeRef u),
      TypeRef.classType.inj h]
  · intro h
    rw [h]

/-! ## Names of Ceylon types -/

theorem wellNamed_named {name : String} (h : isUnbroken name = true) : (Ty.named name).WellNamed :=
  .last h fun _ ha => absurd ha List.not_mem_nil

mutual
theorem wellNamed_typeRef : (t : TypeRef) → t.wellNamed = true → Ty.WellNamed (typeRef t)
  | .primitive p, _ => by
    rw [typeRef]
    apply wellNamed_named
    cases p <;> decide
  | .classType segments, h => by
    rw [TypeRef.wellNamed, Bool.and_eq_true] at h
    exact wellNamed_segmentList segments h.1 h.2
  | .array element _, h => wellNamed_arrayType element h
termination_by structural t => t

theorem wellNamed_arrayType : (t : TypeRef) → t.wellNamed = true → Ty.WellNamed (arrayType t)
  | .primitive p, _ => by
    rw [arrayType]
    apply wellNamed_named
    cases p <;> decide
  | .classType segments, h => by
    rw [TypeRef.wellNamed, Bool.and_eq_true] at h
    have helement := wellNamed_segmentList segments h.1 h.2
    rw [arrayType, objectArray]
    exact .last (by decide) (List.forall_mem_singleton.mpr helement)
  | .array element _, h => wellNamed_arrayType element h
termination_by structural t => t

theorem wellNamed_segmentList : (segments : List TypeSegment) → (!segments.isEmpty) = true →
    TypeSegment.wellNamedList segments = true → Ty.WellNamed (segmentList segments)
  | [], h, _ => by cases h
  | ⟨name, args⟩ :: segments, _, h => by
    rw [TypeSegment.wellNamedList, Bool.and_eq_true, Bool.and_eq_true] at h
    obtain ⟨⟨hname, hargs⟩, hsegments⟩ := h
    have hmembers := wellNamed_argumentList args hargs
    have hrest := wellNamed_segmentList segments
    rw [segmentList]
    cases segments with
    | nil => exact .last hname hmembers
    | cons segment segments => exact .within hname hmembers (hrest rfl hsegments)
termination_by structural segments => segments

theorem wellNamed_argument : (arg : TypeArg) → arg.wellNamed = true → Ty.WellNamed (argument arg).ty
  | .exactly ty, h | .extending ty, h | .superOf ty, h => wellNamed_typeRef ty h
  | .unbounded, _ => wellNamed_named (by decide)
termination_by structural arg => arg

theorem wellNamed_argumentList : (args : List TypeArg) → TypeArg.wellNamedList args = true →
    ∀ a ∈ argumentList args, Ty.WellNamed a.ty
  | [], _ => fun _ ha => absurd ha List.not_mem_nil
  | arg :: args, h => by
    rw [TypeArg.wellNamedList, Bool.and_eq_true] at h
    rw [argumentList, List.forall_mem_cons]
    exact ⟨wellNamed_argument arg h.1, wellNamed_argumentList args h.2⟩
termination_by structural args => args
end

/-! ## Texts -/

/-- Only the innermost elements decide on the class of an array. -/
theorem arrayType_innermost : (t : TypeRef) → arrayType t.innermost = arrayType t
  | .primitive _ => rfl
  | .classType _ => rfl
  | .array element _ => arrayType_innermost element
termination_by structural t => t

theorem arrayType_eq_of_innermost {t u : TypeRef} (h : t.innermost = u.innermost) :
    arrayType t = arrayType u := by
  rw [← arrayType_innermost t, h, arrayType_innermost u]

/-- The primitives that share a class: whole numbers, but not bytes, and fractions. -/
theorem normal_primitive_eq_iff (p q : Primitive) :
    (TypeRef.primitive p).normal = (TypeRef.primitive q).normal ↔
      p = q ∨ (p ∈ [.short, .int, .long] ∧ q ∈ [.short, .int, .long]) ∨
        (p ∈ [.float, .double] ∧ q ∈ [.float, .double]) := by
  cases p <;> cases q <;> decide

theorem text_eq_iff {t u : TypeRef} (ht : t.wellNamed = true) (hu : u.wellNamed = true) :
    (typeRef t).text = (typeRef u).text ↔ t.normal = u.normal := by
  rw [normal_eq_iff]
  constructor
  · intro h
    exact Ceylon.eq_of_text_eq (wellNamed_typeRef t ht) (wellNamed_typeRef u hu) h
  · intro h
    rw [h]

/-- **The text of a type stands for its normal form.** Among the primitives only whole numbers and
fractions have a text in common. An array type is written as the creation of an array by its sizes names
the class, if the innermost elements are the same. -/
theorem text_eq_iff_normal_eq :
    (∀ t u : TypeRef, t.wellNamed = true → u.wellNamed = true →
      ((typeRef t).text = (typeRef u).text ↔ t.normal = u.normal)) ∧
    (∀ p q : Primitive, (typeRef (.primitive p)).text = (typeRef (.primitive q)).text ↔
      p = q ∨ (p ∈ [.short, .int, .long] ∧ q ∈ [.short, .int, .long]) ∨
        (p ∈ [.float, .double] ∧ q ∈ [.float, .double])) ∧
    (∀ (element created : TypeRef) (dims : UInt64), element.innermost = created.innermost →
      (typeRef (.array element dims)).text = (arrayType created).text ∧
      ∀ (env : Env) (sizes : List Java.Expr) (extraDims : UInt64) (scope : Scope) (k : Nat),
        (expr env (.createArray created sizes extraDims none) scope).pieces k =
          [.text (typeRef (.array element dims)).text, .text "("] ++
            Ceylon.Expr.piecesList (exprs env sizes scope) k ++ [.text ")"]) := by
  refine ⟨fun t u ht hu => text_eq_iff ht hu, fun p q => ?_, fun element created dims h => ?_⟩
  · rw [text_eq_iff rfl rfl, normal_primitive_eq_iff]
  · have hname : typeRef (.array element dims) = arrayType created := arrayType_eq_of_innermost h
    rw [hname]
    exact ⟨rfl, fun _ _ _ _ _ => rfl⟩

/-- In `java.Map$Entry<int[][][], ?>` the dimensions and the free wildcard are lost, the primitive of the
array is not. -/
theorem text_eq_iff_normal_eq_entry :
    let entry (key : TypeRef) (value : TypeArg) : TypeRef :=
      .classType [⟨"java", []⟩, ⟨"Map$Entry", [.exactly key, value]⟩]
    let t := entry (.array (.array (.primitive .int) 2) 1) .unbounded
    let u := entry (.array (.primitive .int) 1) (.extending (.classType [⟨"Anything", []⟩]))
    let v := entry (.array (.primitive .long) 1) .unbounded
    t.wellNamed = true ∧ u.wellNamed = true ∧ v.wellNamed = true ∧
      (typeRef t).text = (typeRef u).text ∧ (typeRef t).text ≠ (typeRef v).text ∧
      (typeRef (.array (.array (.primitive .int) 2) 1)).text = (arrayType (.primitive .int)).text := by
  obtain ⟨htext, -, hcreated⟩ := text_eq_iff_normal_eq
  refine ⟨by decide, by decide, by decide, ?_, ?_, (hcreated _ _ _ rfl).1⟩
  · rw [htext _ _ (by decide) (by decide)]
    decide
  · rw [Ne, htext _ _ (by decide) (by decide)]
    decide

/-- `new int[] {1}` lists its elements, and is not written with the name `IntArray` of its type. -/
theorem elements_without_array_name :
    let env : Env := ⟨.default, fun _ _ => []⟩
    let created (init : Option (List Java.Expr)) : Java.Expr :=
      .createArray (.primitive .int) [] 1 init
    let text (e : Java.Expr) : String := Output.Piece.render ((expr env e []).pieces 0)
    let name : String := (typeRef (.array (.primitive .int) 1)).text
    name = "IntArray" ∧ text (created (some [.literal (.number "1")])) = "Array \x7b 1 \x7d" ∧
      ¬ ∀ init, ∃ rest, text (created init) = name ++ rest := by
  intro env created text name
  have hname : name = "IntArray" := by decide +kernel
  have htext : text (created (some [.literal (.number "1")])) = "Array \x7b 1 \x7d" := by decide
  refine ⟨hname, htext, fun h => ?_⟩
  obtain ⟨rest, hrest⟩ := h (some [.literal (.number "1")])
  rw [hname, htext] at hrest
  -- already the first characters differ
  have hchars := congrArg String.toList hrest
  rw [String.toList_append] at hchars
  exact absurd (List.cons.inj hchars).1 (by decide)

end CeylonFromJava.Conversion
