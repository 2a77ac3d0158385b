/-! Java types: primitives, class types with arguments, arrays, and the parameters of generic
declarations. -/
namespace CeylonFromJava.Java
set_option autoImplicit false

/-! ## Primitives -/

inductive Primitive where
  | byte | short | int | long | char | float | double | boolean
  deriving DecidableEq, Repr

namespace Primitive

def name : Primitive → String
  | .byte => "byte"
  | .short => "short"
  | .int => "int"
  | .long => "long"
  | .char => "char"
  | .float => "float"
  | .double => "double"
  | .boolean => "boolean"

def all : List Primitive :=
  [.byte, .short, .int, .long, .char, .float, .double, .boolean]

def ofName? (name : String) : Option Primitive :=
  all.find? fun p => p.name == name

end Primitive

/-! ## Types -/

mutual
/-- A type. An array has one element type and a number of dimensions. -/
inductive TypeRef where
  | primitive (p : Primitive)
  | classType (segments : List TypeSegment)
  | array (element : TypeRef) (dims : UInt64)

/-- One name of a class type, with its arguments. -/
structure TypeSegment where
  name : String
  args : List TypeArg

/-- A type argument: a type, any type, or any type with a bound above or below. -/
inductive TypeArg where
  | exactly (ty : TypeRef)
  | unbounded
  | extending (bound : TypeRef)
  | superOf (bound : TypeRef)
end

/-- A class type: the names of the classes around it, then its own. -/
abbrev ClassType := List TypeSegment

/-- A parameter of a generic declaration, with the types it must extend. -/
structure TypeParam where
  name : String
  bounds : List ClassType

/-! ## Building types -/

namespace ClassType

def simple (name : String) : ClassType := [⟨name, []⟩]

def generic (name : String) (args : List TypeArg) : ClassType := [⟨name, args⟩]

/-- The innermost name, empty for a type without names. -/
def name (ty : ClassType) : String :=
  (ty.getLast?.map TypeSegment.name).getD ""

end ClassType

/-- An array of arrays is one array with the dimensions of both. -/
def TypeRef.arrayOf (element : TypeRef) (dims : UInt64) : TypeRef :=
  match element with
  | .array inner more => .array inner (more + dims)
  | element => .array element dims

/-! ## Equality -/

mutual
def TypeRef.same : TypeRef → TypeRef → Bool
  | .primitive p, .primitive q => p == q
  | .classType ss, .classType ts => TypeSegment.sameList ss ts
  | .array e m, .array f n => e.same f && m == n
  | _, _ => false
termination_by structural x => x

def TypeSegment.sameList : List TypeSegment → List TypeSegment → Bool
  | [], [] => true
  | ⟨m, xs⟩ :: ss, ⟨n, ys⟩ :: ts => m == n && TypeArg.sameList xs ys && TypeSegment.sameList ss ts
  | _, _ => false
termination_by structural x => x

def TypeArg.same : TypeArg → TypeArg → Bool
  | .exactly t, .exactly u => t.same u
  | .unbounded, .unbounded => true
  | .extending t, .extending u => t.same u
  | .superOf t, .superOf u => t.same u
  | _, _ => false
termination_by structural x => x

def TypeArg.sameList : List TypeArg → List TypeArg → Bool
  | [], [] => true
  | x :: xs, y :: ys => x.same y && TypeArg.sameList xs ys
  | _, _ => false
termination_by structural x => x
end

mutual
theorem TypeRef.eq_of_same : ∀ {t u : TypeRef}, t.same u = true → t = u
  | .primitive p, .primitive q, h => by simp [TypeRef.same] at h; rw [h]
  | .classType ss, .classType ts, h => by
    rw [TypeRef.same] at h
    rw [TypeSegment.eq_of_sameList h]
  | .array e m, .array f n, h => by
    simp [TypeRef.same] at h
    rw [TypeRef.eq_of_same h.1, h.2]
  | .primitive _, .classType _, h | .primitive _, .array _ _, h | .classType _, .primitive _, h
  | .classType _, .array _ _, h | .array _ _, .primitive _, h | .array _ _, .classType _, h => by
    simp [TypeRef.same] at h

theorem TypeSegment.eq_of_sameList :
    ∀ {ss ts : List TypeSegment}, TypeSegment.sameList ss ts = true → ss = ts
  | [], [], _ => rfl
  | ⟨m, xs⟩ :: ss, ⟨n, ys⟩ :: ts, h => by
    simp [TypeSegment.sameList] at h
    rw [h.1.1, TypeArg.eq_of_sameList h.1.2, TypeSegment.eq_of_sameList h.2]
  | [], _ :: _, h => by simp [TypeSegment.sameList] at h
  | _ :: _, [], h => by simp [TypeSegment.sameList] at h

theorem TypeArg.eq_of_same : ∀ {x y : TypeArg}, x.same y = true → x = y
  | .exactly t, .exactly u, h => by
    rw [TypeArg.same] at h
    rw [TypeRef.eq_of_same h]
  | .unbounded, .unbounded, _ => rfl
  | .extending t, .extending u, h => by
    rw [TypeArg.same] at h
    rw [TypeRef.eq_of_same h]
  | .superOf t, .superOf u, h => by
    rw [TypeArg.same] at h
    rw [TypeRef.eq_of_same h]
  | .exactly _, .unbounded, h | .exactly _, .extending _, h | .exactly _, .superOf _, h
  | .unbounded, .exactly _, h | .unbounded, .extending _, h | .unbounded, .superOf _, h
  | .extending _, .exactly _, h | .extending _, .unbounded, h | .extending _, .superOf _, h
  | .superOf _, .exactly _, h | .superOf _, .unbounded, h | .superOf _, .extending _, h => by
    simp [TypeArg.same] at h

theorem TypeArg.eq_of_sameList : ∀ {xs ys : List TypeArg}, TypeArg.sameList xs ys = true → xs = ys
  | [], [], _ => rfl
  | x :: xs, y :: ys, h => by
    simp [TypeArg.sameList] at h
    rw [TypeArg.eq_of_same h.1, TypeArg.eq_of_sameList h.2]
  | [], _ :: _, h => by simp [TypeArg.sameList] at h
  | _ :: _, [], h => by simp [TypeArg.sameList] at h
end

mutual
theorem TypeRef.same_self : ∀ t : TypeRef, t.same t = true
  | .primitive p => by simp [TypeRef.same]
  | .classType ss => by rw [TypeRef.same]; exact TypeSegment.sameList_self ss
  | .array e n => by simp [TypeRef.same, TypeRef.same_self e]

theorem TypeSegment.sameList_self : ∀ ss : List TypeSegment, TypeSegment.sameList ss ss = true
  | [] => by rw [TypeSegment.sameList]
  | ⟨n, xs⟩ :: ss => by
    simp [TypeSegment.sameList, TypeArg.sameList_self xs, TypeSegment.sameList_self ss]

theorem TypeArg.same_self : ∀ x : TypeArg, x.same x = true
  | .exactly t | .extending t | .superOf t => by rw [TypeArg.same]; exact TypeRef.same_self t
  | .unbounded => by rw [TypeArg.same]

theorem TypeArg.sameList_self : ∀ xs : List TypeArg, TypeArg.sameList xs xs = true
  | [] => by rw [TypeArg.sameList]
  | x :: xs => by simp [TypeArg.sameList, TypeArg.same_self x, TypeArg.sameList_self xs]
end

instance : DecidableEq TypeRef := fun t u =>
  if h : t.same u = true then isTrue (TypeRef.eq_of_same h)
  else isFalse fun e => h (e ▸ TypeRef.same_self t)

end CeylonFromJava.Java
