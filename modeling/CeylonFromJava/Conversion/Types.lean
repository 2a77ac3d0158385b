import CeylonFromJava.Ceylon.Ty
import CeylonFromJava.Java.TypeRef

/-! Java types as Ceylon types.

Several primitives share a Ceylon class. An array is an object of the array class for its innermost
element, whatever its dimensions. Wildcards become variances. -/
namespace CeylonFromJava.Conversion
set_option autoImplicit false

open Java (Primitive TypeRef TypeSegment TypeArg ClassType)
open Ceylon (Ty Segment Argument)

def primitiveName : Primitive → String
  | .int | .long | .short => "Integer"
  | .float | .double => "Float"
  | .boolean => "Boolean"
  | .byte => "Byte"
  | .char => "Character"

/-- The array class for elements of a primitive type. -/
def primitiveArrayName : Primitive → String
  | .int => "IntArray"
  | .short => "ShortArray"
  | .boolean => "BooleanArray"
  | .byte => "ByteArray"
  | .long => "LongArray"
  | .float => "FloatArray"
  | .double => "DoubleArray"
  | .char => "CharArray"

/-- The Ceylon name for the name of a type; names of classes stay as they are. -/
def typeName (name : String) : String :=
  match Primitive.ofName? name with
  | some p => primitiveName p
  | none => name

/-- The array class for elements of a class. -/
def objectArray (element : Ty) : Ty := [⟨"ObjectArray", [⟨.exact, element⟩]⟩]

/-- The type that every type extends. -/
def anything : Ty := Ty.named "Anything"

mutual
def typeRef : TypeRef → Ty
  | .primitive p => Ty.named (primitiveName p)
  | .classType segments => segmentList segments
  | .array element _ => arrayType element

/-- The type of arrays with the given elements. -/
def arrayType : TypeRef → Ty
  | .primitive p => Ty.named (primitiveArrayName p)
  | .classType segments => objectArray (segmentList segments)
  | .array element _ => arrayType element

def segmentList : List TypeSegment → Ty
  | [] => []
  | ⟨name, args⟩ :: segments => ⟨name, argumentList args⟩ :: segmentList segments

def argument : TypeArg → Argument
  | .exactly ty => ⟨.exact, typeRef ty⟩
  | .unbounded => ⟨.covariant, anything⟩
  | .extending bound => ⟨.covariant, typeRef bound⟩
  | .superOf bound => ⟨.contravariant, typeRef bound⟩

def argumentList : List TypeArg → List Argument
  | [] => []
  | arg :: args => argument arg :: argumentList args
end

def classType (ty : ClassType) : Ty := segmentList ty

def typeParam (param : Java.TypeParam) : Ceylon.TypeParam :=
  ⟨param.name, param.bounds.map classType⟩

end CeylonFromJava.Conversion
