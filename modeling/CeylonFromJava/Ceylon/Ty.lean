/-! Ceylon types: dotted names with arguments, each argument as it is or with a variance. -/
namespace CeylonFromJava.Ceylon
set_option autoImplicit false

/-- Use-site variance of a type argument. -/
inductive Variance where
  | exact
  | covariant
  | contravariant
  deriving DecidableEq, Repr

mutual
structure Segment where
  name : String
  args : List Argument

structure Argument where
  variance : Variance
  ty : List Segment
end

/-- A type: the names of the classes around it, then its own. -/
abbrev Ty := List Segment

/-- A parameter of a generic declaration, with the types it must satisfy. -/
structure TypeParam where
  name : String
  bounds : List Ty

/-- A type without arguments. -/
def Ty.named (name : String) : Ty := [⟨name, []⟩]

def Variance.text : Variance → String
  | .exact => ""
  | .covariant => "out "
  | .contravariant => "in "

mutual
def segmentsText : List Segment → String
  | [] => ""
  | [⟨name, args⟩] => name ++ bracketedText args
  | ⟨name, args⟩ :: segments => name ++ bracketedText args ++ "." ++ segmentsText segments

def bracketedText : List Argument → String
  | [] => ""
  | ⟨variance, ty⟩ :: args =>
    "<" ++ (variance.text ++ segmentsText ty) ++ (furtherText args ++ ">")

def furtherText : List Argument → String
  | [] => ""
  | ⟨variance, ty⟩ :: args => ", " ++ (variance.text ++ segmentsText ty) ++ furtherText args
end

def Ty.text (ty : Ty) : String := segmentsText ty

namespace TypeParam

/-- The names between angle brackets, nothing without parameters. -/
def listText : List TypeParam → String
  | [] => ""
  | params => "<" ++ String.intercalate ", " (params.map (·.name)) ++ ">"

/-- What the bounds of one parameter ask for. -/
def constraintText (param : TypeParam) : String :=
  match param.bounds with
  | [] => ""
  | bounds =>
    " given " ++ param.name ++ " satisfies " ++ String.intercalate " & " (bounds.map Ty.text)

def constraintsText (params : List TypeParam) : String :=
  String.join (params.map constraintText)

end TypeParam

end CeylonFromJava.Ceylon
