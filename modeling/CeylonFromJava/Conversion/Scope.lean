import CeylonFromJava.Java.SameStructure
import CeylonFromJava.Java.TailDepth

/-! What surrounds a node while it is converted: the branches of `if` statements with the type tests
that hold in them, and the loops with what they run at the end of each round. -/
namespace CeylonFromJava.Conversion
set_option autoImplicit false

open Java

/-- A type test that is known to hold. -/
structure Narrowing where
  operand : Expr
  ty : TypeRef

/-- What a `continue` has to run before it jumps, since the loop is written as a plain `while`:
nothing, the updates of a counting loop, or the exit test of a `do` loop. -/
inductive LoopTail where
  | native
  | update (exprs : List Expr)
  | guard (cond : Expr)

inductive Frame where
  | branch (tests : List Narrowing)
  | loop (tail : LoopTail)

/-- The surrounding frames, the innermost first. -/
abbrev Scope := List Frame

namespace Narrowing

/-- Whether the test says that `operand` is a `ty`. -/
def proves (n : Narrowing) (operand : Expr) (ty : TypeRef) : Bool :=
  n.ty == ty && n.operand.sameStructure operand

/-- The type tests that hold when `cond` does: those of its `&&` chain. -/
def ofCondition : Expr → List Narrowing
  | .binary left .and right => ofCondition left ++ ofCondition right
  | .instanceOf operand ty => [⟨operand, ty⟩]
  | _ => []

end Narrowing

def Frame.proves (operand : Expr) (ty : TypeRef) : Frame → Bool
  | .branch tests => tests.any (·.proves operand ty)
  | .loop _ => false

def Frame.tail? : Frame → Option LoopTail
  | .branch _ => none
  | .loop tail => some tail

def LoopTail.depth : LoopTail → Nat
  | .native => 0
  | .update exprs => Expr.tailDepthList exprs + 1
  | .guard cond => cond.tailDepth + 1

namespace Scope

/-- Whether a surrounding branch has tested that `operand` is a `ty`. -/
def narrows (scope : Scope) (operand : Expr) (ty : TypeRef) : Bool :=
  scope.any (·.proves operand ty)

/-- The tail of the innermost loop. -/
def loopTail? (scope : Scope) : Option LoopTail := scope.findSome? Frame.tail?

/-- How deep tails are nested in the loops around. -/
def tailDepth (scope : Scope) : Nat :=
  scope.foldr (fun f n => max ((f.tail?.map LoopTail.depth).getD 0) n) 0

end Scope

end CeylonFromJava.Conversion
