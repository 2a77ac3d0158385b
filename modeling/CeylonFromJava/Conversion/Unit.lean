import CeylonFromJava.Ceylon.Source
import CeylonFromJava.Conversion.Tree

/-! Compilation units as Ceylon source. -/
namespace CeylonFromJava.Conversion
set_option autoImplicit false

/-- The unit with tails inside tails repeated `budget` deep; beyond that, `last` stands for them. -/
def unitUpTo (config : Config) (last : Scope → LoopTail → List Ceylon.Stmt) (budget : Nat)
    (scope : Scope) (u : Java.CompilationUnit) : Ceylon.Source :=
  ⟨.ofImports u.imports, u.types.map fun t => typeDecl (Env.upTo config last budget) t scope⟩

/-- A budget for the tails of a unit and those around it: a tail is repeated inside a tail only if
it lies in it. -/
def budget (scope : Scope) (u : Java.CompilationUnit) : Nat := max u.tailDepth scope.tailDepth

def unit (config : Config) (scope : Scope) (u : Java.CompilationUnit) : Ceylon.Source :=
  unitUpTo config (fun _ _ => []) (budget scope u) scope u

/-- The text of a unit. -/
def text (config : Config) (u : Java.CompilationUnit) : String :=
  Output.Piece.render ((unit config [] u).pieces 0)

end CeylonFromJava.Conversion
