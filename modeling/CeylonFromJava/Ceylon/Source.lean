import CeylonFromJava.Ceylon.ImportTable
import CeylonFromJava.Ceylon.Layout

/-! Ceylon source files: imports, then declarations. -/
namespace CeylonFromJava.Ceylon
set_option autoImplicit false

structure Source where
  imports : ImportTable
  types : List TypeDecl

namespace Source

/-- The file laid out, with `k` the number of the next temporary value. -/
def pieces {α : Type} [Script α] (s : Source) (k : Nat) : List α :=
  s.imports.pieces ++ TypeDecl.piecesList s.types k

/-- How many temporary numbers the file takes. -/
def temps (s : Source) : Nat := TypeDecl.tempsList s.types

end Source

-- pieces are meant wherever nothing else is asked for
attribute [default_instance] Output.instHasPiecesPiece instScriptPiece

end CeylonFromJava.Ceylon
