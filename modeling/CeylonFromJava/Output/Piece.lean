/-! Laid-out text as data: pieces of text, line ends, and changes of the indentation.

`lines level fresh pieces` is the text that the pieces stand for, cut where a piece begins, when
they start at indentation `level` and, if `fresh`, at the start of a line. A line is indented when
its first text comes, so a line without text stays empty. -/
namespace CeylonFromJava.Output
set_option autoImplicit false

inductive Piece where
  | text (s : String)
  | newline
  | indent
  | dedent
  deriving DecidableEq, Repr

/-- The indentation of one level. -/
def indentUnit : String := "    "

def indentation (level : Nat) : String :=
  String.join (List.replicate level indentUnit)

namespace Piece

def lines : Nat → Bool → List Piece → List String
  | _, _, [] => []
  | level, fresh, .text s :: ps =>
    if s.isEmpty then lines level fresh ps
    else if fresh then indentation level :: s :: lines level false ps
    else s :: lines level false ps
  | level, _, .newline :: ps => "\n" :: lines level true ps
  | level, fresh, .indent :: ps => lines (level + 1) fresh ps
  | level, fresh, .dedent :: ps => lines (level - 1) fresh ps

/-- The text of pieces that start a file. -/
def render (ps : List Piece) : String :=
  String.join (lines 0 true ps)

end Piece

/-! ## Layouts -/

/-- What can be laid out: pieces, and maybe more that a reader of the layout wants to see. -/
class HasPieces (α : Type) where
  ofPiece : Piece → α

instance : HasPieces Piece := ⟨fun p => p⟩

namespace HasPieces

variable {α : Type} [HasPieces α]

abbrev text (s : String) : α := ofPiece (.text s)

abbrev newline : α := ofPiece .newline

@[simp] theorem ofPiece_eq (p : Piece) : ofPiece p = p := rfl

end HasPieces

namespace Piece

open HasPieces (ofPiece)

variable {α : Type} [HasPieces α]

/-- Texts with another one between them. -/
def separated (between : String) : List (List α) → List α
  | [] => []
  | [ps] => ps
  | ps :: rest => ps ++ HasPieces.text between :: separated between rest

/-- Lines between braces, one level deeper; the closing brace ends no line. -/
def braced (inner : List α) : List α :=
  [HasPieces.text "\x7b", HasPieces.newline, ofPiece .indent] ++ inner ++
    [ofPiece .dedent, HasPieces.text "\x7d"]

end Piece

end CeylonFromJava.Output
