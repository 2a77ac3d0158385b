import CeylonFromJava.Ceylon.Source
import CeylonFromJava.Ceylon.Name
import CeylonFromJava.Proofs.Output.InlineText

/-! How often a character is written.

`marks c` counts a character in a text or in pieces. The layout puts texts of its own between the words
of a tree; a character that is foreign to them is counted in the parts alone. -/
namespace CeylonFromJava.Output
set_option autoImplicit false

def marks (c : Char) (s : String) : Nat := s.toList.count c

theorem marks_append (c : Char) (s t : String) : marks c (s ++ t) = marks c s + marks c t := by
  simp [marks, List.count_append]

theorem marks_intercalate {c : Char} {between : String} (hbetween : marks c between = 0)
    (ts : List String) : marks c (String.intercalate between ts) = marks c (String.join ts) := by
  induction ts with
  | nil => rfl
  | cons t ts ih =>
    cases ts with
    | nil => simp
    | cons t' ts =>
      rw [String.intercalate_cons_cons, String.join_cons, marks_append, marks_append, marks_append,
        hbetween, ih, Nat.add_zero]

theorem marks_empty (c : Char) : marks c "" = 0 := rfl

theorem marks_eq_zero {c : Char} {s : String} : marks c s = 0 ↔ c ∉ s.toList :=
  List.count_eq_zero

namespace Piece

def marks (c : Char) (ps : List Piece) : Nat := (chars ps).count c

section

variable (c : Char) (ps qs : List Piece)

@[simp] theorem marks_nil : marks c [] = 0 := rfl

@[simp] theorem marks_text (s : String) :
    marks c (.text s :: ps) = Output.marks c s + marks c ps := by
  simp [marks, Output.marks, List.count_append]

@[simp] theorem marks_newline : marks c (.newline :: ps) = marks c ps := rfl

@[simp] theorem marks_indent : marks c (.indent :: ps) = marks c ps := rfl

@[simp] theorem marks_dedent : marks c (.dedent :: ps) = marks c ps := rfl

@[simp] theorem marks_append : marks c (ps ++ qs) = marks c ps + marks c qs := by
  simp [marks, List.count_append]

end

/-- Indentation and line ends aside, the text of pieces has the characters of the pieces. -/
theorem marks_lines {c : Char} (hblank : c ∉ indentUnit.toList) (hend : c ∉ "\n".toList)
    (level : Nat) (fresh : Bool) (ps : List Piece) :
    Output.marks c (String.join (lines level fresh ps)) = marks c ps := by
  have hindent : ∀ level, Output.marks c (indentation level) = 0 := by
    intro level
    rw [indentation]
    induction level with
    | zero => rfl
    | succ level ih =>
      rw [List.replicate_succ, String.join_cons, Output.marks_append, ih, marks_eq_zero.mpr hblank]
  induction ps generalizing level fresh with
  | nil => rfl
  | cons p ps ih =>
    cases p with
    | text s =>
      rw [lines, marks_text]
      by_cases hs : s.isEmpty
      · rw [if_pos hs, ih, String.isEmpty_iff.mp hs]
        simp [Output.marks]
      · cases fresh <;> simp [hs, Output.marks_append, hindent, ih]
    | newline => simp [lines, Output.marks_append, ih, marks_eq_zero.mpr hend]
    | indent | dedent => simp [lines, ih]

end Piece

end CeylonFromJava.Output

namespace CeylonFromJava.Ceylon
set_option autoImplicit false

open Output (Piece marks marks_append marks_empty marks_eq_zero)

/-! ## Texts of the writer -/

/-- What statements and expressions are written with, apart from the words of the tree: signs and
words, the names of classes for primitive and array types, names for temporary values, operators, the
indentation and the end of a line. -/
@[reducible] def ownTexts : List String :=
  ["    ", "\n", "\\i", "x", "print", "not", "array", "index", "0123456789",
   "null", "true", "false", "'", "\"", "this", "super", "(", ")", ") ", ".", ", ", " ", "<", ">",
   "Array \x7b\x7d", "Array \x7b ", " \x7d", ".get(", ".set(", "let (", " = ", "!", "exists ", " is ", "if (",
   ") then ", " else ", "is ", "\x7b", "\x7d", "variable ", ";", "assert (is ", "value ", "while (",
   "for (", " in ", ") \x7bbreak;\x7d", "break;", "continue;", "switch (", "case (", "else \x7b\x7d", "else ",
   ");", "return", "throw ", "try ", " finally ", "; ", " catch (", "|",
   "||", "&&", "==", "!=", "<=", ">=", "^", "&", "<<", ">>", ">>>", "+", "-", "*", "/", "%", "=", "~",
   "++", "--", "Integer", "Float", "Boolean", "Byte", "Character", "IntArray", "ShortArray",
   "BooleanArray", "ByteArray", "LongArray", "FloatArray", "DoubleArray", "CharArray", "ObjectArray",
   "Anything", "out ", "in "]

/-- The writer does not write the character by itself. -/
def Foreign (c : Char) : Prop := ∀ t ∈ ownTexts, c ∉ t.toList

/-- The texts do not have the character, each of them as a fact for `simp`. -/
@[reducible] def Lacks (c : Char) : List String → Prop
  | [] => True
  | t :: ts => marks c t = 0 ∧ Lacks c ts

theorem Foreign.lacks {c : Char} (h : Foreign c) : Lacks c ownTexts := by
  have hall : ∀ ts : List String, (∀ t ∈ ts, c ∉ t.toList) → Lacks c ts := by
    intro ts
    induction ts with
    | nil => exact fun _ => trivial
    | cons t ts ih =>
      intro hts
      obtain ⟨ht, hts⟩ := List.forall_mem_cons.mp hts
      exact ⟨marks_eq_zero.mpr ht, ih hts⟩
  exact hall ownTexts h

section

variable {c : Char} (hc : Lacks c ownTexts)

include hc

/-! ## Words -/

theorem marks_word (name : String) : marks c (Name.word name) = marks c name := by
  rw [Name.word]
  split <;> simp [marks_append, Name.marker, hc]

theorem marks_small (name : String) : marks c (Name.small name) = marks c name := by
  rw [Name.small]
  split <;> simp [marks_append, Name.marker, hc]

theorem marks_repr (n : Nat) : marks c n.repr = 0 := by
  have hdigits : c ∉ "0123456789".toList := marks_eq_zero.mp (by simp [hc])
  induction n using Nat.strongRecOn with
  | ind n ih =>
    rcases Nat.lt_or_ge n 10 with hlt | hge
    · have hmem : ∀ n < 10, n.digitChar ∈ "0123456789".toList := by decide
      rw [Nat.repr_of_lt hlt, marks_eq_zero]
      intro h
      rw [String.toList_singleton, List.mem_singleton] at h
      exact hdigits (h ▸ hmem n hlt)
    · rw [Nat.repr_eq_repr_append_repr hge, marks_append, ih (n / 10) (by omega),
        ih (n % 10) (by omega)]

theorem marks_tempName {role : String} (hrole : marks c role = 0) (n : Nat) :
    marks c (tempName role n) = 0 := by
  rw [tempName, marks_append, hrole, marks_repr hc]

theorem marks_arithOp (op : Java.ArithOp) : marks c op.symbol = 0 := by
  cases op <;> simp [Java.ArithOp.symbol, hc]

theorem marks_binaryOp (op : Java.BinaryOp) : marks c op.symbol = 0 := by
  cases op <;> simp [Java.BinaryOp.symbol, marks_arithOp hc, hc]

theorem marks_assignOp (op : Java.AssignOp) : marks c op.symbol = 0 := by
  cases op <;> simp [Java.AssignOp.symbol, marks_append, marks_arithOp hc, hc]

theorem marks_unaryOp (op : Java.UnaryOp) : marks c op.symbol = 0 := by
  cases op <;> simp [Java.UnaryOp.symbol, hc]

/-! ## Types -/

theorem marks_segmentsText_cons (name : String) (args : List Argument) (segments : List Segment) :
    marks c (segmentsText (⟨name, args⟩ :: segments)) =
      marks c name + marks c (bracketedText args) + marks c (segmentsText segments) := by
  cases segments <;> simp [segmentsText, marks_append, marks_empty, hc]

theorem marks_variance (variance : Variance) : marks c variance.text = 0 := by
  cases variance <;> simp [Variance.text, marks_empty, hc]

theorem marks_furtherText_cons (arg : Argument) (args : List Argument) :
    marks c (furtherText (arg :: args)) =
      marks c (segmentsText arg.ty) + marks c (furtherText args) := by
  cases arg
  simp [furtherText, marks_append, marks_variance hc, hc]

theorem marks_bracketedText_cons (arg : Argument) (args : List Argument) :
    marks c (bracketedText (arg :: args)) =
      marks c (segmentsText arg.ty) + marks c (furtherText args) := by
  cases arg
  simp [bracketedText, marks_append, marks_variance hc, hc]

/-! ## Lists and slots -/

theorem marks_braced (ps : List Piece) : Piece.marks c (Piece.braced ps) = Piece.marks c ps := by
  simp [Piece.braced, hc]

theorem marks_separated (pss : List (List Piece)) :
    Piece.marks c (Piece.separated ", " pss) = Piece.marks c pss.flatten := by
  induction pss with
  | nil => rfl
  | cons ps rest ih =>
    cases rest with
    | nil => simp [Piece.separated]
    | cons ps' rest => simpa [Piece.separated, hc] using ih

theorem Expr.marks_piecesList_cons (e : Expr) (es : List Expr) (k : Nat) :
    Piece.marks c (Expr.piecesList (e :: es) k) =
      Piece.marks c (e.pieces k) + Piece.marks c (Expr.piecesList es (k + e.temps)) := by
  cases es <;> simp [Expr.piecesList, hc]

theorem Condition.marks_piecesList_cons (x : Condition) (xs : List Condition) (k : Nat) :
    Piece.marks c (Condition.piecesList (x :: xs) k) =
      Piece.marks c (x.pieces k) + Piece.marks c (Condition.piecesList xs (k + x.temps)) := by
  cases xs <;> simp [Condition.piecesList, hc]

theorem Condition.marks_piecesList_append (xs ys : List Condition) (k : Nat) :
    Piece.marks c (Condition.piecesList (xs ++ ys) k) =
      Piece.marks c (Condition.piecesList xs k) +
        Piece.marks c (Condition.piecesList ys (k + Condition.tempsList xs)) := by
  induction xs generalizing k with
  | nil => simp [Condition.piecesList, Condition.tempsList]
  | cons x xs ih =>
    rw [List.cons_append, marks_piecesList_cons hc, marks_piecesList_cons hc, ih,
      Condition.tempsList, Nat.add_assoc, Nat.add_assoc]

theorem Expr.marks_existence {binding : Option String} (h : ∀ name ∈ binding, marks c name = 0)
    (holds : Bool) (operand : Expr) (k : Nat) :
    Piece.marks c ((Expr.existence holds binding operand).pieces k) =
      Piece.marks c (operand.pieces k) := by
  cases binding with
  | none => cases holds <;> simp [Expr.pieces, wordIf, hc]
  | some name => cases holds <;> simp [Expr.pieces, wordIf, h name rfl, hc]

/-- The expression of a slot. -/
def Slot.value : Slot → Expr
  | .direct value | .bound value => value

/-- A slot with `m` marks, which may stand without a binding only if there are none. -/
structure Slot.Holds (c : Char) (slot : Slot) (m : Nat) : Prop where
  value : ∀ k, Piece.marks c (slot.value.pieces k) = m
  direct : slot.isBound = false → m = 0

theorem Slot.marks_bindingPieces {slot : Slot} {m : Nat} (h : slot.Holds c m) {role : Role}
    (hrole : marks c role.word = 0) (n k : Nat) :
    Piece.marks c (slot.bindingPieces role n k).flatten = m := by
  cases slot with
  | direct value => simp [Slot.bindingPieces, h.direct rfl]
  | bound value =>
    have hvalue : Piece.marks c (value.pieces k) = m := h.value k
    simp [Slot.bindingPieces, marks_tempName hc hrole, hvalue, hc]

theorem Slot.marks_usePieces {slot : Slot} {m : Nat} (h : slot.Holds c m) {role : Role}
    (hrole : marks c role.word = 0) (n : Nat) : Piece.marks c (slot.usePieces role n) = 0 := by
  cases slot with
  | direct value =>
    rw [Slot.usePieces, ← h.direct rfl]
    exact h.value n
  | bound value => simp [Slot.usePieces, marks_tempName hc hrole]

theorem marks_let (bindings : List (List Piece)) :
    Piece.marks c (if bindings.isEmpty then []
      else .text "let (" :: Piece.separated ", " bindings ++ [.text ") "]) =
        Piece.marks c bindings.flatten := by
  cases bindings with
  | nil => rfl
  | cons b bs => simp [marks_separated hc, hc]

theorem marks_valueLines (bindings : List (List Piece)) :
    Piece.marks c (bindings.flatMap fun b => .text "value " :: b ++ [.text ";", .newline]) =
      Piece.marks c bindings.flatten := by
  induction bindings with
  | nil => rfl
  | cons b bs ih =>
    rw [List.flatMap_cons, Piece.marks_append, ih]
    simp [hc]

section

variable {array index : Slot} {value : Expr} {m n l : Nat} (harray : array.Holds c m)
  (hindex : index.Holds c n) (hvalue : ∀ k, Piece.marks c (value.pieces k) = l)

include harray hindex hvalue

/-- An update writes the marks of its array and its index once. -/
theorem Expr.marks_update (op : Java.ArithOp) (k : Nat) :
    Piece.marks c ((Expr.update array index op value).pieces k) = m + n + l := by
  have ha : marks c Role.array.word = 0 := by simp [Role.word, arrayRole, hc]
  have hi : marks c Role.index.word = 0 := by simp [Role.word, indexRole, hc]
  simp only [Expr.pieces, Script.numbered_eq, Output.HasPieces.ofPiece_eq,
    Piece.marks_append _ (ite _ _ _), marks_let hc, List.flatten_append, Piece.marks_append,
    Slot.marks_bindingPieces hc harray ha, Slot.marks_bindingPieces hc hindex hi]
  simp [Slot.marks_usePieces hc harray ha, Slot.marks_usePieces hc hindex hi, marks_arithOp hc,
    hvalue, hc]

theorem Stmt.marks_update (op : Java.ArithOp) (k : Nat) :
    Piece.marks c ((Stmt.update array index op value).pieces k) = m + n + l := by
  have ha : marks c Role.array.word = 0 := by simp [Role.word, arrayRole, hc]
  have hi : marks c Role.index.word = 0 := by simp [Role.word, indexRole, hc]
  simp only [Stmt.pieces, Script.numbered_eq, Output.HasPieces.ofPiece_eq,
    Piece.marks_append _ (List.flatMap _ _), marks_valueLines hc, List.flatten_append,
    Piece.marks_append, Slot.marks_bindingPieces hc harray ha, Slot.marks_bindingPieces hc hindex hi]
  simp [Slot.marks_usePieces hc harray ha, Slot.marks_usePieces hc hindex hi, marks_arithOp hc,
    hvalue, hc]

end

end

end CeylonFromJava.Ceylon
