import CeylonFromJava.Proofs.Output.SinkBytes

/-! Pieces whose indentation is nested.

`levelAfter` follows the level through pieces and gives up where a `dedent` has nothing to take back.
Nested pieces lead from every level back to that level, so they never go below it on the way. -/
namespace CeylonFromJava.Output.Piece
set_option autoImplicit false

/-- The level after pieces that start at level `n`, if each `dedent` finds a level to take back. -/
def levelAfter : Nat → List Piece → Option Nat
  | n, [] => some n
  | n, .text _ :: ps => levelAfter n ps
  | n, .newline :: ps => levelAfter n ps
  | n, .indent :: ps => levelAfter (n + 1) ps
  | 0, .dedent :: _ => none
  | n + 1, .dedent :: ps => levelAfter n ps

/-- Each `indent` is taken back, and nothing else is. -/
abbrev Nested (ps : List Piece) : Prop := ∀ n, levelAfter n ps = some n

/-! ## Building nested pieces -/

section

variable (n : Nat) (ps qs : List Piece)

@[simp] theorem levelAfter_nil : levelAfter n [] = some n := rfl

@[simp] theorem levelAfter_text (s : String) : levelAfter n (.text s :: ps) = levelAfter n ps := rfl

@[simp] theorem levelAfter_newline : levelAfter n (.newline :: ps) = levelAfter n ps := rfl

@[simp] theorem levelAfter_indent : levelAfter n (.indent :: ps) = levelAfter (n + 1) ps := rfl

@[simp] theorem levelAfter_dedent : levelAfter (n + 1) (.dedent :: ps) = levelAfter n ps := rfl

@[simp] theorem levelAfter_append :
    levelAfter n (ps ++ qs) = (levelAfter n ps).bind fun m => levelAfter m qs := by
  fun_induction levelAfter n ps with
  | case1 n => rfl
  | case2 n s ps ih | case3 n ps ih | case4 n ps ih | case6 n ps ih =>
    rw [List.cons_append, levelAfter]
    exact ih
  | case5 => rfl

@[simp] theorem levelAfter_braced :
    levelAfter n (braced ps) = (levelAfter (n + 1) ps).bind fun m => levelAfter m [.dedent] := by
  have htext : ∀ m, levelAfter m [.dedent, .text "\x7d"] = levelAfter m [.dedent] := by
    intro m
    cases m <;> simp [levelAfter]
  simp only [braced, HasPieces.ofPiece_eq,
    List.cons_append, List.nil_append, levelAfter_text, levelAfter_newline, levelAfter_indent,
    levelAfter_append, htext]

end

theorem nested_separated (between : String) {pss : List (List Piece)} (h : ∀ ps ∈ pss, Nested ps) :
    Nested (separated between pss) := by
  fun_induction separated between pss with
  | case1 => exact levelAfter_nil
  | case2 ps => exact h ps (List.mem_singleton_self ps)
  | case3 ps rest _ ih =>
    have hps := h ps (List.mem_cons_self ..)
    have hrest := ih fun qs hqs => h qs (List.mem_cons_of_mem _ hqs)
    intro n
    simp [hps, hrest]

theorem nested_flatMap {α : Type} {f : α → List Piece} {as : List α} (h : ∀ a ∈ as, Nested (f a)) :
    Nested (as.flatMap f) := by
  induction as with
  | nil => exact levelAfter_nil
  | cons a as ih =>
    have ha := h a (List.mem_cons_self ..)
    have has := ih fun b hb => h b (List.mem_cons_of_mem _ hb)
    intro n
    simp [ha, has]

/-! ## Where nested pieces lead -/

theorem level_foldl_of_levelAfter {n m : Nat} {ps : List Piece} (h : levelAfter n ps = some m)
    (fresh : Bool) : (ps.foldl moved (n, fresh)).1 = m := by
  fun_induction levelAfter n ps generalizing fresh with
  | case1 n => exact Option.some.inj h
  | case2 n s ps ih | case3 n ps ih | case4 n ps ih | case6 n ps ih => exact ih h _
  | case5 => cases h

/-- Before each `dedent` there is a level to take back. -/
theorem Nested.level_pos_of_dedent {before after : List Piece}
    (h : Nested (before ++ .dedent :: after)) (n : Nat) (fresh : Bool) :
    0 < (before.foldl moved (n, fresh)).1 := by
  have hn := h n
  rw [levelAfter_append] at hn
  cases hbefore : levelAfter n before with
  | none => simp [hbefore] at hn
  | some m =>
    rw [level_foldl_of_levelAfter hbefore]
    cases m with
    | zero => simp [hbefore, levelAfter] at hn
    | succ m => exact Nat.succ_pos m

/-! ## Ends of lines -/

/-- The last piece, if there is one, ends a line. -/
def EndsLine (ps : List Piece) : Prop := ∀ p ∈ ps.getLast?, p = .newline

@[simp] theorem endsLine_nil : EndsLine [] := by
  intro p hp
  cases hp

@[simp] theorem endsLine_append_newline (ps : List Piece) : EndsLine (ps ++ [.newline]) := by
  simp [EndsLine]

theorem EndsLine.append {ps qs : List Piece} (hp : EndsLine ps) (hq : EndsLine qs) :
    EndsLine (ps ++ qs) := by
  intro p h
  rw [List.getLast?_append] at h
  cases hlast : qs.getLast? with
  | none =>
    rw [hlast] at h
    exact hp p h
  | some q =>
    rw [hlast] at h
    exact hq p (hlast ▸ h)

/-- Whole lines lead from the start of a line to the start of a line. -/
theorem EndsLine.fresh_foldl {ps : List Piece} (h : EndsLine ps) (level : Nat) :
    (ps.foldl moved (level, true)).2 = true := by
  cases hlast : ps.getLast? with
  | none =>
    rw [List.getLast?_eq_none_iff] at hlast
    rw [hlast]
    rfl
  | some p =>
    obtain ⟨front, rfl⟩ := List.getLast?_eq_some_iff.mp hlast
    rw [h p hlast, List.foldl_append]
    rfl

/-- Nested whole lines lead back to where they start. -/
theorem Nested.foldl_moved {ps : List Piece} (hn : Nested ps) (he : EndsLine ps) (level : Nat) :
    ps.foldl moved (level, true) = (level, true) :=
  Prod.ext (level_foldl_of_levelAfter (hn level) true) (he.fresh_foldl level)

end CeylonFromJava.Output.Piece
