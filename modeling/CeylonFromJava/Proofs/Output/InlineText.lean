import CeylonFromJava.Output.Piece

/-! Pieces that stay on one line.

`chars ps` is the text of the pieces without indentation. Pieces that are texts only are laid out as
exactly these characters, after the indentation if they start a line. -/
namespace CeylonFromJava.Output.Piece
set_option autoImplicit false

/-- The characters of the texts among the pieces. -/
def chars : List Piece → List Char
  | [] => []
  | .text s :: ps => s.toList ++ chars ps
  | _ :: ps => chars ps

/-- Texts only: no line ends here and the indentation stays. -/
def IsInline (ps : List Piece) : Prop := ∀ p ∈ ps, ∃ s, p = .text s

/-! ## Characters -/

@[simp] theorem chars_nil : chars [] = [] := rfl

@[simp] theorem chars_text (s : String) (ps : List Piece) :
    chars (.text s :: ps) = s.toList ++ chars ps := rfl

@[simp] theorem chars_append (ps qs : List Piece) : chars (ps ++ qs) = chars ps ++ chars qs := by
  induction ps with
  | nil => rfl
  | cons p ps ih => cases p <;> simp [chars, ih]

/-! ## Inline pieces -/

@[simp] theorem isInline_nil : IsInline [] := by
  intro p hp
  cases hp

@[simp] theorem isInline_text (s : String) (ps : List Piece) :
    IsInline (.text s :: ps) ↔ IsInline ps := by
  simp [IsInline]

@[simp] theorem isInline_append (ps qs : List Piece) :
    IsInline (ps ++ qs) ↔ IsInline ps ∧ IsInline qs := by
  simp only [IsInline, List.mem_append]
  constructor
  · exact fun h => ⟨fun p hp => h p (.inl hp), fun p hp => h p (.inr hp)⟩
  · rintro ⟨hps, hqs⟩ p (hp | hp)
    · exact hps p hp
    · exact hqs p hp

/-! ## Layout -/

/-- Inside a line, inline pieces are laid out as their characters. -/
theorem join_lines_inside (level : Nat) (ps : List Piece) (h : IsInline ps) :
    (String.join (lines level false ps)).toList = chars ps := by
  induction ps with
  | nil => simp [lines]
  | cons p ps ih =>
    obtain ⟨s, rfl⟩ := h p (List.mem_cons_self ..)
    have hps := ih (fun q hq => h q (List.mem_cons_of_mem _ hq))
    by_cases hs : s.isEmpty
    · have he : s = "" := String.isEmpty_iff.mp hs
      subst he
      simpa [lines] using hps
    · simp only [String.toList_join] at hps
      simp [lines, hs, hps]

/-- At the start of a line, inline pieces with text follow the indentation. -/
theorem join_lines_fresh (level : Nat) (ps : List Piece) (h : IsInline ps) (hne : chars ps ≠ []) :
    (String.join (lines level true ps)).toList = (indentation level).toList ++ chars ps := by
  induction ps with
  | nil => exact absurd rfl hne
  | cons p ps ih =>
    obtain ⟨s, rfl⟩ := h p (List.mem_cons_self ..)
    have hps : IsInline ps := fun q hq => h q (List.mem_cons_of_mem _ hq)
    by_cases hs : s.isEmpty
    · have he : s = "" := String.isEmpty_iff.mp hs
      subst he
      simpa [lines] using ih hps (by simpa using hne)
    · have hin := join_lines_inside level ps hps
      simp only [String.toList_join] at hin
      simp [lines, hs, hin]

/-- Inline pieces that are laid out alike have the same characters. -/
theorem chars_eq_of_lines_eq (level : Nat) (fresh : Bool) {ps qs : List Piece} (hps : IsInline ps)
    (hqs : IsInline qs) (nps : chars ps ≠ []) (nqs : chars qs ≠ [])
    (h : String.join (lines level fresh ps) = String.join (lines level fresh qs)) :
    chars ps = chars qs := by
  have hl := congrArg String.toList h
  cases fresh with
  | false => rwa [join_lines_inside level ps hps, join_lines_inside level qs hqs] at hl
  | true =>
    rw [join_lines_fresh level ps hps nps, join_lines_fresh level qs hqs nqs] at hl
    exact List.append_cancel_left hl

/-! ## Pieces cut differently -/

/-- Both are laid out as the same text, wherever they stand. -/
def SameText (ps qs : List Piece) : Prop :=
  ∀ level fresh, String.join (lines level fresh ps) = String.join (lines level fresh qs)

/-- Where a text is cut makes no difference. -/
theorem sameText_cut (ps : List Piece) (s t : String) (qs : List Piece) :
    SameText (ps ++ .text (s ++ t) :: qs) (ps ++ .text s :: .text t :: qs) := by
  induction ps with
  | nil =>
    intro level fresh
    by_cases hs : s = ""
    · simp [hs, lines]
    · by_cases ht : t = ""
      · cases fresh <;> simp [hs, ht, lines]
      · cases fresh <;> simp [hs, ht, lines, String.append_assoc]
  | cons p ps ih =>
    intro level fresh
    cases p with
    | text u =>
      by_cases hu : u = ""
      · simpa [hu, lines] using ih level fresh
      · cases fresh <;> simpa [hu, lines] using ih level false
    | newline => simpa [lines] using ih level true
    | indent => simpa [lines] using ih (level + 1) fresh
    | dedent => simpa [lines] using ih (level - 1) fresh

end CeylonFromJava.Output.Piece
