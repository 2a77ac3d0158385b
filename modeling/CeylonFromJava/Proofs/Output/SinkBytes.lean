import CeylonFromJava.Output.Sink

/-! Putting pieces is one write.

A sink writes a piece at a time and stops at the first failure. Since a target takes as much as it
has room for, the writes add up: `putAll` does to the target what one write of all the bytes does,
`target_putAll`. -/
namespace CeylonFromJava.Output
set_option autoImplicit false

/-! ## Writes that follow each other -/

namespace Target

section

variable {held : ByteArray} {n : Nat} {refusal : Refusal} {flushFails : Bool}

theorem write_of_le {bytes : ByteArray} (h : bytes.size ≤ n - held.size) :
    write ⟨held, some n, refusal, flushFails⟩ bytes =
      (⟨held ++ bytes, some n, refusal, flushFails⟩, none) := by
  simp [write, h]

theorem write_of_lt {bytes : ByteArray} (h : n - held.size < bytes.size) :
    write ⟨held, some n, refusal, flushFails⟩ bytes =
      (⟨held ++ bytes.extract 0 (n - held.size), some n, refusal, flushFails⟩,
        some refusal.error) := by
  simp [write, Nat.not_le.mpr h]

end

/-- Two writes, the second one only if the first has not failed. -/
theorem write_append (t : Target) (a b : ByteArray) :
    t.write (a ++ b) =
      match t.write a with
      | (t', none) => t'.write b
      | (t', some e) => (t', some e) := by
  obtain ⟨held, limit, refusal, flushFails⟩ := t
  cases limit with
  | none => simp [write, ByteArray.append_assoc]
  | some n =>
    have hsize : (a ++ b).size = a.size + b.size := ByteArray.size_append
    have hheld : (held ++ a).size = held.size + a.size := ByteArray.size_append
    by_cases ha : a.size ≤ n - held.size
    · have hall : a.extract 0 (n - held.size) = a := by
        rw [← Nat.max_eq_left ha, ByteArray.extract_zero_max_size]
      rw [write_of_le ha]
      show _ = write ⟨held ++ a, some n, refusal, flushFails⟩ b
      by_cases hb : b.size ≤ n - (held ++ a).size
      · rw [write_of_le hb, write_of_le (by omega), ByteArray.append_assoc]
      · rw [write_of_lt (Nat.not_le.mp hb), write_of_lt (by omega), ByteArray.extract_append, hall,
          Nat.zero_sub, hheld, Nat.sub_sub, ByteArray.append_assoc]
    · have hnone : n - held.size - a.size = 0 := by omega
      rw [write_of_lt (Nat.not_le.mp ha), write_of_lt (by omega), ByteArray.extract_append,
        Nat.zero_sub, hnone, ByteArray.extract_same, ByteArray.append_empty]

theorem write_empty (t : Target) : t.write .empty = (t, none) := by
  obtain ⟨held, limit, refusal, flushFails⟩ := t
  cases limit <;> simp [write, ByteArray.append_empty]

theorem held_write_of_taken {t : Target} {bytes : ByteArray}
    (h : (t.write bytes).2 = none) : (t.write bytes).1.held = t.held ++ bytes := by
  obtain ⟨held, _ | limit, refusal, flushFails⟩ := t
  · rfl
  · rcases Nat.lt_or_ge (limit - held.size) bytes.size with hlt | hle
    · rw [write_of_lt hlt] at h
      cases h
    · rw [write_of_le hle]

end Target

/-! ## Bytes of pieces -/

namespace Piece

/-- The level and whether a line starts, after a piece. -/
def moved : Nat × Bool → Piece → Nat × Bool
  | (level, fresh), .text s => (level, fresh && s.isEmpty)
  | (level, _), .newline => (level, true)
  | (level, fresh), .indent => (level + 1, fresh)
  | (level, fresh), .dedent => (level - 1, fresh)

def bytes (level : Nat) (fresh : Bool) (ps : List Piece) : ByteArray :=
  (String.join (lines level fresh ps)).toUTF8

theorem lines_cons (level : Nat) (fresh : Bool) (p : Piece) (ps : List Piece) :
    lines level fresh (p :: ps) =
      lines level fresh [p] ++ lines (moved (level, fresh) p).1 (moved (level, fresh) p).2 ps := by
  cases p with
  | text s =>
    by_cases hs : s.isEmpty
    · simp [lines, moved, hs]
    · cases fresh <;> simp [lines, moved, hs]
  | newline | indent | dedent => simp [lines, moved]

theorem lines_append (level : Nat) (fresh : Bool) (ps qs : List Piece) :
    lines level fresh (ps ++ qs) = lines level fresh ps ++
      lines (ps.foldl moved (level, fresh)).1 (ps.foldl moved (level, fresh)).2 qs := by
  induction ps generalizing level fresh with
  | nil => simp [lines]
  | cons p ps ih =>
    rw [List.cons_append, lines_cons, lines_cons level fresh p ps, ih, List.append_assoc,
      List.foldl_cons]

theorem bytes_append (level : Nat) (fresh : Bool) (ps qs : List Piece) :
    bytes level fresh (ps ++ qs) = bytes level fresh ps ++
      bytes (ps.foldl moved (level, fresh)).1 (ps.foldl moved (level, fresh)).2 qs := by
  simp [bytes, lines_append]

theorem bytes_cons (level : Nat) (fresh : Bool) (p : Piece) (ps : List Piece) :
    bytes level fresh (p :: ps) =
      bytes level fresh [p] ++ bytes (moved (level, fresh) p).1 (moved (level, fresh) p).2 ps :=
  bytes_append level fresh [p] ps

/-- A text that is not empty or the end of a line. -/
def IsVisible : Piece → Prop
  | .text s => s ≠ ""
  | .newline => True
  | .indent | .dedent => False

/-- Where the pieces start does not matter for whether there are bytes. -/
theorem size_bytes_pos (level : Nat) (fresh : Bool) (ps : List Piece) :
    0 < (bytes level fresh ps).size ↔ ∃ p ∈ ps, p.IsVisible := by
  induction ps generalizing level fresh with
  | nil => simp [bytes, lines]
  | cons p ps ih =>
    have hone : 0 < (bytes level fresh [p]).size ↔ p.IsVisible := by
      cases p with
      | text s =>
        by_cases hs : s = ""
        · simp [bytes, lines, IsVisible, hs]
        · cases fresh <;> simp [bytes, lines, IsVisible, hs, Nat.pos_iff_ne_zero]
      | newline => simp [bytes, lines, IsVisible]; decide
      | indent | dedent => simp [bytes, lines, IsVisible]
    have hrest := ih (moved (level, fresh) p).1 (moved (level, fresh) p).2
    rw [bytes_cons, ByteArray.size_append, Nat.add_pos_iff_pos_or_pos, hone, hrest]
    simp

end Piece

/-! ## Putting pieces -/

namespace Sink

/-- A piece is put with one write, and moves the sink unless it fails. -/
theorem put_spec (s : Sink) (p : Piece) :
    ((s.put p).1.target, (s.put p).2) = s.target.write (Piece.bytes s.level s.fresh [p]) ∧
      ((s.put p).2 = none →
        ((s.put p).1.level, (s.put p).1.fresh) = Piece.moved (s.level, s.fresh) p) := by
  obtain ⟨target, level, fresh⟩ := s
  cases p with
  | indent | dedent => simp [put, Piece.bytes, Piece.lines, Piece.moved, Target.write_empty]
  | newline =>
    refine ⟨by simp [put, newline, Piece.bytes, Piece.lines], ?_⟩
    intro h
    have hw : (target.write "\n".toByteArray).2 = none := h
    simp [put, newline, Piece.moved, hw]
  | text text =>
    by_cases ht : text = ""
    · simp [put, write, Piece.bytes, Piece.lines, Piece.moved, Target.write_empty, ht]
    · cases fresh with
      | false => simp [put, write, Piece.bytes, Piece.lines, Piece.moved, ht]
      | true =>
        -- the indentation is a write of its own
        have hbytes : Piece.bytes level true [.text text] =
            (indentation level).toByteArray ++ text.toByteArray := by
          simp [Piece.bytes, Piece.lines, ht]
        rw [hbytes, Target.write_append]
        rcases hw : target.write (indentation level).toByteArray with ⟨target', _ | e⟩
        · simp [put, write, Piece.moved, ht, hw]
        · simp [put, write, ht, hw]

/-- All pieces are put as if with one write. -/
theorem target_putAll (s : Sink) (ps : List Piece) :
    ((s.putAll ps).1.target, (s.putAll ps).2) = s.target.write (Piece.bytes s.level s.fresh ps) := by
  induction ps generalizing s with
  | nil => simp [putAll, Piece.bytes, Piece.lines, Target.write_empty]
  | cons p ps ih =>
    obtain ⟨htarget, hmoved⟩ := s.put_spec p
    rw [Piece.bytes_cons, Target.write_append, ← htarget, putAll]
    rcases hp : s.put p with ⟨s', _ | e⟩
    · rw [hp] at hmoved
      have hpos := hmoved rfl
      simp only [← hpos]
      exact ih s'
    · rfl

/-- Where the sink stands after pieces that did not fail. -/
theorem position_putAll (s : Sink) (ps : List Piece) (h : (s.putAll ps).2 = none) :
    ((s.putAll ps).1.level, (s.putAll ps).1.fresh) = ps.foldl Piece.moved (s.level, s.fresh) := by
  induction ps generalizing s with
  | nil => rfl
  | cons p ps ih =>
    obtain ⟨_, hmoved⟩ := s.put_spec p
    rw [putAll] at h ⊢
    rcases hp : s.put p with ⟨s', _ | e⟩
    · rw [hp] at h hmoved
      rw [ih s' h, List.foldl_cons, ← hmoved rfl]
    · rw [hp] at h
      cases h

end Sink

end CeylonFromJava.Output
