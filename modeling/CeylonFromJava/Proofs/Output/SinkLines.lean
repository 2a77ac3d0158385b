import CeylonFromJava.Proofs.Output.SinkBytes

/-! The lines that a sink lays out.

Requests are cut where a line ends. `lineText` says what one line is: nothing without text, else the
indentation at its first text and then all its texts. A sink goes by the little it has kept of the
requests before; the main statement, `held_line_by_line`, is that its target holds these lines. -/
namespace CeylonFromJava.Output
set_option autoImplicit false

/-- A target that takes everything and can be flushed. -/
structure Target.NeverFails (t : Target) : Prop where
  limit : t.limit = none
  flush : t.flushFails = false

namespace Sink

namespace Request

/-! ## Lines of requests -/

/-- The text that a request adds to its line. -/
def written : Request → String
  | .put (.text s) => s
  | .put .newline | .put .indent | .put .dedent | .flush => ""

/-- The level after a request at level `n`. There is no level below zero. -/
def levelAfter (n : Nat) : Request → Nat
  | .put .indent => n + 1
  | .put .dedent => n - 1
  | .put (.text _) | .put .newline | .flush => n

def changesLevel : Request → Bool
  | .put .indent | .put .dedent => true
  | .put (.text _) | .put .newline | .flush => false

/-- The text of a line whose requests start at `level`. -/
def lineText (level : Nat) (line : List Request) : String :=
  if line.all (·.written.isEmpty) then ""
  else
    indentation ((line.takeWhile (·.written.isEmpty)).foldl levelAfter level) ++
      String.join (line.map written)

def linesFrom : Nat → List (List Request) → List String
  | _, [] => []
  | level, line :: lines => lineText level line :: linesFrom (line.foldl levelAfter level) lines

/-- The lines that requests to a new sink stand for. -/
def laidOut (requests : List Request) : List String :=
  linesFrom 0 (requests.splitOn (.put .newline))

section

variable {level : Nat} {r : Request} {line : List Request}

theorem lineText_cons_of_empty (h : r.written = "") :
    lineText level (r :: line) = lineText (levelAfter level r) line := by
  simp [lineText, h]

theorem lineText_cons_of_text (h : r.written ≠ "") :
    lineText level (r :: line) =
      indentation level ++ (r.written ++ String.join (line.map written)) := by
  simp [lineText, h]

end

/-! ## One line -/

def piece? : Request → Option Piece
  | .put piece => some piece
  | .flush => none

def pieces (requests : List Request) : List Piece := requests.filterMap piece?

@[simp] theorem pieces_nil : pieces [] = [] := rfl

@[simp] theorem pieces_put (p : Piece) (rs : List Request) : pieces (.put p :: rs) = p :: pieces rs :=
  rfl

@[simp] theorem pieces_flush (rs : List Request) : pieces (.flush :: rs) = pieces rs := rfl

@[simp] theorem pieces_append (rs rs' : List Request) :
    pieces (rs ++ rs') = pieces rs ++ pieces rs' :=
  List.filterMap_append

theorem level_foldl_moved (level : Nat) (fresh : Bool) (rs : List Request) :
    ((pieces rs).foldl Piece.moved (level, fresh)).1 = rs.foldl levelAfter level := by
  induction rs generalizing level fresh with
  | nil => rfl
  | cons r rs ih =>
    cases r with
    | flush => exact ih level fresh
    | put p => cases p <;> exact ih _ _

/-- After the first text of a line the level does not matter. -/
theorem join_lines_started (level : Nat) {line : List Request} (h : .put .newline ∉ line) :
    String.join (Piece.lines level false (pieces line)) = String.join (line.map written) := by
  induction line generalizing level with
  | nil => rfl
  | cons r line ih =>
    obtain ⟨hr, hline⟩ := List.ne_and_not_mem_of_not_mem_cons h
    cases r with
    | flush => simpa [written] using ih level hline
    | put p =>
      cases p with
      | newline => exact absurd rfl hr
      | indent | dedent => simpa [written, Piece.lines] using ih _ hline
      | text s =>
        have hrest := ih level hline
        by_cases hs : s = ""
        · simpa [written, Piece.lines, hs] using hrest
        · simp [written, Piece.lines, hs, hrest]

theorem join_lines_line (level : Nat) {line : List Request} (h : .put .newline ∉ line) :
    String.join (Piece.lines level true (pieces line)) = lineText level line := by
  induction line generalizing level with
  | nil => rfl
  | cons r line ih =>
    obtain ⟨hr, hline⟩ := List.ne_and_not_mem_of_not_mem_cons h
    cases r with
    | flush =>
      rw [lineText_cons_of_empty rfl]
      exact ih level hline
    | put p =>
      cases p with
      | newline => exact absurd rfl hr
      | indent | dedent =>
        rw [lineText_cons_of_empty rfl]
        exact ih _ hline
      | text s =>
        have hwritten : written (.put (.text s)) = s := rfl
        by_cases hs : s = ""
        · rw [lineText_cons_of_empty (hwritten.trans hs), hs]
          exact ih level hline
        · rw [lineText_cons_of_text (hwritten ▸ hs), hwritten]
          simp [Piece.lines, hs, join_lines_started level hline]

/-! ## All lines -/

/-- Requests are one line, or a line with its end and further requests. -/
theorem line_induction {P : List Request → Prop} (last : ∀ line, .put .newline ∉ line → P line)
    (more : ∀ line rest, .put .newline ∉ line → P rest → P (line ++ .put .newline :: rest))
    (rs : List Request) : P rs := by
  induction hn : rs.length using Nat.strongRecOn generalizing rs with
  | ind n ih =>
    by_cases hmem : .put .newline ∈ rs
    · obtain ⟨line, rest, rfl, hline⟩ := List.eq_append_cons_of_mem hmem
      have hshorter : rest.length < n := by
        rw [List.length_append, List.length_cons] at hn
        omega
      exact more line rest hline (ih rest.length hshorter rest rfl)
    · exact last rs hmem

section

variable (level : Nat)

theorem linesFrom_last {line : List Request} (h : .put .newline ∉ line) :
    linesFrom level (line.splitOn (.put .newline)) = [lineText level line] := by
  rw [List.splitOn_eq_singleton h]
  rfl

theorem linesFrom_more {line : List Request} (h : .put .newline ∉ line) (rest : List Request) :
    linesFrom level ((line ++ .put .newline :: rest).splitOn (.put .newline)) =
      lineText level line ::
        linesFrom (line.foldl levelAfter level) (rest.splitOn (.put .newline)) := by
  rw [List.splitOn_append_cons_self_of_not_mem h]
  rfl

theorem linesFrom_ne_nil (rs : List Request) :
    linesFrom level (rs.splitOn (.put .newline)) ≠ [] := by
  induction rs using line_induction with
  | last line hline =>
    rw [linesFrom_last level hline]
    exact List.cons_ne_nil _ _
  | more line rest hline _ =>
    rw [linesFrom_more level hline]
    exact List.cons_ne_nil _ _

theorem join_lines_eq_intercalate (rs : List Request) :
    String.join (Piece.lines level true (pieces rs)) =
      String.intercalate "\n" (linesFrom level (rs.splitOn (.put .newline))) := by
  induction rs using line_induction generalizing level with
  | last line hline =>
    rw [linesFrom_last level hline, join_lines_line level hline]
    exact String.intercalate_singleton.symm
  | more line rest hline ih =>
    obtain ⟨next, lines, hnext⟩ :=
      List.exists_cons_of_ne_nil (linesFrom_ne_nil (line.foldl levelAfter level) rest)
    have hrest := ih (line.foldl levelAfter level)
    rw [hnext] at hrest
    rw [linesFrom_more level hline, hnext, String.intercalate_cons_cons, ← hrest, pieces_append,
      pieces_put, Piece.lines_append, String.join_append, join_lines_line level hline,
      level_foldl_moved, Piece.lines, String.join_cons, String.append_assoc]

theorem not_mem_indentation : '\n' ∉ (indentation level).toList := by
  have hunit : '\n' ∉ indentUnit.toList := by decide
  simp [indentation, hunit]

theorem not_mem_lineText {line : List Request} (h : ∀ r ∈ line, '\n' ∉ r.written.toList) :
    '\n' ∉ (lineText level line).toList := by
  rw [lineText]
  split
  · simp
  · simpa [not_mem_indentation] using h

/-- Texts without line ends make lines without line ends. -/
theorem not_mem_linesFrom {rs : List Request} (h : ∀ r ∈ rs, '\n' ∉ r.written.toList) :
    ∀ line ∈ linesFrom level (rs.splitOn (.put .newline)), '\n' ∉ line.toList := by
  induction rs using line_induction generalizing level with
  | last line hline =>
    rw [linesFrom_last level hline, List.forall_mem_singleton]
    exact not_mem_lineText level h
  | more line rest hline ih =>
    obtain ⟨hfirst, hlater⟩ := List.forall_mem_append.mp h
    rw [linesFrom_more level hline, List.forall_mem_cons]
    exact ⟨not_mem_lineText level hfirst, ih _ fun r hr => hlater r (List.mem_cons_of_mem _ hr)⟩

end

/-- The lines can be seen in the text: it is cut into them where it has line ends. -/
theorem splitOn_intercalate_laidOut {rs : List Request} (h : ∀ r ∈ rs, '\n' ∉ r.written.toList) :
    (((String.intercalate "\n" (laidOut rs)).toList.splitOn '\n').map String.ofList) = laidOut rs := by
  have hlines : ∀ cs ∈ (laidOut rs).map String.toList, '\n' ∉ cs := by
    simpa [laidOut] using not_mem_linesFrom 0 h
  have hsome : (laidOut rs).map String.toList ≠ [] := by
    simpa [laidOut] using linesFrom_ne_nil 0 rs
  have hend : "\n".toList = ['\n'] := rfl
  rw [String.toList_intercalate, hend, List.splitOn_intercalate '\n' hlines hsome]
  simp

end Request

/-! ## Runs -/

open Request

/-- None of the requests fails. -/
def Completes (s : Sink) (requests : List Request) : Prop :=
  ∀ failed ∈ (s.answerAll requests).2, failed = none

/-- What the target holds after requests. -/
def heldAfter (s : Sink) (requests : List Request) : ByteArray :=
  (s.answerAll requests).1.target.held

theorem completes_cons {s : Sink} {r : Request} {rs : List Request} :
    s.Completes (r :: rs) ↔ (s.answer r).2 = none ∧ (s.answer r).1.Completes rs :=
  List.forall_mem_cons

/-- A request that does not fail adds the bytes of its piece and moves the sink. -/
theorem answer_spec {s : Sink} {r : Request} (h : (s.answer r).2 = none) :
    (s.answer r).1.target.held = s.target.held ++ Piece.bytes s.level s.fresh (pieces [r]) ∧
      ((s.answer r).1.level, (s.answer r).1.fresh) =
        (pieces [r]).foldl Piece.moved (s.level, s.fresh) := by
  cases r with
  | flush => exact ⟨ByteArray.append_empty.symm, rfl⟩
  | put p =>
    obtain ⟨htarget, hmoved⟩ := s.put_spec p
    obtain ⟨htarget, hfailed⟩ := Prod.mk.inj htarget
    refine ⟨?_, hmoved h⟩
    rw [answer, htarget]
    exact Target.held_write_of_taken (hfailed ▸ h)

theorem heldAfter_eq_bytes {s : Sink} {rs : List Request} (h : s.Completes rs) :
    s.heldAfter rs = s.target.held ++ Piece.bytes s.level s.fresh (pieces rs) := by
  induction rs generalizing s with
  | nil => exact ByteArray.append_empty.symm
  | cons r rs ih =>
    obtain ⟨hr, hrs⟩ := completes_cons.mp h
    obtain ⟨hheld, hmoved⟩ := answer_spec hr
    obtain ⟨hlevel, hfresh⟩ := Prod.mk.inj hmoved
    have hbytes : Piece.bytes s.level s.fresh (pieces (r :: rs)) =
        Piece.bytes s.level s.fresh (pieces [r]) ++
          Piece.bytes (s.answer r).1.level (s.answer r).1.fresh (pieces rs) := by
      rw [← List.singleton_append, pieces_append, Piece.bytes_append, hlevel, hfresh]
    calc s.heldAfter (r :: rs)
        = (s.answer r).1.heldAfter rs := rfl
      _ = (s.answer r).1.target.held ++
            Piece.bytes (s.answer r).1.level (s.answer r).1.fresh (pieces rs) := ih hrs
      _ = s.target.held ++ Piece.bytes s.level s.fresh (pieces (r :: rs)) := by
        rw [hheld, hbytes, ByteArray.append_assoc]

theorem answer_of_neverFails {s : Sink} (h : s.target.NeverFails) (r : Request) :
    (s.answer r).2 = none ∧ (s.answer r).1.target.NeverFails := by
  cases r with
  | flush =>
    have hflush : s.target.flush = none := by simp [Target.flush, h.flush]
    exact ⟨hflush, h⟩
  | put p =>
    have hwrite := (s.put_spec p).1
    simp only [Target.write, h.limit] at hwrite
    obtain ⟨htarget, hfailed⟩ := Prod.mk.inj hwrite
    refine ⟨hfailed, ?_⟩
    rw [answer, htarget]
    exact ⟨rfl, h.flush⟩

theorem completes_of_neverFails {s : Sink} (h : s.target.NeverFails) (rs : List Request) :
    s.Completes rs := by
  induction rs generalizing s with
  | nil =>
    intro failed hmem
    cases hmem
  | cons r rs ih =>
    obtain ⟨hr, hnext⟩ := answer_of_neverFails h r
    exact completes_cons.mpr ⟨hr, ih hnext⟩

theorem heldAfter_eq_laidOut {target : Target} {rs : List Request} (h : (onto target).Completes rs) :
    (onto target).heldAfter rs =
      target.held ++ (String.intercalate "\n" (laidOut rs)).toUTF8 := by
  rw [heldAfter_eq_bytes h, laidOut, ← join_lines_eq_intercalate]
  rfl

/-- The texts that follow the first text of a line are all that is added to the line. -/
theorem heldAfter_started {s : Sink} {before after : List Request} {text : String} (ht : text ≠ "")
    (hline : .put .newline ∉ after) (h : s.Completes (before ++ .put (.text text) :: after)) :
    s.heldAfter (before ++ .put (.text text) :: after) =
      s.target.held ++ (Piece.bytes s.level s.fresh (pieces before ++ [.text text]) ++
        (String.join (after.map written)).toUTF8) := by
  -- the first text leaves the sink inside the line
  have hinside :
      ((pieces before ++ [Piece.text text]).foldl Piece.moved (s.level, s.fresh)).2 = false := by
    simp [Piece.moved, ht]
  have hpieces : pieces (before ++ .put (.text text) :: after) =
      (pieces before ++ [.text text]) ++ pieces after := by simp
  have hafter : ∀ level, Piece.bytes level false (pieces after) =
      (String.join (after.map written)).toUTF8 := by
    intro level
    rw [Piece.bytes, join_lines_started level hline]
  rw [heldAfter_eq_bytes h, hpieces, Piece.bytes_append, hinside, hafter]

/-- Changes of the level write nothing. -/
theorem join_written_filter (rs : List Request) :
    String.join ((rs.filter (!·.changesLevel)).map written) = String.join (rs.map written) := by
  induction rs with
  | nil => rfl
  | cons r rs ih =>
    cases r with
    | flush => simpa [changesLevel, written] using ih
    | put p => cases p <;> simpa [changesLevel, written] using ih

/-- **The target holds the lines of the requests.** On a target that never fails no request does. Then
the lines are cut where the requests end a line, and if no text has a line end of its own, the text is
cut there too. What changes the level after the first text of a line does not change the line. -/
theorem held_line_by_line (target : Target) :
    (target.NeverFails → ∀ requests, (onto target).Completes requests) ∧
    (∀ requests, (onto target).Completes requests →
      let text := String.intercalate "\n" (laidOut requests)
      (onto target).heldAfter requests = target.held ++ text.toUTF8 ∧
      ((∀ r ∈ requests, '\n' ∉ r.written.toList) →
        (text.toList.splitOn '\n').map String.ofList = laidOut requests)) ∧
    (∀ before text after after', text ≠ "" →
      .put .newline ∉ after → .put .newline ∉ after' →
      after.filter (!·.changesLevel) = after'.filter (!·.changesLevel) →
      let requests := before ++ .put (.text text) :: after
      let requests' := before ++ .put (.text text) :: after'
      (onto target).Completes requests → (onto target).Completes requests' →
        (onto target).heldAfter requests = (onto target).heldAfter requests') := by
  refine ⟨fun h requests => completes_of_neverFails h requests, fun requests h => ?_, ?_⟩
  · exact ⟨heldAfter_eq_laidOut h, splitOn_intercalate_laidOut⟩
  · intro before text after after' ht hafter hafter' hsame requests requests' h h'
    have htexts : String.join (after.map written) = String.join (after'.map written) := by
      rw [← join_written_filter after, hsame, join_written_filter]
    rw [heldAfter_started ht hafter h, heldAfter_started ht hafter' h', htexts]

/-- An empty text and a level that is taken back twice come before the first line has ended. -/
theorem held_line_by_line_lazy :
    let requests : List Request := [.put .indent, .put (.text ""), .put .dedent, .put .dedent,
      .put .indent, .put .newline, .put (.text "a"), .put .indent, .flush, .put (.text "b"),
      .put .newline, .put (.text "c")]
    Target.unlimited.NeverFails ∧ (∀ r ∈ requests, '\n' ∉ r.written.toList) ∧
      laidOut requests = ["", "    ab", "        c"] ∧
      (onto .unlimited).heldAfter requests = "\n    ab\n        c".toUTF8 ∧
      (onto .unlimited).heldAfter [.put .indent, .put (.text "a"), .put .dedent, .put (.text "b")] =
        (onto .unlimited).heldAfter [.put .indent, .put (.text "a"), .put (.text "b")] := by
  have hnever : Target.unlimited.NeverFails := ⟨rfl, rfl⟩
  obtain ⟨hcompletes, hheld, hlevel⟩ := held_line_by_line .unlimited
  refine ⟨hnever, by decide, by decide, ?_, ?_⟩
  · rw [(hheld _ (hcompletes hnever _)).1]
    decide
  · exact hlevel [.put .indent] "a" [.put .dedent, .put (.text "b")] [.put (.text "b")] (by decide)
      (by decide) (by decide) (by decide) (hcompletes hnever _) (hcompletes hnever _)

end Sink

end CeylonFromJava.Output
