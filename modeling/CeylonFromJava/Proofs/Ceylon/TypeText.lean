import CeylonFromJava.Ceylon.Name
import CeylonFromJava.Ceylon.Ty

/-! Types can be read back from their text.

A reader of types is given fuel; `Settles` says that it gives its answer with all large fuel. The
main statement, `settles_readTy`: the reader finds in the text of a type exactly this type, and
leaves what follows. -/
namespace CeylonFromJava.Ceylon
set_option autoImplicit false

/-! ## Words -/

namespace Name

/-- A letter; every character beyond ASCII counts as one. -/
def isLetter (c : Char) : Bool := c.isAlpha || 0x80 ≤ c.toNat

def isWordChar (c : Char) : Bool := isLetter c || c.isDigit || c == '_'

/-- Letters, digits and low lines, a letter first. -/
def isIdentifier (name : String) : Bool :=
  match name.toList with
  | [] => false
  | c :: cs => isLetter c && cs.all isWordChar

theorem isWordChar_of_isLetter {c : Char} (h : isLetter c = true) : isWordChar c = true := by
  simp [isWordChar, h]

theorem isDigit_of_isLetter {c : Char} (h : isLetter c = true) : c.isDigit = false := by
  rw [Bool.eq_false_iff]
  intro hd
  have hdigit : 48 ≤ c.val.toNat ∧ c.val.toNat ≤ 57 := by
    have hbounds : (decide (c.val ≥ 48) && decide (c.val ≤ 57)) = true := hd
    simpa [UInt32.le_iff_toNat_le] using hbounds
  have hletter : (65 ≤ c.val.toNat ∧ c.val.toNat ≤ 90 ∨ 97 ≤ c.val.toNat ∧ c.val.toNat ≤ 122) ∨
      128 ≤ c.val.toNat := by
    have hbounds : ((decide (c.val ≥ 65 ∧ c.val ≤ 90) ||
        (decide (c.val ≥ 97) && decide (c.val ≤ 122))) || decide (128 ≤ c.val.toNat)) = true := h
    simpa [UInt32.le_iff_toNat_le] using hbounds
  omega

theorem exists_letter {name : String} (h : isIdentifier name = true) :
    ∃ c cs, name.toList = c :: cs ∧ isLetter c = true := by
  unfold isIdentifier at h
  split at h
  · cases h
  · next c cs hc =>
    rw [Bool.and_eq_true] at h
    exact ⟨c, cs, hc, h.1⟩

theorem isWordChar_of_isIdentifier {name : String} (h : isIdentifier name = true) :
    ∀ c ∈ name.toList, isWordChar c = true := by
  unfold isIdentifier at h
  split at h
  · cases h
  · next c cs hc =>
    rw [Bool.and_eq_true, List.all_eq_true] at h
    rw [hc]
    intro d hd
    rcases List.mem_cons.mp hd with rfl | hd
    · exact isWordChar_of_isLetter h.1
    · exact h.2 d hd

/-- No word goes on here. -/
def EndsWord (cs : List Char) : Prop := ∀ c, cs.head? = some c → isWordChar c = false

theorem endsWord_cons {c : Char} (h : isWordChar c = false) (cs : List Char) :
    EndsWord (c :: cs) := by
  intro d hd
  cases hd
  exact h

theorem takeWhile_exact {p : Char → Bool} {w rest : List Char} (hw : ∀ c ∈ w, p c = true)
    (hr : ∀ c, rest.head? = some c → p c = false) : (w ++ rest).takeWhile p = w := by
  rw [List.takeWhile_append_of_pos hw]
  cases rest with
  | nil => simp
  | cons c cs => simp [hr c rfl]

theorem takeWhile_word {w rest : List Char} (hw : ∀ c ∈ w, isWordChar c = true)
    (hr : EndsWord rest) : (w ++ rest).takeWhile isWordChar = w :=
  takeWhile_exact hw hr

theorem dropWhile_word {w rest : List Char} (hw : ∀ c ∈ w, isWordChar c = true)
    (hr : EndsWord rest) : (w ++ rest).dropWhile isWordChar = rest := by
  rw [List.dropWhile_append_of_pos hw]
  cases rest with
  | nil => rfl
  | cons c cs => simp [hr c rfl]

end Name

open Name

/-! ## Readers with fuel -/

/-- With all large fuel the reader answers `r`. -/
def Settles {α : Type} (read : Nat → Option α) (r : α) : Prop :=
  ∃ n, ∀ m, n ≤ m → read m = some r

namespace Settles

variable {α : Type} {read : Nat → Option α}

theorem unique {r s : α} (hr : Settles read r) (hs : Settles read s) : r = s := by
  obtain ⟨n, hn⟩ := hr
  obtain ⟨m, hm⟩ := hs
  have h := hn (max n m) (Nat.le_max_left n m)
  rw [hm (max n m) (Nat.le_max_right n m)] at h
  exact (Option.some.inj h).symm

/-- A reader that answers after one more step. -/
theorem of_succ {r : α} (h : ∃ n, ∀ m, n ≤ m → read (m + 1) = some r) : Settles read r := by
  obtain ⟨n, hn⟩ := h
  refine ⟨n + 1, ?_⟩
  intro m hm
  obtain ⟨m, rfl⟩ : ∃ k, m = k + 1 := ⟨m - 1, by omega⟩
  exact hn m (by omega)

/-- One step that uses the answers of other readers. -/
theorem step {β : Type} {first : Nat → Option β} {b : β} {r : α} (h : Settles first b)
    (use : ∀ m, first m = some b → read (m + 1) = some r) : Settles read r := by
  obtain ⟨n, hn⟩ := h
  exact of_succ ⟨n, fun m hm => use m (hn m hm)⟩

theorem step₂ {β γ : Type} {first : Nat → Option β} {second : Nat → Option γ} {b : β} {c : γ} {r : α}
    (h : Settles first b) (h' : Settles second c)
    (use : ∀ m, first m = some b → second m = some c → read (m + 1) = some r) :
    Settles read r := by
  obtain ⟨n, hn⟩ := h
  obtain ⟨k, hk⟩ := h'
  exact of_succ ⟨max n k, fun m hm => use m (hn m (by omega)) (hk m (by omega))⟩

theorem step₃ {β γ δ : Type} {first : Nat → Option β} {second : Nat → Option γ}
    {third : Nat → Option δ} {b : β} {c : γ} {d : δ} {r : α} (h : Settles first b)
    (h' : Settles second c) (h'' : Settles third d)
    (use : ∀ m, first m = some b → second m = some c → third m = some d → read (m + 1) = some r) :
    Settles read r := by
  obtain ⟨n, hn⟩ := h
  obtain ⟨k, hk⟩ := h'
  obtain ⟨l, hl⟩ := h''
  exact of_succ ⟨max n (max k l),
    fun m hm => use m (hn m (by omega)) (hk m (by omega)) (hl m (by omega))⟩

end Settles

/-! ## Reading types -/

mutual
/-- Reads names with arguments, with points between them. -/
def readTy : Nat → List Char → Option (Ty × List Char)
  | 0, _ => none
  | n + 1, cs =>
    match readArguments n (cs.dropWhile isWordChar) with
    | none => none
    | some (args, '.' :: cs') =>
      match readTy n cs' with
      | none => none
      | some (segments, rest) =>
        some (⟨String.ofList (cs.takeWhile isWordChar), args⟩ :: segments, rest)
    | some (args, rest) => some ([⟨String.ofList (cs.takeWhile isWordChar), args⟩], rest)

/-- Reads arguments between angle brackets, if there are any. -/
def readArguments : Nat → List Char → Option (List Argument × List Char)
  | 0, _ => none
  | n + 1, '<' :: cs => readArgumentList n cs
  | _ + 1, cs => some ([], cs)

/-- Reads arguments with commas between them, and the bracket after them. -/
def readArgumentList : Nat → List Char → Option (List Argument × List Char)
  | 0, _ => none
  | n + 1, cs =>
    match readArgument n cs with
    | some (arg, ',' :: ' ' :: cs) =>
      match readArgumentList n cs with
      | none => none
      | some (args, rest) => some (arg :: args, rest)
    | some (arg, '>' :: rest) => some ([arg], rest)
    | _ => none

/-- Reads one argument. A word before a blank is its variance. -/
def readArgument : Nat → List Char → Option (Argument × List Char)
  | 0, _ => none
  | n + 1, cs =>
    match cs.dropWhile isWordChar with
    | ' ' :: cs' =>
      match readTy n cs' with
      | none => none
      | some (ty, rest) =>
        some (⟨if cs.takeWhile isWordChar = ['i', 'n'] then .contravariant else .covariant, ty⟩, rest)
    | _ =>
      match readTy n cs with
      | none => none
      | some (ty, rest) => some (⟨.exact, ty⟩, rest)
end

/-! ## Types of identifiers -/

/-- A type with a name, all of its names being identifiers, those of its arguments too. -/
inductive Ty.Named : Ty → Prop
  | last {name : String} {args : List Argument} :
    isIdentifier name = true → (∀ a ∈ args, Named a.ty) → Named [⟨name, args⟩]
  | within {name : String} {args : List Argument} {segments : List Segment} :
    isIdentifier name = true → (∀ a ∈ args, Named a.ty) → Named segments →
      Named (⟨name, args⟩ :: segments)

/-- Nothing that could belong to a type goes on here. -/
def EndsType (cs : List Char) : Prop :=
  ∀ c, cs.head? = some c → isWordChar c = false ∧ c ≠ '<' ∧ c ≠ '.'

theorem EndsType.endsWord {cs : List Char} (h : EndsType cs) : EndsWord cs :=
  fun c hc => (h c hc).1

theorem endsType_cons {c : Char} (h : isWordChar c = false) (h' : c ≠ '<') (h'' : c ≠ '.')
    (cs : List Char) : EndsType (c :: cs) := by
  intro d hd
  cases hd
  exact ⟨h, h', h''⟩

/-! ## Reading what was written -/

/-- The reader finds the type in its text, whatever follows. -/
def Ty.ReadsBack (ty : Ty) : Prop :=
  ∀ rest, EndsType rest → Settles (readTy · ((segmentsText ty).toList ++ rest)) (ty, rest)

def Argument.chars (a : Argument) : List Char := a.variance.text.toList ++ (segmentsText a.ty).toList

theorem bracketedText_cons (a : Argument) (args : List Argument) :
    (bracketedText (a :: args)).toList = '<' :: (a.chars ++ ((furtherText args).toList ++ ['>'])) := by
  obtain ⟨variance, ty⟩ := a
  simp [bracketedText, Argument.chars]

theorem furtherText_cons (a : Argument) (args : List Argument) :
    (furtherText (a :: args)).toList = ',' :: ' ' :: (a.chars ++ (furtherText args).toList) := by
  obtain ⟨variance, ty⟩ := a
  simp [furtherText, Argument.chars]

/-- After its first word the text of a type has a bracket or a point, or it ends. -/
theorem Ty.Named.exists_word {ty : Ty} (h : ty.Named) :
    ∃ w tail, (segmentsText ty).toList = w ++ tail ∧ (∀ c ∈ w, isWordChar c = true) ∧
      ∀ c, tail.head? = some c → c = '<' ∨ c = '.' := by
  cases h with
  | @last name args hn _ =>
    refine ⟨name.toList, (bracketedText args).toList, by simp [segmentsText],
      isWordChar_of_isIdentifier hn, ?_⟩
    intro c hc
    cases args with
    | nil => simp [bracketedText] at hc
    | cons a args =>
      rw [bracketedText_cons] at hc
      exact .inl (Option.some.inj hc).symm
  | @within name args segments hn _ hs =>
    cases segments with
    | nil => cases hs
    | cons s ss =>
      refine ⟨name.toList, (bracketedText args).toList ++ '.' :: (segmentsText (s :: ss)).toList,
        by simp [segmentsText], isWordChar_of_isIdentifier hn, ?_⟩
      intro c hc
      cases args with
      | nil =>
        simp only [bracketedText, String.toList_empty, List.nil_append] at hc
        exact .inr (Option.some.inj hc).symm
      | cons a args =>
        rw [bracketedText_cons] at hc
        exact .inl (Option.some.inj hc).symm

theorem settles_readArgument {a : Argument} (hn : Ty.Named a.ty) (h : Ty.ReadsBack a.ty)
    {rest : List Char} (hr : EndsType rest) (hb : rest.head? ≠ some ' ') :
    Settles (readArgument · (a.chars ++ rest)) (a, rest) := by
  obtain ⟨variance, ty⟩ := a
  refine (h rest hr).step ?_
  intro m hm
  -- A variance is a word before a blank; without one, no blank follows the first word.
  cases variance with
  | exact =>
    obtain ⟨w, tail, ht, hw, htail⟩ := hn.exists_word
    have hend : EndsWord (tail ++ rest) := by
      intro c hc
      cases tail with
      | nil => exact hr.endsWord c (by simpa using hc)
      | cons d tail =>
        obtain rfl : d = c := by simpa using hc
        rcases htail d rfl with rfl | rfl <;> decide
    have hblank : ∀ cs, tail ++ rest ≠ ' ' :: cs := by
      intro cs hcs
      cases tail with
      | nil =>
        rw [List.nil_append] at hcs
        exact hb (by rw [hcs]; rfl)
      | cons d tail =>
        obtain ⟨rfl, -⟩ := List.cons.inj hcs
        rcases htail _ rfl with h' | h' <;> cases h'
    have hdrop : ((segmentsText ty).toList ++ rest).dropWhile isWordChar = tail ++ rest := by
      rw [ht, List.append_assoc, dropWhile_word hw hend]
    simp only [Argument.chars, Variance.text, String.toList_empty, List.nil_append, readArgument,
      hdrop]
    simp [hm]
  | covariant => simp [Argument.chars, Variance.text, readArgument, isWordChar, isLetter, hm]
  | contravariant => simp [Argument.chars, Variance.text, readArgument, isWordChar, isLetter, hm]

theorem settles_readArgumentList {a : Argument} {args : List Argument}
    (hn : ∀ b ∈ a :: args, Ty.Named b.ty) (h : ∀ b ∈ a :: args, Ty.ReadsBack b.ty)
    (rest : List Char) :
    Settles (readArgumentList · (a.chars ++ ((furtherText args).toList ++ '>' :: rest)))
      (a :: args, rest) := by
  induction args generalizing a with
  | nil =>
    have hend : EndsType ('>' :: rest) := endsType_cons (by decide) (by decide) (by decide) rest
    have ha := settles_readArgument (hn a (List.mem_cons_self ..)) (h a (List.mem_cons_self ..)) hend
      (by simp)
    refine ha.step ?_
    intro m hm
    simp [furtherText, readArgumentList, hm]
  | cons b args ih =>
    have hargs := ih (fun c hc => hn c (List.mem_cons_of_mem _ hc))
      (fun c hc => h c (List.mem_cons_of_mem _ hc))
    have hend : EndsType (',' :: ' ' :: (b.chars ++ ((furtherText args).toList ++ '>' :: rest))) :=
      endsType_cons (by decide) (by decide) (by decide) _
    have ha := settles_readArgument (hn a (List.mem_cons_self ..)) (h a (List.mem_cons_self ..)) hend
      (by simp)
    refine ha.step₂ hargs ?_
    intro m hm hm'
    simp [furtherText_cons, readArgumentList, hm, hm']

theorem settles_readArguments {args : List Argument} (hn : ∀ a ∈ args, Ty.Named a.ty)
    (h : ∀ a ∈ args, Ty.ReadsBack a.ty) (rest : List Char) (hb : rest.head? ≠ some '<') :
    Settles (readArguments · ((bracketedText args).toList ++ rest)) (args, rest) := by
  cases args with
  | nil =>
    refine Settles.of_succ ⟨0, fun m _ => ?_⟩
    have hne : ∀ cs, rest ≠ '<' :: cs := fun cs e => hb (by rw [e]; rfl)
    simp only [bracketedText, String.toList_empty, List.nil_append]
    rw [readArguments]
    exact hne
  | cons a args =>
    refine (settles_readArgumentList hn h rest).step ?_
    intro m hm
    rw [bracketedText_cons, List.cons_append, readArguments, ← hm]
    simp only [List.append_assoc, List.singleton_append]

/-- **The text of a type is read as this type.** -/
theorem settles_readTy {ty : Ty} (h : ty.Named) : ty.ReadsBack := by
  induction h with
  | @last name args hname hargs ih =>
    intro rest hr
    have hsub := settles_readArguments hargs ih rest (fun hc => (hr '<' hc).2.1 rfl)
    have hword := isWordChar_of_isIdentifier hname
    have hend : EndsWord ((bracketedText args).toList ++ rest) := by
      cases args with
      | nil => simpa [bracketedText] using hr.endsWord
      | cons a args =>
        rw [bracketedText_cons]
        exact endsWord_cons (by decide) _
    have hpoint : ∀ cs, rest ≠ '.' :: cs := fun cs e => (hr '.' (by rw [e]; rfl)).2.2 rfl
    refine hsub.step ?_
    intro m hm
    simp only [segmentsText, String.toList_append, List.append_assoc, readTy,
      dropWhile_word hword hend, takeWhile_word hword hend, hm, String.ofList_toList]
  | @within name args segments hname hargs hsegments ih ihs =>
    intro rest hr
    have hsub := settles_readArguments hargs ih
      ('.' :: ((segmentsText segments).toList ++ rest)) (by simp)
    have hword := isWordChar_of_isIdentifier hname
    have hend : EndsWord ((bracketedText args).toList ++
        '.' :: ((segmentsText segments).toList ++ rest)) := by
      cases args with
      | nil =>
        simp only [bracketedText, String.toList_empty, List.nil_append]
        exact endsWord_cons (by decide) _
      | cons a args =>
        rw [bracketedText_cons]
        exact endsWord_cons (by decide) _
    have htext : (segmentsText (⟨name, args⟩ :: segments)).toList ++ rest =
        name.toList ++ ((bracketedText args).toList ++
          '.' :: ((segmentsText segments).toList ++ rest)) := by
      cases segments with
      | nil => cases hsegments
      | cons s ss => simp [segmentsText]
    refine hsub.step₂ (ihs rest hr) ?_
    intro m hm hm'
    simp only [htext, readTy, dropWhile_word hword hend, takeWhile_word hword hend, hm, hm',
      String.ofList_toList]

end CeylonFromJava.Ceylon
