import CeylonFromJava.Proofs.Json.ScanText

/-! Literals do not depend on what stands behind them.

A string ends at its quote. A number ends where the text does not go on with it, and goes on with
nothing that can stand behind a value. So a literal that is scanned inside a text is the one that is
scanned when it stands alone. -/
namespace CeylonFromJava.Json
set_option autoImplicit false

/-! ## Strings -/

/-- Where a skipper stands when the reader stands there. -/
def LiteralState.skipping : LiteralState → SkipState
  | .plain | .pairBackslash _ => .plain
  | .escape | .pairLetter _ => .escape
  | .code _ left _ => .code left

/-- How many characters are left at least. -/
def SkipState.least : SkipState → Nat
  | .plain => 1
  | .escape => 2
  | .code left => left + 2

theorem endsInsideCode_append {w : List Char} (h : 4 ≤ w.length) (rest : List Char) :
    endsInsideCode (w ++ rest) = false := by
  match w, h with
  | a :: b :: c :: d :: w, _ =>
    have ha := Char.utf8Size_pos a
    have hb := Char.utf8Size_pos b
    have hc := Char.utf8Size_pos c
    have hd := Char.utf8Size_pos d
    simp only [endsInsideCode, List.cons_append, List.take, List.foldl, decide_eq_false_iff_not]
    omega

/-- A literal ends where its quote is, whatever follows. -/
theorem skipStringFrom_split {cs rest : List Char} {st : SkipState}
    (h : skipStringFrom st cs = .ok rest) :
    ∃ w, cs = w ++ rest ∧ st.least ≤ w.length ∧
      ∀ rest', skipStringFrom st (w ++ rest') = .ok rest' := by
  fun_induction skipStringFrom st cs with
  | case1 => cases h
  | case2 cs =>
    cases h
    exact ⟨['"'], rfl, Nat.le_refl 1, fun rest' => rfl⟩
  | case3 cs hq ih =>
    obtain ⟨w, rfl, hw, hskip⟩ := ih h
    refine ⟨'\\' :: w, rfl, by simp [SkipState.least], fun rest' => ?_⟩
    simp [skipStringFrom, hskip]
  | case4 => cases h
  | case5 c cs hq hb hcontrol ih =>
    obtain ⟨w, rfl, hw, hskip⟩ := ih h
    refine ⟨c :: w, rfl, by simp [SkipState.least], fun rest' => ?_⟩
    simp [skipStringFrom, hq, hb, hcontrol, hskip]
  | case6 c cs hshort ih =>
    obtain ⟨w, rfl, hw, hskip⟩ := ih h
    refine ⟨c :: w, rfl, by simpa [SkipState.least] using hw, fun rest' => ?_⟩
    simp [skipStringFrom, hshort, hskip]
  | case7 => cases h
  | case8 => cases h
  | case9 c cs hshort hu hends ih =>
    obtain ⟨w, rfl, hw, hskip⟩ := ih h
    have hlength : 4 ≤ w.length := Nat.le_trans (by decide) hw
    refine ⟨c :: w, rfl, by simp [SkipState.least]; omega, fun rest' => ?_⟩
    simp [skipStringFrom, hshort, hu, endsInsideCode_append hlength, hskip]
  | case10 => cases h
  | case11 c cs v left hv ih =>
    obtain ⟨w, rfl, hw, hskip⟩ := ih h
    refine ⟨c :: w, rfl, by simpa [SkipState.least] using hw, fun rest' => ?_⟩
    simp [skipStringFrom, hv, hskip]
  | case12 c cs v hv ih =>
    obtain ⟨w, rfl, hw, hskip⟩ := ih h
    refine ⟨c :: w, rfl, by simpa [SkipState.least] using hw, fun rest' => ?_⟩
    simp [skipStringFrom, hv, hskip]

theorem prepend_eq_ok {c : Char} {result : Except Fault (List Char × List Char)}
    {text rest : List Char} (h : prepend c result = .ok (text, rest)) :
    ∃ tail, result = .ok (tail, rest) := by
  cases result with
  | error fault => cases h
  | ok p =>
    cases h
    exact ⟨p.1, rfl⟩

/-- What can be read can be skipped. -/
theorem skipStringFrom_of_read {cs text rest : List Char} {st : LiteralState}
    (h : readStringFrom st cs = .ok (text, rest)) : skipStringFrom st.skipping cs = .ok rest := by
  fun_induction readStringFrom st cs generalizing text with
  | case1 => cases h
  | case2 cs =>
    cases h
    rfl
  | case3 cs hq ih => simpa [LiteralState.skipping, skipStringFrom] using ih h
  | case4 => cases h
  | case5 c cs hq hb hcontrol ih =>
    obtain ⟨tail, htail⟩ := prepend_eq_ok h
    simpa [LiteralState.skipping, skipStringFrom, hq, hb, hcontrol] using ih htail
  | case6 c cs d hd ih =>
    obtain ⟨tail, htail⟩ := prepend_eq_ok h
    simpa [LiteralState.skipping, skipStringFrom, hd] using ih htail
  | case9 c cs hshort hu hends ih =>
    simpa [LiteralState.skipping, skipStringFrom, hshort, hu, hends] using ih h
  | case11 _ _ c cs d hd =>
    rename_i ih
    simpa [LiteralState.skipping, skipStringFrom, hd] using ih h
  | case13 _ c cs d hd =>
    rename_i ih
    simpa [LiteralState.skipping, skipStringFrom, hd] using ih h
  | case14 _ c cs d hd =>
    rename_i ih
    obtain ⟨tail, htail⟩ := prepend_eq_ok h
    simpa [LiteralState.skipping, skipStringFrom, hd] using ih htail
  | case15 _ c cs d hd =>
    rename_i ih
    obtain ⟨tail, htail⟩ := prepend_eq_ok h
    simpa [LiteralState.skipping, skipStringFrom, hd] using ih htail
  | case17 high cs ih => simpa [LiteralState.skipping, skipStringFrom] using ih h
  | case21 high c cs hu hends ih =>
    obtain rfl := Classical.not_not.mp hu
    simpa [LiteralState.skipping, skipStringFrom, shortEscape, hends] using ih h
  | _ => cases h

theorem map_prepend (c : Char) (result : Except Fault (List Char × List Char)) (rest : List Char) :
    (prepend c result).map (fun p => (p.1, rest)) =
      prepend c (result.map fun p => (p.1, rest)) := by
  cases result <;> rfl

/-- After a code is begun, it and a quote are still to come. -/
theorem endsInsideCode_of_skip {w rest : List Char} {left : Nat} (hleft : 2 ≤ left)
    (h : skipStringFrom (.code left) (w ++ rest) = .ok rest) (rest' : List Char) :
    endsInsideCode (w ++ rest') = false := by
  obtain ⟨w', hw, hlength, -⟩ := skipStringFrom_split h
  obtain rfl := List.append_cancel_right hw
  exact endsInsideCode_append (Nat.le_trans (Nat.add_le_add_right hleft 2) hlength) rest'

/-- What follows a literal makes no difference to how it is read. -/
theorem readStringFrom_split {w rest : List Char} {st : LiteralState}
    (h : skipStringFrom st.skipping (w ++ rest) = .ok rest) (rest' : List Char) :
    readStringFrom st (w ++ rest') = (readStringFrom st (w ++ rest)).map fun p => (p.1, rest') := by
  -- the skipper walks along and says at each character that the literal goes on
  induction w generalizing st with
  | nil =>
    obtain ⟨w, hw, hlength, -⟩ := skipStringFrom_split h
    obtain rfl := List.nil_eq.mp (List.append_cancel_right (show [] ++ rest = w ++ rest from hw))
    cases st <;> simp [SkipState.least, LiteralState.skipping] at hlength
  | cons c w ih =>
    rw [List.cons_append] at h
    rw [List.cons_append, List.cons_append]
    cases st with
    | plain =>
      simp only [LiteralState.skipping, skipStringFrom] at h
      simp only [readStringFrom]
      split at h
      · rename_i hq
        obtain rfl : w = [] := List.append_cancel_right (Except.ok.inj h)
        simp [hq, Except.map]
      · rename_i hq
        split at h
        · rename_i hb
          simpa [hq, hb] using @ih .escape h
        · rename_i hb
          split at h
          · cases h
          · rename_i hcontrol
            simp [hq, hb, hcontrol, map_prepend, @ih .plain h]
    | escape =>
      simp only [LiteralState.skipping, skipStringFrom] at h
      simp only [readStringFrom]
      cases hshort : shortEscape c with
      | some d =>
        simp only [hshort, Option.isSome_some, if_true] at h
        simp [map_prepend, @ih .plain h]
      | none =>
        simp only [hshort, Option.isSome_none, Bool.false_eq_true, if_false] at h
        split at h
        · cases h
        · rename_i hu
          split at h
          · cases h
          · rename_i hends
            simp [hu, hends, endsInsideCode_of_skip (by decide) h, @ih (.code none 3 0) h]
    | code high left value =>
      simp only [LiteralState.skipping, skipStringFrom] at h
      simp only [readStringFrom]
      cases hd : hexValue c with
      | none => simp [hd] at h
      | some d =>
        cases left with
        | succ left =>
          simp only [hd] at h
          simpa using @ih (.code high left (value * 16 + d)) h
        | zero =>
          simp only [hd] at h
          cases high with
          | none =>
            simp only
            split
            · rfl
            · split
              · exact @ih (.pairBackslash _) h
              · rw [map_prepend, @ih .plain h]
          | some high =>
            simp only
            split
            · rw [map_prepend, @ih .plain h]
            · rfl
    | pairBackslash high =>
      simp only [readStringFrom]
      split
      · rename_i hb
        simp only [hb, LiteralState.skipping, skipStringFrom] at h
        exact @ih (.pairLetter high) h
      · rfl
    | pairLetter high =>
      simp only [readStringFrom]
      split
      · rfl
      · rename_i hu
        obtain rfl := Classical.not_not.mp hu
        simp only [LiteralState.skipping, skipStringFrom] at h
        have hshort : ¬ (shortEscape 'u').isSome = true := by decide
        rw [if_neg hshort, if_neg (by decide)] at h
        split at h
        · cases h
        · rename_i hends
          simp [hends, endsInsideCode_of_skip (by decide) h, @ih (.code (some high) 3 0) h]

/-! ## Numbers -/

/-- What can stand behind a literal: nothing, a blank, a comma or a closing bracket. -/
def EndsLiteral (x : List Char) : Prop :=
  ∀ c ∈ x.head?, isBlank c = true ∨ c = ',' ∨ c = ']' ∨ c = '\x7d'

theorem endsLiteral_nil : EndsLiteral [] := fun _ h => nomatch h

theorem EndsLiteral.head_ne {c : Char} {x : List Char} (hx : EndsLiteral (c :: x)) :
    c.isDigit = false ∧ c ≠ '.' ∧ c ≠ 'e' ∧ c ≠ 'E' ∧ c ≠ '+' ∧ c ≠ '-' := by
  have hmem : c ∈ [' ', '\n', '\t', '\r', ',', ']', '\x7d'] := by
    simpa [isBlank, or_assoc] using hx c rfl
  have hall : [' ', '\n', '\t', '\r', ',', ']', '\x7d'].all (fun c => !c.isDigit && c != '.' &&
      c != 'e' && c != 'E' && c != '+' && c != '-') = true := by decide
  simpa [and_assoc] using List.all_eq_true.mp hall c hmem

/-- A text begins with the same mark with or without what ends a literal. -/
theorem EndsLiteral.head?_append_ne {w x : List Char} {c : Char} (hx : EndsLiteral x)
    (hc : ¬ EndsLiteral [c]) (hw : w.head? ≠ some c) : (w ++ x).head? ≠ some c := by
  cases w with
  | cons d w => exact hw
  | nil =>
    intro h
    refine hc fun d hd => hx d ?_
    simp_all

theorem not_endsLiteral {c : Char} (h : c ∉ [' ', '\n', '\t', '\r', ',', ']', '\x7d']) :
    ¬ EndsLiteral [c] := fun hx => h (by simpa [isBlank, or_assoc] using hx c rfl)

theorem leadingDigits_append_of_ends {x : List Char} (hx : EndsLiteral x) (w : List Char) :
    leadingDigits (w ++ x) = ((leadingDigits w).1, (leadingDigits w).2 ++ x) := by
  induction w with
  | nil =>
    cases x with
    | nil => rfl
    | cons c x => simp [leadingDigits, hx.head_ne.1]
  | cons c w ih =>
    by_cases hc : c.isDigit = true
    · simpa [leadingDigits, hc] using ih
    · simp [leadingDigits, hc]

/-- What a reader gives with more text behind. -/
def withTail (x : List Char) (p : Number × List Char) : Number × List Char := (p.1, p.2 ++ x)

/-- At `w`, a reader and a skipper agree on where a number ends, and neither looks beyond what ends
a literal. -/
structure Bounded (read : List Char → Except Fault (Number × List Char))
    (skip : List Char → Except Fault (List Char)) (w : List Char) : Prop where
  skip_of_read : ∀ {n rest}, read w = .ok (n, rest) → skip w = .ok rest
  suffix : ∀ {rest}, skip w = .ok rest → rest <:+ w
  skip_append : ∀ {x}, EndsLiteral x → skip (w ++ x) = (skip w).map (· ++ x)
  read_append : ∀ {x rest}, EndsLiteral x → skip w = .ok rest →
    read (w ++ x) = (read w).map (withTail x)

section

variable {read read' : List Char → Except Fault (Number × List Char)}
  {skip skip' : List Char → Except Fault (List Char)} {w : List Char}

theorem Bounded.cons {c : Char} (h : Bounded read skip w) (hread : ∀ v, read' (c :: v) = read v)
    (hskip : ∀ v, skip' (c :: v) = skip v) : Bounded read' skip' (c :: w) where
  skip_of_read hn := by
    rw [hread] at hn
    rw [hskip, h.skip_of_read hn]
  suffix hrest := by
    rw [hskip] at hrest
    exact (h.suffix hrest).trans (List.suffix_cons c w)
  skip_append hx := by rw [List.cons_append, hskip, hskip, h.skip_append hx]
  read_append hx hrest := by
    rw [hskip] at hrest
    rw [List.cons_append, hread, hread, h.read_append hx hrest]

theorem Bounded.congr (h : Bounded read skip w)
    (hread : ∀ x, EndsLiteral x → read' (w ++ x) = read (w ++ x))
    (hskip : ∀ x, EndsLiteral x → skip' (w ++ x) = skip (w ++ x)) : Bounded read' skip' w := by
  have hread₀ : read' w = read w := by simpa using hread [] endsLiteral_nil
  have hskip₀ : skip' w = skip w := by simpa using hskip [] endsLiteral_nil
  refine ⟨fun hn => ?_, fun hrest => ?_, fun hx => ?_, fun hx hrest => ?_⟩
  · exact hskip₀.trans (h.skip_of_read (hread₀.symm.trans hn))
  · exact h.suffix (hskip₀.symm.trans hrest)
  · rw [hskip _ hx, hskip₀, h.skip_append hx]
  · rw [hread _ hx, hread₀, h.read_append hx (hskip₀.symm.trans hrest)]

/-- A number that is complete. -/
theorem Bounded.done (value : Except Fault Number) (w : List Char) :
    Bounded (fun cs => do let n ← value; return (n, cs)) .ok w where
  skip_of_read h := by
    cases value with
    | error fault => cases h
    | ok n =>
      cases h
      rfl
  suffix h := by
    cases h
    exact List.suffix_rfl
  skip_append _ := rfl
  read_append _ _ := by cases value <;> rfl

/-- What neither reads nor skips, whatever follows. -/
theorem Bounded.fails (fault : Fault) (hread : ∃ fault, read w = .error fault)
    (hskip : ∀ x, EndsLiteral x → skip (w ++ x) = .error fault) : Bounded read skip w := by
  have hskip₀ : skip w = .error fault := by simpa using hskip [] endsLiteral_nil
  obtain ⟨fault', hread⟩ := hread
  refine ⟨fun hn => ?_, fun hrest => ?_, fun {x} hx => ?_, fun _ hrest => ?_⟩
  · cases hread.symm.trans hn
  · cases hskip₀.symm.trans hrest
  · rw [hskip x hx, hskip₀]
    rfl
  · cases hskip₀.symm.trans hrest

theorem readDigits_of_cons {α : Type} {next : List Nat → List Char → Except Fault α}
    {cs rest : List Char} {d : Nat} {ds : List Nat} (h : leadingDigits cs = (d :: ds, rest)) :
    readDigits next cs = next (d :: ds) rest := by
  unfold readDigits
  rw [h]
  cases cs with
  | nil => cases h
  | cons c cs => rfl

theorem readDigits_of_nil {α : Type} {next : List Nat → List Char → Except Fault α}
    {cs rest : List Char} (h : leadingDigits cs = ([], rest)) :
    ∃ fault, readDigits next cs = .error fault := by
  unfold readDigits
  rw [h]
  cases cs with
  | nil => exact ⟨_, rfl⟩
  | cons c cs => exact ⟨_, rfl⟩

/-- Digits, and what follows them. -/
theorem Bounded.digits {next : List Nat → List Char → Except Fault (Number × List Char)}
    (h : ∀ ds v, Bounded (next ds) skip v) (w : List Char) :
    Bounded (readDigits next) (fun cs => skipDigits cs >>= skip) w := by
  have hsuffix : (leadingDigits w).2 <:+ w := List.dropWhile_suffix _
  have happend {x : List Char} (hx : EndsLiteral x) := leadingDigits_append_of_ends hx w
  rcases hdigits : leadingDigits w with ⟨_ | ⟨d, ds⟩, rest⟩
  · refine .fails .invalidNumber (readDigits_of_nil hdigits) fun x hx => ?_
    show (skipDigits (w ++ x) >>= skip) = .error .invalidNumber
    rw [skipDigits, happend hx, hdigits]
    rfl
  · have hnext := h (d :: ds) rest
    rw [hdigits] at hsuffix happend
    have hskip : (skipDigits w >>= skip) = skip rest := by
      rw [skipDigits, hdigits]
      rfl
    refine ⟨fun hn => ?_, fun hrest => ?_, fun {x} hx => ?_, fun {x _} hx hrest => ?_⟩
    · rw [readDigits_of_cons hdigits] at hn
      exact hskip.trans (hnext.skip_of_read hn)
    · exact (hnext.suffix (hskip.symm.trans hrest)).trans hsuffix
    · show (skipDigits (w ++ x) >>= skip) = _
      rw [hskip, skipDigits, happend hx]
      exact hnext.skip_append hx
    · rw [readDigits_of_cons hdigits, readDigits_of_cons (happend hx)]
      exact hnext.read_append hx (hskip.symm.trans hrest)

end

theorem exponentSign_of_ends {x : List Char} (hx : EndsLiteral x) :
    exponentSign x = (false, x) := by
  cases x with
  | nil => rfl
  | cons c x => simp [exponentSign, hx.head_ne]

theorem bounded_exponent (negative : Bool) (significand : Nat) (exponent : Int) (w : List Char) :
    Bounded (readExponent negative significand exponent) skipExponent w := by
  have hdigits (down : Bool) (w : List Char) := Bounded.digits (fun ds v =>
    Bounded.done (exponentValue negative significand exponent down ds) v) w
  have hskip : (fun cs => skipDigits cs >>= Except.ok) = skipDigits := by
    funext cs
    cases skipDigits cs <;> rfl
  simp only [hskip] at hdigits
  by_cases hsign : ∀ x, EndsLiteral x → exponentSign (w ++ x) = (false, w ++ x)
  · refine (hdigits false w).congr (fun x hx => ?_) fun x hx => ?_
    · rw [readExponent, hsign x hx]
    · rw [skipExponent, hsign x hx]
  · cases w with
    | nil => exact absurd (fun x hx => exponentSign_of_ends hx) hsign
    | cons c w =>
      by_cases hplus : c = '+'
      · subst hplus
        exact (hdigits false w).cons (fun _ => rfl) fun _ => rfl
      · by_cases hminus : c = '-'
        · subst hminus
          exact (hdigits true w).cons (fun _ => rfl) fun _ => rfl
        · exact absurd (fun x _ => by simp [exponentSign, hplus, hminus]) hsign

theorem readScale_of_ne {cs : List Char} (he : cs.head? ≠ some 'e') (hE : cs.head? ≠ some 'E')
    (negative : Bool) (significand : Nat) (exponent : Int) :
    readScale negative significand exponent cs = (do
      let n ← scaled negative significand exponent
      return (n, cs)) := by
  unfold readScale
  split
  · exact absurd rfl he
  · exact absurd rfl hE
  · rfl

theorem skipScale_of_ne {cs : List Char} (he : cs.head? ≠ some 'e') (hE : cs.head? ≠ some 'E') :
    skipScale cs = .ok cs := by
  unfold skipScale
  split
  · exact absurd rfl he
  · exact absurd rfl hE
  · rfl

theorem bounded_scale (negative : Bool) (significand : Nat) (exponent : Int) (w : List Char) :
    Bounded (readScale negative significand exponent) skipScale w := by
  by_cases he : w.head? = some 'e'
  · obtain ⟨w, rfl⟩ := List.head?_eq_some_iff.mp he
    exact (bounded_exponent negative significand exponent w).cons (fun _ => rfl) fun _ => rfl
  by_cases hE : w.head? = some 'E'
  · obtain ⟨w, rfl⟩ := List.head?_eq_some_iff.mp hE
    exact (bounded_exponent negative significand exponent w).cons (fun _ => rfl) fun _ => rfl
  have hne {x : List Char} (hx : EndsLiteral x) :=
    And.intro (hx.head?_append_ne (not_endsLiteral (by decide)) he)
      (hx.head?_append_ne (not_endsLiteral (by decide)) hE)
  exact (Bounded.done (scaled negative significand exponent) w).congr
    (fun x hx => readScale_of_ne (hne hx).1 (hne hx).2 _ _ _)
    fun x hx => skipScale_of_ne (hne hx).1 (hne hx).2

theorem bounded_fraction (negative : Bool) (significand : Nat) (exponent : Int) (w : List Char) :
    Bounded (readFraction negative significand exponent)
      (fun cs => skipDigits cs >>= skipScale) w :=
  Bounded.digits (fun _ v => bounded_scale _ _ _ v) w

/-- The number of the digits before a point or an exponent, when neither follows. -/
def wholeValue (negative : Bool) (significand left : Nat) : Except Fault Number :=
  if left = 0 then .ok (wholeNumber negative significand) else scaled negative significand left

theorem readAfterWhole_of_ne {cs : List Char} (hpoint : cs.head? ≠ some '.')
    (he : cs.head? ≠ some 'e') (hE : cs.head? ≠ some 'E') (negative : Bool)
    (significand left : Nat) :
    readAfterWhole negative significand left cs = (do
      let n ← wholeValue negative significand left
      return (n, cs)) := by
  unfold readAfterWhole wholeValue
  split
  · exact absurd rfl hpoint
  · exact absurd rfl he
  · exact absurd rfl hE
  · split <;> rfl

theorem skipAfterWhole_of_ne {cs : List Char} (hpoint : cs.head? ≠ some '.') :
    skipAfterWhole cs = skipScale cs := by
  unfold skipAfterWhole
  split
  · exact absurd rfl hpoint
  · rfl

theorem bounded_afterWhole (negative : Bool) (significand left : Nat) (w : List Char) :
    Bounded (readAfterWhole negative significand left) skipAfterWhole w := by
  by_cases hpoint : w.head? = some '.'
  · obtain ⟨w, rfl⟩ := List.head?_eq_some_iff.mp hpoint
    exact (bounded_fraction negative significand left w).cons (fun _ => rfl) fun _ => rfl
  by_cases he : w.head? = some 'e'
  · obtain ⟨w, rfl⟩ := List.head?_eq_some_iff.mp he
    exact (bounded_exponent negative significand left w).cons (fun _ => rfl) fun _ => rfl
  by_cases hE : w.head? = some 'E'
  · obtain ⟨w, rfl⟩ := List.head?_eq_some_iff.mp hE
    exact (bounded_exponent negative significand left w).cons (fun _ => rfl) fun _ => rfl
  have hne {x : List Char} (hx : EndsLiteral x) :=
    And.intro (hx.head?_append_ne (not_endsLiteral (by decide)) hpoint)
      (And.intro (hx.head?_append_ne (not_endsLiteral (by decide)) he)
        (hx.head?_append_ne (not_endsLiteral (by decide)) hE))
  refine (Bounded.done (wholeValue negative significand left) w).congr
    (fun x hx => readAfterWhole_of_ne (hne hx).1 (hne hx).2.1 (hne hx).2.2 _ _ _) fun x hx => ?_
  rw [skipAfterWhole_of_ne (hne hx).1, skipScale_of_ne (hne hx).2.1 (hne hx).2.2]

/-- A zero in front must stand alone. -/
theorem bounded_zero (negative : Bool) (w : List Char) :
    Bounded (readMagnitude negative) skipMagnitude ('0' :: w) := by
  have hhead {x : List Char} (hx : EndsLiteral x) :
      ((w ++ x).head?.map Char.isDigit).getD false = (w.head?.map Char.isDigit).getD false := by
    cases w with
    | cons c w => rfl
    | nil =>
      cases x with
      | nil => rfl
      | cons c x => exact hx.head_ne.1
  cases hdigit : (w.head?.map Char.isDigit).getD false with
  | true =>
    refine .fails .invalidNumber ⟨.invalidNumber, ?_⟩ fun x hx => ?_
    · simp [readMagnitude, hdigit]
    · rw [List.cons_append, skipMagnitude, hhead hx, hdigit]
      rfl
  | false =>
    have hafter : Bounded (fun cs => readAfterWhole negative 0 0 cs.tail)
        (fun cs => skipAfterWhole cs.tail) ('0' :: w) :=
      (bounded_afterWhole negative 0 0 w).cons (fun _ => rfl) fun _ => rfl
    refine hafter.congr (fun x hx => ?_) fun x hx => ?_
    · rw [List.cons_append, readMagnitude, hhead hx, hdigit]
      rfl
    · rw [List.cons_append, skipMagnitude, hhead hx, hdigit]
      rfl

theorem readMagnitude_of_ne {cs : List Char} (h : cs.head? ≠ some '0') (negative : Bool) :
    readMagnitude negative cs = readDigits (fun ds rest =>
      readAfterWhole negative (absorb 0 ds).1 (absorb 0 ds).2.length rest) cs := by
  unfold readMagnitude
  split
  · exact absurd rfl h
  · rfl

theorem skipMagnitude_of_ne {cs : List Char} (h : cs.head? ≠ some '0') :
    skipMagnitude cs = skipDigits cs >>= skipAfterWhole := by
  unfold skipMagnitude
  split
  · exact absurd rfl h
  · rfl

theorem bounded_magnitude (negative : Bool) (w : List Char) :
    Bounded (readMagnitude negative) skipMagnitude w := by
  by_cases hzero : w.head? = some '0'
  · obtain ⟨w, rfl⟩ := List.head?_eq_some_iff.mp hzero
    exact bounded_zero negative w
  have hne {x : List Char} (hx : EndsLiteral x) :=
    hx.head?_append_ne (not_endsLiteral (by decide)) hzero
  have hdigits := Bounded.digits (fun ds v =>
    bounded_afterWhole negative (absorb 0 ds).1 (absorb 0 ds).2.length v) w
  exact hdigits.congr (fun x hx => readMagnitude_of_ne (hne hx) negative) fun x hx =>
    skipMagnitude_of_ne (hne hx)

theorem readNumber_of_ne {cs : List Char} (h : cs.head? ≠ some '-') :
    readNumber cs = readMagnitude false cs := by
  unfold readNumber
  split
  · exact absurd rfl h
  · rfl

theorem skipNumber_of_ne {cs : List Char} (h : cs.head? ≠ some '-') :
    skipNumber cs = skipMagnitude cs := by
  unfold skipNumber
  split
  · exact absurd rfl h
  · rfl

/-- A number that is followed by the end of a literal is read as if it stood alone. -/
theorem bounded_number (w : List Char) : Bounded readNumber skipNumber w := by
  by_cases hminus : w.head? = some '-'
  · obtain ⟨w, rfl⟩ := List.head?_eq_some_iff.mp hminus
    exact (bounded_magnitude true w).cons (fun _ => rfl) fun _ => rfl
  have hne {x : List Char} (hx : EndsLiteral x) :=
    hx.head?_append_ne (not_endsLiteral (by decide)) hminus
  exact (bounded_magnitude false w).congr (fun x hx => readNumber_of_ne (hne hx)) fun x hx =>
    skipNumber_of_ne (hne hx)

/-! ## Scanned literals -/

theorem skipString_of_read {cs rest : List Char} {text : String}
    (h : readString cs = .ok (text, rest)) : skipString cs = .ok rest := by
  unfold readString at h
  split at h
  · rename_i hread
    cases h
    exact skipStringFrom_of_read hread
  · cases h

theorem scanString_of_skip {cs rest : List Char} (h : skipString cs = .ok rest) :
    scanString cs = (.string ((readString cs).map (·.1)), some rest) := by
  unfold scanString
  rw [h]
  rcases hread : readString cs with fault | ⟨text, rest'⟩
  · rfl
  · rw [skipString_of_read hread] at h
    cases h
    rfl

theorem skipString_of_scan {cs rest : List Char} {s : Scan} (h : scanString cs = (s, some rest)) :
    skipString cs = .ok rest := by
  unfold scanString at h
  split at h
  · rename_i hread
    cases h
    exact skipString_of_read hread
  · rename_i hskip
    cases h
    exact hskip
  · cases h

/-- A string is scanned as if it stood alone. -/
theorem scanString_split {cs rest : List Char} {s : Scan} (h : scanString cs = (s, some rest)) :
    ∃ w, cs = w ++ rest ∧ ∀ x, scanString (w ++ x) = (s, some x) := by
  have hskip := skipString_of_scan h
  obtain ⟨w, rfl, -, hw⟩ := skipStringFrom_split hskip
  refine ⟨w, rfl, fun x => ?_⟩
  have hread : (readString (w ++ x)).map (·.1) = (readString (w ++ rest)).map (·.1) := by
    unfold readString
    rw [@readStringFrom_split w rest .plain hskip x]
    cases readStringFrom .plain (w ++ rest) <;> rfl
  rw [scanString_of_skip (hw x), hread]
  rw [scanString_of_skip hskip] at h
  cases h
  rfl

theorem scanNumber_of_skip {cs rest : List Char} (h : skipNumber cs = .ok rest) :
    scanNumber cs = (.number ((readNumber cs).map (·.1)), some rest) := by
  unfold scanNumber
  rw [h]
  rcases hread : readNumber cs with fault | ⟨n, rest'⟩
  · rfl
  · rw [(bounded_number cs).skip_of_read hread] at h
    cases h
    rfl

theorem skipNumber_of_scan {cs rest : List Char} {s : Scan} (h : scanNumber cs = (s, some rest)) :
    skipNumber cs = .ok rest := by
  unfold scanNumber at h
  split at h
  · rename_i hread
    cases h
    exact (bounded_number cs).skip_of_read hread
  · rename_i hskip
    cases h
    exact hskip
  · cases h

/-- A number is scanned as if it stood alone. -/
theorem scanNumber_split {cs rest : List Char} {s : Scan} (h : scanNumber cs = (s, some rest))
    (hrest : EndsLiteral rest) :
    ∃ w, cs = w ++ rest ∧ ∀ x, EndsLiteral x → scanNumber (w ++ x) = (s, some x) := by
  have hskip := skipNumber_of_scan h
  obtain ⟨w, rfl⟩ := (bounded_number cs).suffix hskip
  have hbounded := bounded_number w
  obtain ⟨tail, htail⟩ : ∃ tail, skipNumber w = .ok tail := by
    rw [hbounded.skip_append hrest] at hskip
    cases hw : skipNumber w with
    | error fault => simp [hw, Except.map] at hskip
    | ok tail => exact ⟨tail, rfl⟩
  have hnil : tail = [] := by
    rw [hbounded.skip_append hrest, htail] at hskip
    exact List.append_left_eq_self.mp (Except.ok.inj hskip)
  subst hnil
  have hscan {x : List Char} (hx : EndsLiteral x) :
      scanNumber (w ++ x) = (.number ((readNumber w).map (·.1)), some x) := by
    have hskip : skipNumber (w ++ x) = .ok x := by
      rw [hbounded.skip_append hx, htail]
      rfl
    rw [scanNumber_of_skip hskip, hbounded.read_append hx htail]
    cases readNumber w <;> rfl
  refine ⟨w, rfl, fun x hx => ?_⟩
  rw [hscan hx]
  rw [hscan hrest] at h
  cases h
  rfl

theorem expectWord_eq_ok {word cs rest : List Char} :
    expectWord word cs = .ok rest ↔ cs = word ++ rest := by
  induction word generalizing cs with
  | nil => simp [expectWord]
  | cons c word ih =>
    cases cs with
    | nil => simp [expectWord]
    | cons d cs =>
      rw [expectWord, List.cons_append]
      split
      · rename_i heq
        simp [heq, ih]
      · rename_i hne
        simp [hne]

theorem scanWord_split {word : String} {value s : Scan} {broken : Fault → Scan}
    {cs rest : List Char} (h : scanWord word value broken cs = (s, some rest)) :
    ∃ w, cs = w ++ rest ∧ ∀ x, scanWord word value broken (w ++ x) = (s, some x) := by
  unfold scanWord at h
  split at h
  · rename_i hword
    cases h
    refine ⟨word.toList, expectWord_eq_ok.mp hword, fun x => ?_⟩
    rw [scanWord, expectWord_eq_ok.mpr rfl]
  · cases h

/-- A literal is scanned as if it stood alone, and begins as no list and no object does. -/
theorem scanScalar_split {cs rest : List Char} {s : Scan} (h : scanScalar cs = (s, some rest))
    (hrest : EndsLiteral rest) :
    ∃ c w, cs = c :: w ++ rest ∧ Starts c ∧ c ≠ '[' ∧ c ≠ '\x7b' ∧
      ∀ x, EndsLiteral x → scanScalar (c :: w ++ x) = (s, some x) := by
  cases cs with
  | nil => cases h
  | cons c cs =>
    simp only [scanScalar] at h
    split at h
    case h_5 _ hn ht hf hquote =>
      split at h
      · rename_i hc
        obtain ⟨w, hw, hscan⟩ := scanNumber_split h hrest
        cases w with
        | nil =>
          have hne := EndsLiteral.head_ne (hw ▸ hrest : EndsLiteral (c :: cs))
          simp [hne] at hc
        | cons d w =>
          obtain ⟨rfl, rfl⟩ := List.cons.inj hw
          have hstarts : Starts c ∧ c ≠ '[' ∧ c ≠ '\x7b' := by
            rcases Bool.or_eq_true_iff.mp hc with hminus | hdigit
            · obtain rfl := of_decide_eq_true hminus
              simp [Starts, isBlank]
            · refine ⟨starts_of_isDigit hdigit, ?_, ?_⟩ <;>
                exact fun heq => absurd (heq ▸ hdigit) (by decide)
          refine ⟨c, w, rfl, hstarts.1, hstarts.2.1, hstarts.2.2, fun x hx => ?_⟩
          simp only [List.cons_append, scanScalar, hc, if_true]
          exact hscan x hx
      · cases h
    · obtain ⟨w, rfl, hscan⟩ := scanWord_split h
      exact ⟨_, w, rfl, by simp [Starts, isBlank], by decide, by decide, fun x _ => hscan x⟩
    · obtain ⟨w, rfl, hscan⟩ := scanWord_split h
      exact ⟨_, w, rfl, by simp [Starts, isBlank], by decide, by decide, fun x _ => hscan x⟩
    · obtain ⟨w, rfl, hscan⟩ := scanWord_split h
      exact ⟨_, w, rfl, by simp [Starts, isBlank], by decide, by decide, fun x _ => hscan x⟩
    · obtain ⟨w, rfl, hscan⟩ := scanString_split h
      exact ⟨_, w, rfl, by simp [Starts, isBlank], by decide, by decide, fun x _ => hscan x⟩

end CeylonFromJava.Json
