import CeylonFromJava.Json.Basic
import CeylonFromJava.Json.Scan

/-! The text of a value scans back to the value.

`toScan` is the scan of a value whose text has no fault. Numbers have to fit 64 bits, and what follows
a value must not go on with a number it ends in. -/
namespace CeylonFromJava.Json
set_option autoImplicit false

/-! ## Strings -/

theorem hexValue_hexDigit : ∀ n < 16, hexValue (hexDigit n) = some n := by
  decide

theorem readStringFrom_control {n : Nat} (hn : n < 0x20) (tail : List Char) :
    readStringFrom .escape ('u' :: '0' :: '0' :: hexDigit (n / 16) :: hexDigit (n % 16) :: tail) =
      prepend (Char.ofNat n) (readStringFrom .plain tail) := by
  have hzero : hexValue '0' = some 0 := by decide
  have hhigh := hexValue_hexDigit (n / 16) (by omega)
  have hlow := hexValue_hexDigit (n % 16) (by omega)
  have hvalue : n / 16 * 16 + n % 16 = n := by omega
  have hbytes : ∀ c : Char, 1 ≤ c.utf8Size := Char.utf8Size_pos
  have hends : endsInsideCode ('0' :: '0' :: hexDigit (n / 16) :: hexDigit (n % 16) :: tail) =
      false := by
    have h1 := hbytes (hexDigit (n / 16))
    have h2 := hbytes (hexDigit (n % 16))
    have h0 := hbytes '0'
    simp only [endsInsideCode, List.take, List.foldl, decide_eq_false_iff_not]
    omega
  have hsurrogate : isLowSurrogate n = false ∧ isHighSurrogate n = false := by
    simp [isLowSurrogate, isHighSurrogate]
    omega
  simp [readStringFrom, shortEscape, hends, hzero, hhigh, hlow, hvalue, hsurrogate]

/-- A character is read back from its escaped form. -/
theorem readStringFrom_escapedChar (c : Char) (tail : List Char) :
    readStringFrom .plain (escapedChar c ++ tail) = prepend c (readStringFrom .plain tail) := by
  unfold escapedChar
  split
  case h_8 _ hquote hbackslash _ _ _ _ _ =>
    split
    · rename_i hcontrol
      have h := readStringFrom_control hcontrol tail
      rw [Char.ofNat_toNat] at h
      simpa [readStringFrom] using h
    · rename_i hplain
      rw [List.singleton_append, readStringFrom, if_neg hquote, if_neg hbackslash, if_neg hplain]
  all_goals simp [readStringFrom, shortEscape]

theorem readString_literal (s : String) (rest : List Char) :
    readString (s.toList.flatMap escapedChar ++ '"' :: rest) = .ok (s, rest) := by
  have hread : ∀ cs : List Char,
      readStringFrom .plain (cs.flatMap escapedChar ++ '"' :: rest) = .ok (cs, rest) := by
    intro cs
    induction cs with
    | nil => simp [readStringFrom]
    | cons c cs ih =>
      rw [List.flatMap_cons, List.append_assoc, readStringFrom_escapedChar, ih, prepend]
  simp [readString, hread]

/-! ## Numbers -/

/-- What follows does not go on with a number. -/
def StopsNumber (rest : List Char) : Prop :=
  ∀ c ∈ rest.head?, c.isDigit = false ∧ c ≠ '.' ∧ c ≠ 'e' ∧ c ≠ 'E'

theorem leadingDigits_append {digits rest : List Char} (hdigits : ∀ c ∈ digits, c.isDigit = true)
    (hrest : StopsNumber rest) : leadingDigits (digits ++ rest) = (digits.map digitValue, rest) := by
  have htake : rest.takeWhile Char.isDigit = [] := by
    cases rest with
    | nil => rfl
    | cons c rest => simp [(hrest c rfl).1]
  have hdrop : rest.dropWhile Char.isDigit = rest := by
    cases rest with
    | nil => rfl
    | cons c rest => simp [(hrest c rfl).1]
  rw [leadingDigits, List.takeWhile_append_of_pos hdigits, List.dropWhile_append_of_pos hdigits,
    htake, hdrop, List.append_nil]

/-- Digits go on with a significand as long as their number fits. -/
theorem absorb_of_lt (significand : Nat) (digits : List Nat)
    (h : digits.foldl (fun n d => n * 10 + d) significand < Nat.pow 2 64) :
    absorb significand digits = (digits.foldl (fun n d => n * 10 + d) significand, []) := by
  have hgrow : ∀ (ds : List Nat) (n : Nat), n ≤ ds.foldl (fun n d => n * 10 + d) n := by
    intro ds
    induction ds with
    | nil => exact fun n => Nat.le_refl n
    | cons d ds ih =>
      intro n
      have hn := ih (n * 10 + d)
      rw [List.foldl_cons]
      omega
  induction digits generalizing significand with
  | nil => rfl
  | cons d ds ih =>
    rw [List.foldl_cons] at h ⊢
    have hle := hgrow ds (significand * 10 + d)
    rw [absorb, if_pos (Nat.lt_of_le_of_lt hle h), ih _ h]

theorem foldl_digitValue_toDigits (n : Nat) :
    ((Nat.toDigits 10 n).map digitValue).foldl (fun n d => n * 10 + d) 0 = n := by
  have h := Nat.ofDigitChars_toDigits (b := 10) (n := n) (by decide) (by decide)
  rw [Nat.ofDigitChars] at h
  rw [List.foldl_map]
  simpa [digitValue, Nat.mul_comm] using h

theorem head_toDigits_ne_zero {n : Nat} (hn : 0 < n) : (Nat.toDigits 10 n).head? ≠ some '0' := by
  induction n using Nat.strongRecOn with
  | ind n ih =>
    rcases Nat.lt_or_ge n 10 with hlt | hge
    · rw [Nat.toDigits_of_lt_base hlt]
      have hdigit : ∀ n < 10, 0 < n → n.digitChar ≠ '0' := by decide
      simpa using hdigit n hlt hn
    · have hdiv : 0 < n / 10 := by omega
      have hfront := ih (n / 10) (by omega) hdiv
      obtain ⟨c, cs, hcs⟩ := List.exists_cons_of_ne_nil (Nat.toDigits_ne_nil (n := n / 10) (b := 10))
      rw [Nat.toDigits_of_base_le (by decide) hge, hcs]
      rw [hcs] at hfront
      exact hfront

theorem readAfterWhole_of_stops {rest : List Char} (hrest : StopsNumber rest) (n : Nat) :
    readAfterWhole false n 0 rest = .ok (.natural (UInt64.ofNat n), rest) := by
  unfold readAfterWhole
  split
  · exact absurd rfl (hrest _ rfl).2.1
  · exact absurd rfl (hrest _ rfl).2.2.1
  · exact absurd rfl (hrest _ rfl).2.2.2
  · rfl

theorem readMagnitude_toDigits {n : Nat} (hn : n < Nat.pow 2 64) {rest : List Char}
    (hrest : StopsNumber rest) :
    readMagnitude false (Nat.toDigits 10 n ++ rest) = .ok (.natural (UInt64.ofNat n), rest) := by
  rcases Nat.eq_zero_or_pos n with rfl | hpos
  · have hdigit : (rest.head?.map Char.isDigit).getD false = false := by
      cases rest with
      | nil => rfl
      | cons c rest => exact (hrest c rfl).1
    rw [Nat.toDigits_zero, List.singleton_append, readMagnitude, if_neg (by simp [hdigit]),
      readAfterWhole_of_stops hrest]
  · have hdigits : ∀ c ∈ Nat.toDigits 10 n, c.isDigit = true := fun c hc =>
      Nat.isDigit_of_mem_toDigits (by decide) (by decide) hc
    have hlead := leadingDigits_append hdigits hrest
    have hhead := head_toDigits_ne_zero hpos
    have habsorb := absorb_of_lt 0 ((Nat.toDigits 10 n).map digitValue)
      (by rw [foldl_digitValue_toDigits]; exact hn)
    rw [foldl_digitValue_toDigits] at habsorb
    obtain ⟨c, cs, hcs⟩ := List.exists_cons_of_ne_nil (Nat.toDigits_ne_nil (n := n) (b := 10))
    rw [hcs] at hlead hhead habsorb ⊢
    have hzero : c ≠ '0' := fun h => hhead (by rw [h]; rfl)
    unfold readMagnitude
    split
    · rename_i h
      exact absurd (List.cons.inj h).1 hzero
    · rw [List.cons_append] at hlead ⊢
      unfold readDigits
      rw [hlead]
      simp only [List.map_cons] at habsorb ⊢
      rw [habsorb]
      exact readAfterWhole_of_stops hrest n

theorem readNumber_toDigits {n : Nat} (hn : n < Nat.pow 2 64) {rest : List Char}
    (hrest : StopsNumber rest) :
    readNumber (Nat.toDigits 10 n ++ rest) = .ok (.natural (UInt64.ofNat n), rest) := by
  have hread := readMagnitude_toDigits hn hrest
  unfold readNumber
  split
  · rename_i cs hcs
    obtain ⟨c, ds, hds⟩ := List.exists_cons_of_ne_nil (Nat.toDigits_ne_nil (n := n) (b := 10))
    have hc : c.isDigit = true :=
      Nat.isDigit_of_mem_toDigits (b := 10) (n := n) (by decide) (by decide) (by rw [hds]; simp)
    rw [hds] at hcs
    rw [(List.cons.inj hcs).1] at hc
    exact absurd hc (by decide)
  · exact hread

/-! ## Values -/

mutual
/-- All numbers fit 64 bits. -/
def Fits : Json → Prop
  | .null | .bool _ | .string _ => True
  | .number n => n < Nat.pow 2 64
  | .array items => FitsAll items
  | .object members => FitsMembers members

def FitsAll : List Json → Prop
  | [] => True
  | j :: js => Fits j ∧ FitsAll js

def FitsMembers : List (String × Json) → Prop
  | [] => True
  | (_, j) :: members => Fits j ∧ FitsMembers members
end

mutual
/-- A value as it is scanned from its text. -/
def toScan : Json → Scan
  | .null => .null
  | .bool b => .bool b
  | .number n => .number (.ok (.natural (UInt64.ofNat n)))
  | .string s => .string (.ok s)
  | .array items => .array (itemScans items) .closed
  | .object members => .object (memberScans members) .closed

def itemScans : List Json → List Scan
  | [] => []
  | j :: js => toScan j :: itemScans js

def memberScans : List (String × Json) → List (Except Fault String × Scan)
  | [] => []
  | (key, j) :: members => (.ok key, toScan j) :: memberScans members
end

/-! ## Steps of the scanner -/

/-- A character that starts a value. -/
def Starts (c : Char) : Prop := isBlank c = false ∧ c ≠ ']' ∧ c ≠ '\x7d'

theorem starts_of_isDigit {c : Char} (h : c.isDigit = true) : Starts c := by
  refine ⟨?_, ?_, ?_⟩
  · simp only [isBlank, Bool.or_eq_false_iff, beq_eq_false_iff_ne]
    refine ⟨⟨⟨?_, ?_⟩, ?_⟩, ?_⟩ <;> (rintro rfl; exact absurd h (by decide))
  all_goals rintro rfl; exact absurd h (by decide)

theorem exists_digit_toDigits (n : Nat) :
    ∃ c cs, Nat.toDigits 10 n = c :: cs ∧ c.isDigit = true := by
  obtain ⟨c, cs, hcs⟩ := List.exists_cons_of_ne_nil (Nat.toDigits_ne_nil (n := n) (b := 10))
  refine ⟨c, cs, hcs, ?_⟩
  exact Nat.isDigit_of_mem_toDigits (b := 10) (n := n) (by decide) (by decide) (by rw [hcs]; simp)

theorem exists_starts_chars (j : Json) : ∃ c cs, chars j = c :: cs ∧ Starts c := by
  match j with
  | .null | .bool true | .bool false | .string _ | .array _ | .object _ =>
    exact ⟨_, _, rfl, by simp [Starts, isBlank]⟩
  | .number n =>
    obtain ⟨c, cs, hcs, hc⟩ := exists_digit_toDigits n
    exact ⟨c, cs, hcs, starts_of_isDigit hc⟩

theorem dropBlanks_cons {c : Char} (h : isBlank c = false) (cs : List Char) :
    dropBlanks (c :: cs) = c :: cs := by
  rw [dropBlanks, List.dropWhile_cons_of_neg (by simp [h])]

theorem scanString_literal (s : String) (rest : List Char) :
    scanString (s.toList.flatMap escapedChar ++ '"' :: rest) = (.string (.ok s), some rest) := by
  rw [scanString, readString_literal]

theorem scanScalar_toDigits {n : Nat} (hn : n < Nat.pow 2 64) {rest : List Char}
    (hrest : StopsNumber rest) : scanScalar (Nat.toDigits 10 n ++ rest) =
      (.number (.ok (.natural (UInt64.ofNat n))), some rest) := by
  have hread := readNumber_toDigits hn hrest
  obtain ⟨c, cs, hcs, hc⟩ := exists_digit_toDigits n
  rw [hcs, List.cons_append] at hread ⊢
  have hscan : scanScalar (c :: (cs ++ rest)) = scanNumber (c :: (cs ++ rest)) := by
    simp only [scanScalar]
    split
    case h_5 => rw [if_pos (by simp [hc])]
    all_goals exact absurd hc (by decide)
  rw [hscan, scanNumber, hread]

theorem scanValue_scalar {c : Char} (hblank : isBlank c = false) (hbracket : c ≠ '[')
    (hbrace : c ≠ '\x7b') (fuel : Nat) (cs : List Char) :
    scanValue (fuel + 1) (c :: cs) = scanScalar (c :: cs) := by
  rw [scanValue, dropBlanks_cons hblank]
  split
  · rename_i h
    exact absurd (List.cons.inj h).1 hbracket
  · rename_i h
    exact absurd (List.cons.inj h).1 hbrace
  · rfl

/-- The rest after an item: a bracket or a comma. -/
theorem stopsNumber_cons {c : Char} (h : c = ',' ∨ c = ']' ∨ c = '\x7d') (cs : List Char) :
    StopsNumber (c :: cs) := by
  intro d hd
  cases hd
  rcases h with rfl | rfl | rfl <;> decide

theorem exists_starts_itemChars (j : Json) (js : List Json) :
    ∃ c cs, itemChars (j :: js) = c :: cs ∧ Starts c := by
  obtain ⟨c, cs, hcs, hc⟩ := exists_starts_chars j
  cases js with
  | nil => exact ⟨c, cs, by rw [itemChars, hcs], hc⟩
  | cons j' js => exact ⟨c, cs ++ ',' :: itemChars (j' :: js), by simp [itemChars, hcs], hc⟩

theorem exists_quote_memberChars (m : String × Json) (ms : List (String × Json)) :
    ∃ cs, memberChars (m :: ms) = '"' :: cs := by
  cases ms with
  | nil => simp [memberChars, literal]
  | cons m' ms => simp [memberChars, literal]

theorem scanValue_array {c : Char} (hc : Starts c) {fuel : Nat} {cs rest : List Char}
    {items : List Scan} (h : scanItems fuel (c :: cs) = (items, .closed, some rest)) :
    scanValue (fuel + 1) ('[' :: c :: cs) = (.array items .closed, some rest) := by
  rw [scanValue, dropBlanks_cons (by decide)]
  simp only [dropBlanks_cons hc.1]
  split
  · rename_i hnil
    cases hnil
  · rename_i hcons
    exact absurd (List.cons.inj hcons).1 hc.2.1
  · rw [h]

theorem scanValue_object {fuel : Nat} {cs rest : List Char}
    {members : List (Except Fault String × Scan)}
    (h : scanMembers fuel ('"' :: cs) = (members, .closed, some rest)) :
    scanValue (fuel + 1) ('\x7b' :: '"' :: cs) = (.object members .closed, some rest) := by
  rw [scanValue, dropBlanks_cons (by decide)]
  simp [dropBlanks_cons, isBlank, h]

theorem scanItems_comma {c : Char} (hc : Starts c) {fuel : Nat} {cs more rest : List Char}
    {item : Scan} {items : List Scan} (hvalue : scanValue fuel cs = (item, some (',' :: c :: more)))
    (hitems : scanItems fuel (c :: more) = (items, .closed, some rest)) :
    scanItems (fuel + 1) cs = (item :: items, .closed, some rest) := by
  rw [scanItems, hvalue]
  simp only [dropBlanks_cons (c := ',') (by decide), dropBlanks_cons hc.1]
  split
  · rename_i hcons
    exact absurd (List.cons.inj hcons).1 hc.2.1
  · rw [hitems]

/-! ## Whole values -/

mutual
theorem scanValue_chars : (j : Json) → Fits j → (rest : List Char) → StopsNumber rest →
    (fuel : Nat) → 2 * (chars j).length ≤ fuel →
    scanValue fuel (chars j ++ rest) = (toScan j, some rest)
  | .null, _, rest, _, fuel + 1, _ | .bool true, _, rest, _, fuel + 1, _
  | .bool false, _, rest, _, fuel + 1, _ => by
    rw [chars, List.cons_append, scanValue_scalar (by decide) (by decide) (by decide)]
    simp [scanScalar, scanWord, expectWord, toScan]
  | .string s, _, rest, _, fuel + 1, _ => by
    rw [chars, literal, List.cons_append, List.cons_append,
      scanValue_scalar (by decide) (by decide) (by decide)]
    simp [scanScalar, scanString_literal, toScan]
  | .number n, hfits, rest, hrest, fuel + 1, _ => by
    have hscan := scanScalar_toDigits hfits hrest
    obtain ⟨c, cs, hcs, hc⟩ := exists_digit_toDigits n
    rw [chars, toScan, ← hscan, hcs, List.cons_append]
    exact scanValue_scalar (starts_of_isDigit hc).1 (by rintro rfl; exact absurd hc (by decide))
      (by rintro rfl; exact absurd hc (by decide)) fuel _
  | .array [], _, rest, _, fuel + 1, _ => by
    simp [chars, itemChars, scanValue, dropBlanks_cons, isBlank, toScan, itemScans]
  | .array (j :: js), hfits, rest, _, fuel + 1, hfuel => by
    have hitems := scanItems_itemChars (j :: js) (List.cons_ne_nil j js) hfits rest fuel
      (by simp only [chars, List.length_append, List.length_cons] at hfuel; omega)
    obtain ⟨c, cs, hcs, hc⟩ := exists_starts_itemChars j js
    rw [hcs] at hitems
    simpa [chars, hcs, toScan] using scanValue_array hc hitems
  | .object [], _, rest, _, fuel + 1, _ => by
    simp [chars, memberChars, scanValue, dropBlanks_cons, isBlank, toScan, memberScans]
  | .object (m :: ms), hfits, rest, _, fuel + 1, hfuel => by
    have hmembers := scanMembers_memberChars (m :: ms) (List.cons_ne_nil m ms) hfits rest fuel
      (by simp only [chars, List.length_append, List.length_cons] at hfuel; omega)
    obtain ⟨cs, hcs⟩ := exists_quote_memberChars m ms
    rw [hcs] at hmembers
    simpa [chars, hcs, toScan] using scanValue_object hmembers
  | .null, _, _, _, 0, h | .bool true, _, _, _, 0, h | .bool false, _, _, _, 0, h
  | .string _, _, _, _, 0, h | .array _, _, _, _, 0, h | .object _, _, _, _, 0, h => by
    simp [chars, literal] at h
  | .number n, _, _, _, 0, h => by
    obtain ⟨c, cs, hcs, -⟩ := exists_digit_toDigits n
    simp [chars, hcs] at h
termination_by structural j => j

theorem scanItems_itemChars : (js : List Json) → js ≠ [] → FitsAll js → (rest : List Char) →
    (fuel : Nat) → 2 * (itemChars js).length < fuel →
    scanItems fuel (itemChars js ++ ']' :: rest) = (itemScans js, .closed, some rest)
  | [], h, _, _, _, _ => absurd rfl h
  | [j], _, hfits, rest, fuel + 1, hfuel => by
    have hvalue := scanValue_chars j hfits.1 (']' :: rest) (stopsNumber_cons (by simp) rest) fuel
      (by rw [itemChars] at hfuel; omega)
    rw [itemChars, scanItems, hvalue]
    simp [dropBlanks_cons, isBlank, itemScans]
  | j :: j' :: js, _, hfits, rest, fuel + 1, hfuel => by
    have hlength : (itemChars (j :: j' :: js)).length =
        (chars j).length + (itemChars (j' :: js)).length + 1 := by simp [itemChars]; omega
    have hvalue := scanValue_chars j hfits.1 (',' :: (itemChars (j' :: js) ++ ']' :: rest))
      (stopsNumber_cons (by simp) _) fuel (by omega)
    have hitems := scanItems_itemChars (j' :: js) (List.cons_ne_nil j' js) hfits.2 rest fuel
      (by omega)
    obtain ⟨c, cs, hcs, hc⟩ := exists_starts_itemChars j' js
    rw [hcs] at hvalue hitems
    simpa [itemChars, hcs, itemScans] using scanItems_comma hc hvalue hitems
termination_by structural js => js

theorem scanMembers_memberChars : (ms : List (String × Json)) → ms ≠ [] → FitsMembers ms →
    (rest : List Char) → (fuel : Nat) → 2 * (memberChars ms).length < fuel →
    scanMembers fuel (memberChars ms ++ '\x7d' :: rest) = (memberScans ms, .closed, some rest)
  | [], h, _, _, _, _ => absurd rfl h
  | [(key, j)], _, hfits, rest, fuel + 1, hfuel => by
    have hvalue := scanValue_chars j hfits.1 ('\x7d' :: rest) (stopsNumber_cons (by simp) rest) fuel
      (by simp only [memberChars, List.length_append, List.length_cons] at hfuel; omega)
    simp [memberChars, literal, scanMembers, scanString_literal, dropBlanks_cons, isBlank, hvalue,
      memberScans]
  | (key, j) :: m :: ms, _, hfits, rest, fuel + 1, hfuel => by
    have hlength : (chars j).length + (memberChars (m :: ms)).length + 1 ≤
        (memberChars ((key, j) :: m :: ms)).length := by simp [memberChars]; omega
    have hvalue := scanValue_chars j hfits.1 (',' :: (memberChars (m :: ms) ++ '\x7d' :: rest))
      (stopsNumber_cons (by simp) _) fuel (by omega)
    have hmembers := scanMembers_memberChars (m :: ms) (List.cons_ne_nil m ms) hfits.2 rest fuel
      (by omega)
    obtain ⟨cs, hcs⟩ := exists_quote_memberChars m ms
    rw [hcs] at hvalue hmembers
    simp only [List.cons_append] at hvalue hmembers
    simp [memberChars, hcs, literal, scanMembers, scanString_literal, dropBlanks_cons, isBlank,
      hvalue, hmembers, memberScans]
termination_by structural ms => ms
end

/-- The text of a value is scanned to its end and gives the value back. -/
theorem ofChars_text {j : Json} (h : Fits j) :
    Scan.ofChars j.text.toList = (toScan j, some []) := by
  have hscan := scanValue_chars j h [] (fun _ hc => nomatch hc) (2 * (chars j).length + 2) (by omega)
  simpa [Scan.ofChars, text] using hscan

end CeylonFromJava.Json
