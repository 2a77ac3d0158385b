import CeylonFromJava.Proofs.Ceylon.Reading

/-! Texts that are read as a given skeleton.

There are three ways in which a text can be read as the operand `s`, each for what may follow it.

* `ReadsPostfixed`: points and operators behind it go on with `s`.
* `ReadsUnary`: as the operand of an operator in front of it.
* `ReadsAt q`: between operators that bind no tighter than `q`.

`Reads q` holds all those that a text of binding strength `q` owes. One lemma for each form of
expression says how the text of the whole is read when those of the parts are. -/
namespace CeylonFromJava.Ceylon
set_option autoImplicit false

open Java (Precedence BinaryOp AssignOp UnaryOp)
open Name

/-! ## What may follow -/

/-- No point, parenthesis, sign or word follows. -/
def Closed (cs : List Char) : Prop := ∀ c, cs.head? = some c → c = ' ' ∨ c = ')' ∨ c = ','

def Ends (cs : List Char) : Prop := Closed cs ∧ Infix.next? cs = none

/-- An expression of binding strength `q` is over, or goes on with an operator that binds no
tighter; behind an assignment or a conditional no operator follows. -/
def Follows (q : Precedence) (cs : List Char) : Prop :=
  Closed cs ∧ ∀ op rest, Infix.next? cs = some (op, rest) → op.precedence ≤ q ∧ Precedence.or ≤ q

/-- A name is over and is not called. -/
def EndsName (cs : List Char) : Prop := EndsWord cs ∧ cs.head? ≠ some '('

theorem Ends.follows {cs : List Char} (h : Ends cs) (q : Precedence) : Follows q cs :=
  ⟨h.1, fun op rest hn => by rw [h.2] at hn; cases hn⟩

theorem Follows.mono {q q' : Precedence} {cs : List Char} (h : Follows q cs) (hq : q ≤ q') :
    Follows q' cs :=
  ⟨h.1, fun op rest hn => ⟨Nat.le_trans (h.2 op rest hn).1 hq, Nat.le_trans (h.2 op rest hn).2 hq⟩⟩

/-- Behind an assignment or a conditional nothing follows. -/
theorem Follows.ends {q : Precedence} {cs : List Char} (h : Follows q cs) (hq : q < Precedence.or) :
    Ends cs := by
  refine ⟨h.1, ?_⟩
  cases hn : Infix.next? cs with
  | none => rfl
  | some r => exact absurd hq (Nat.not_lt.mpr (h.2 r.1 r.2 hn).2)

theorem Closed.endsName {cs : List Char} (h : Closed cs) : EndsName cs := by
  constructor
  · intro c hc
    rcases h c hc with rfl | rfl | rfl <;> decide
  · intro hc
    rcases h _ hc with h | h | h <;> cases h

theorem Closed.endsType {cs : List Char} (h : Closed cs) : EndsType cs := by
  intro c hc
  rcases h c hc with rfl | rfl | rfl <;> decide

theorem closed_cons {c : Char} (h : c = ' ' ∨ c = ')' ∨ c = ',') (cs : List Char) :
    Closed (c :: cs) := by
  intro d hd
  cases hd
  exact h

theorem ends_nil : Ends [] := by
  refine ⟨?_, rfl⟩
  intro c hc
  cases hc

theorem ends_parenthesis (cs : List Char) : Ends (')' :: cs) :=
  ⟨closed_cons (by decide) cs, rfl⟩

theorem ends_comma (cs : List Char) : Ends (',' :: cs) :=
  ⟨closed_cons (by decide) cs, rfl⟩

theorem ends_else (cs : List Char) : Ends (" else ".toList ++ cs) :=
  ⟨closed_cons (by decide) _, rfl⟩

theorem endsName_cons {c : Char} (h : isWordChar c = false) (h' : c ≠ '(') (cs : List Char) :
    EndsName (c :: cs) :=
  ⟨endsWord_cons h cs, fun hc => h' (Option.some.inj hc)⟩

/-! ## Single steps of the reader -/

theorem after_append (w cs : List Char) : after w (w ++ cs) = some cs := by
  simp [after]

theorem after_eq_none {c : Char} {cs : List Char} (h : cs.head? ≠ some c) : after [c] cs = none := by
  cases cs with
  | nil => rfl
  | cons d ds =>
    have hd : c ≠ d := fun e => h (by rw [e]; rfl)
    simp [after, hd]

/-- An operator between blanks, as it is written. -/
def Infix.chars (op : Infix) : List Char := ' ' :: (op.symbol.toList ++ [' '])

theorem Infix.next?_chars (op : Infix) (cs : List Char) : next? (op.chars ++ cs) = some (op, cs) := by
  cases op with
  | isType => rfl
  | binary op =>
    cases op with
    | arith op => cases op <;> rfl
    | _ => rfl
  | assign op =>
    cases op with
    | plain => rfl
    | compound op => cases op <;> rfl

theorem Infix.closed_chars (op : Infix) (cs : List Char) : Closed (op.chars ++ cs) :=
  closed_cons (by decide) _

theorem settles_readInfixes_stop {p : Precedence} {s : Skeleton} {cs : List Char}
    (h : ∀ op rest, Infix.next? cs = some (op, rest) → op.precedence < p) :
    Settles (readInfixes · p s cs) (s, cs) := by
  refine Settles.of_succ ⟨0, fun m _ => ?_⟩
  rw [readInfixes]
  cases hn : Infix.next? cs with
  | none => rfl
  | some r =>
    obtain ⟨op, rest⟩ := r
    simp only [h op rest hn, if_true]

theorem Ends.settles_readInfixes {cs : List Char} (h : Ends cs) (p : Precedence) (s : Skeleton) :
    Settles (readInfixes · p s cs) (s, cs) := by
  refine settles_readInfixes_stop ?_
  intro op rest hn
  rw [h.2] at hn
  cases hn

theorem settles_readExpr {p : Precedence} {cs rest : List Char} {s : Skeleton}
    {r : Skeleton × List Char} (h : Settles (readOperand · cs) (s, rest))
    (hs : Settles (readInfixes · p s rest) r) : Settles (readExpr · p cs) r := by
  refine h.step₂ hs ?_
  intro m hm hm'
  simp [readExpr, hm, hm']

theorem settles_readPostfixes_stop {cs : List Char} (h : Closed cs) (s : Skeleton) :
    Settles (readPostfixes · s cs) (s, cs) := by
  refine Settles.of_succ ⟨0, fun m _ => ?_⟩
  cases cs with
  | nil => rfl
  | cons c cs => rcases h c rfl with rfl | rfl | rfl <;> rfl

/-! ## Ways of being read -/

/-- Points and operators behind the text go on with `s`. -/
def ReadsPostfixed (t : List Char) (s : Skeleton) : Prop :=
  ∀ rest r, EndsName rest → Settles (readPostfixes · s rest) r →
    Settles (readOperand · (t ++ rest)) r

/-- The text is read as the operand `s`. -/
def ReadsUnary (t : List Char) (s : Skeleton) : Prop :=
  ∀ rest, Closed rest → Settles (readOperand · (t ++ rest)) (s, rest)

/-- Operators behind the text that bind no tighter than `q` go on with `s`. -/
def ReadsAt (q : Precedence) (t : List Char) (s : Skeleton) : Prop :=
  ∀ p rest r, p ≤ q → Follows q rest → Settles (readInfixes · p s rest) r →
    Settles (readExpr · p (t ++ rest)) r

/-- The text is read as the expression `s`. -/
def ReadsWhole (t : List Char) (s : Skeleton) : Prop :=
  ∀ rest, Ends rest → Settles (readExpr · 0 (t ++ rest)) (s, rest)

theorem ReadsPostfixed.readsUnary {t : List Char} {s : Skeleton} (h : ReadsPostfixed t s) :
    ReadsUnary t s :=
  fun rest hr => h rest _ hr.endsName (settles_readPostfixes_stop hr s)

theorem ReadsUnary.readsAt {t : List Char} {s : Skeleton} (h : ReadsUnary t s) (q : Precedence) :
    ReadsAt q t s := by
  intro p rest r _ hf hs
  exact settles_readExpr (h rest hf.1) hs

theorem ReadsAt.readsWhole {q : Precedence} {t : List Char} {s : Skeleton} (h : ReadsAt q t s) :
    ReadsWhole t s := by
  intro rest hr
  exact h 0 rest _ (Nat.zero_le q) (hr.follows q) (hr.settles_readInfixes 0 s)

/-- The text has binding strength `q` and is read as `s`. -/
structure Reads (q : Precedence) (t : List Char) (s : Skeleton) : Prop where
  postfixed : Precedence.postfixed ≤ q → ReadsPostfixed t s
  unary : Precedence.unary ≤ q → ReadsUnary t s
  between : ReadsAt q t s

namespace Reads

variable {q : Precedence} {t : List Char} {s : Skeleton}

theorem of_postfixed (q : Precedence) (h : ReadsPostfixed t s) : Reads q t s :=
  ⟨fun _ => h, fun _ => h.readsUnary, h.readsUnary.readsAt q⟩

theorem of_unary (h : ReadsUnary t s) : Reads .unary t s :=
  ⟨fun hq => absurd hq (by decide), fun _ => h, h.readsAt _⟩

theorem of_between (hq : q < .unary) (h : ReadsAt q t s) : Reads q t s :=
  ⟨fun hq' => absurd (Nat.lt_of_lt_of_le hq (Nat.le_trans (by decide) hq')) (Nat.lt_irrefl q),
    fun hq' => absurd (Nat.lt_of_lt_of_le hq hq') (Nat.lt_irrefl q), h⟩

end Reads

/-! ## Parentheses -/

/-- The text between parentheses, if they are needed. -/
def groupedChars (needed : Bool) (t : List Char) : List Char :=
  if needed then '(' :: (t ++ [')']) else t

theorem ReadsWhole.parenthesized {t : List Char} {s : Skeleton} (h : ReadsWhole t s) :
    ReadsPostfixed ('(' :: (t ++ [')'])) s := by
  intro rest r _ hs
  refine (h (')' :: rest) (ends_parenthesis rest)).step₂ hs ?_
  intro m hm hm'
  have hclose : after [')'] (')' :: rest) = some rest := after_append [')'] rest
  simp [readOperand, prefixOp?, hm, hclose, hm']

namespace Reads

variable {q : Precedence} {t : List Char} {s : Skeleton}

theorem whole (h : Reads q t s) : ReadsWhole t s := h.between.readsWhole

/-- In front of a point. -/
theorem grouped_postfixed (h : Reads q t s) {l : Precedence} (hl : Precedence.postfixed ≤ l) :
    ReadsPostfixed (groupedChars (q < l) t) s := by
  by_cases hq : q < l
  · simpa [groupedChars, hq] using h.whole.parenthesized
  · have hp := Nat.le_trans hl (Nat.le_of_not_lt hq)
    simpa [groupedChars, hq] using h.postfixed hp

/-- Behind an operator. -/
theorem grouped_unary (h : Reads q t s) (b : Bool) :
    ReadsUnary (groupedChars (b || q < Precedence.unary) t) s := by
  by_cases hb : (b || decide (q < Precedence.unary)) = true
  · simpa [groupedChars, hb] using h.whole.parenthesized.readsUnary
  · have hq : ¬ q < Precedence.unary := by
      intro hlt
      exact hb (by simp [hlt])
    rw [Bool.not_eq_true] at hb
    simpa [groupedChars, hb] using h.unary (Nat.le_of_not_lt hq)

/-- Beside an operator of binding strength `l`. -/
theorem grouped_between (h : Reads q t s) (l : Precedence) :
    ReadsAt l (groupedChars (q < l) t) s := by
  by_cases hq : q < l
  · simpa [groupedChars, hq] using h.whole.parenthesized.readsUnary.readsAt l
  · have hl : l ≤ q := Nat.le_of_not_lt hq
    intro p rest r hp hf hs
    simpa [groupedChars, hq] using h.between p rest r (Nat.le_trans hp hl) (hf.mono hl) hs

end Reads

/-! ## Words and names -/

theorem wordOf_append {w : String} {rest : List Char} (hw : ∀ c ∈ w.toList, isWordChar c = true)
    (hr : EndsWord rest) : wordOf (w.toList ++ rest) = w := by
  rw [wordOf, takeWhile_word hw hr, String.ofList_toList]

theorem afterWord_append {w : String} {rest : List Char} (hw : ∀ c ∈ w.toList, isWordChar c = true)
    (hr : EndsWord rest) : afterWord (w.toList ++ rest) = rest :=
  dropWhile_word hw hr

theorem settles_readOperand_word {w : String} {rest : List Char} {r : Skeleton × List Char}
    (hne : w.toList ≠ []) (hw : ∀ c ∈ w.toList, isWordChar c = true) (hr : EndsWord rest)
    (h : Settles (readWord · w rest) r) : Settles (readOperand · (w.toList ++ rest)) r := by
  refine h.step ?_
  intro m hm
  have hword := wordOf_append hw hr
  have hafter := afterWord_append hw hr
  cases hl : w.toList with
  | nil => exact absurd hl hne
  | cons c cs =>
    rw [hl] at hword hafter hw
    have hc : isWordChar c = true := hw c (List.mem_cons_self ..)
    have hplus : c ≠ '+' := by rintro rfl; cases hc
    have hminus : c ≠ '-' := by rintro rfl; cases hc
    have hnot : c ≠ '!' := by rintro rfl; cases hc
    have hopen : c ≠ '(' := by rintro rfl; cases hc
    have hmarker : c ≠ '\\' := by rintro rfl; cases hc
    rw [List.cons_append] at hword hafter ⊢
    have hop : prefixOp? (c :: (cs ++ rest)) = none := by
      simp [prefixOp?, hplus, hminus, hnot]
    simp [readOperand, hop, hopen, hmarker, hword, hafter, hm]

/-- A name with or without marker. -/
def Spells (t : List Char) (name : String) : Prop :=
  t = marker.toList ++ name.toList ∨ t = name.toList

theorem afterMarker_append {name : String} {t : List Char} (hn : isIdentifier name = true)
    (ht : Spells t name) (rest : List Char) : afterMarker (t ++ rest) = name.toList ++ rest := by
  rcases ht with rfl | rfl
  · simp [marker, afterMarker]
  · obtain ⟨c, cs, hc, hl⟩ := exists_letter hn
    have hm : c ≠ '\\' := by rintro rfl; cases hl
    rw [hc]
    simp [afterMarker, hm]

/-- A name that is no target's; a word of the language must have the marker. -/
theorem settles_readOperand_name {name : String} {t rest : List Char} {r : Skeleton × List Char}
    (hn : isIdentifier name = true) (ht : Spells t name)
    (hres : t = name.toList → isReserved name = false) (hr : EndsWord rest)
    (h : Settles (readMember · none name rest) r) : Settles (readOperand · (t ++ rest)) r := by
  have hw := isWordChar_of_isIdentifier hn
  rcases ht with rfl | rfl
  · refine h.step ?_
    intro m hm
    have hmark := afterMarker_append hn (.inl rfl) rest
    have hm' : marker.toList = ['\\', 'i'] := rfl
    rw [hm'] at hmark ⊢
    simp only [List.cons_append, List.nil_append] at hmark ⊢
    simp [readOperand, prefixOp?, hmark, wordOf_append hw hr, afterWord_append hw hr, hm]
  · obtain ⟨c, cs, hc, hl⟩ := exists_letter hn
    have hbare := hres rfl
    refine settles_readOperand_word (by simp [hc]) hw hr (h.step ?_)
    intro m hm
    have hthis : name ≠ "this" := by rintro rfl; cases hbare
    have hsuper : name ≠ "super" := by rintro rfl; cases hbare
    have his : name ≠ "is" := by rintro rfl; cases hbare
    have hif : name ≠ "if" := by rintro rfl; cases hbare
    have hdigit := isDigit_of_isLetter hl
    simp [readWord, hthis, hsuper, his, hif, hc, hdigit, hm]

theorem ReadsPostfixed.member {t w rest : List Char} {s : Skeleton} {name : String}
    {r : Skeleton × List Char} (h : ReadsPostfixed t s) (hn : isIdentifier name = true)
    (hw : Spells w name) (hr : EndsWord rest) (hs : Settles (readMember · (some s) name rest) r) :
    Settles (readOperand · (t ++ '.' :: (w ++ rest))) r := by
  have hc := isWordChar_of_isIdentifier hn
  refine h _ r (endsName_cons (by decide) (by decide) _) (hs.step ?_)
  intro m hm
  simp [readPostfixes, afterMarker_append hn hw rest, wordOf_append hc hr, afterWord_append hc hr,
    hm]

/-! ## Lists between parentheses -/

/-- What follows an item: the end of the list, or a comma and the items `ss`. -/
def ItemsFollow (rest : List Char) (ss : List Skeleton) (r : List Char) : Prop :=
  (rest = ')' :: r ∧ ss = []) ∨
    ∃ more, rest = ',' :: ' ' :: more ∧ Settles (readItems · more) (ss, r)

/-- The text is read as the items `ss`, whatever items follow. -/
def ReadsList (t : List Char) (ss : List Skeleton) : Prop :=
  ∀ rest more r, ItemsFollow rest more r → Settles (readItems · (t ++ rest)) (ss ++ more, r)

theorem ReadsWhole.readsList {t : List Char} {s : Skeleton} (h : ReadsWhole t s) :
    ReadsList t [s] := by
  rintro rest more r (⟨rfl, rfl⟩ | ⟨cs, rfl, hmore⟩)
  · refine (h _ (ends_parenthesis r)).step ?_
    intro m hm
    simp [readItems, hm, after]
  · refine (h _ (ends_comma (' ' :: cs))).step₂ hmore ?_
    intro m hm hm'
    simp [readItems, hm, hm', after]

theorem ReadsList.append {t u : List Char} {ss ss' : List Skeleton} (ht : ReadsList t ss)
    (hu : ReadsList u ss') : ReadsList (t ++ (", ".toList ++ u)) (ss ++ ss') := by
  intro rest more r hf
  have htail := ht (", ".toList ++ (u ++ rest)) (ss' ++ more) r (.inr ⟨u ++ rest, rfl, hu rest more r hf⟩)
  simpa only [List.append_assoc] using htail

/-- The text between the parentheses is read as the items `ss`. -/
def ReadsItems (t : List Char) (ss : List Skeleton) : Prop :=
  ∀ rest, Settles (readItems · (t ++ ')' :: rest)) (ss, rest)

theorem readsItems_nil : ReadsItems [] [] := by
  intro rest
  refine Settles.of_succ ⟨0, fun m _ => ?_⟩
  have hnone : readExpr m 0 (')' :: rest) = none := by
    match m with
    | 0 => rfl
    | 1 => rfl
    | 2 => rfl
    | m + 3 => rfl
  simp [readItems, hnone, after]

theorem ReadsList.readsItems {t : List Char} {ss : List Skeleton} (h : ReadsList t ss) :
    ReadsItems t ss := by
  intro rest
  simpa using h (')' :: rest) [] rest (.inl ⟨rfl, rfl⟩)

/-! ## Operands -/

theorem settles_readMember_called {target : Option Skeleton} {name : String} {t rest : List Char}
    {ss : List Skeleton} {r : Skeleton × List Char} (h : ReadsItems t ss)
    (hs : Settles (readPostfixes · (.call target name ss) rest) r) :
    Settles (readMember · target name ('(' :: (t ++ ')' :: rest))) r := by
  refine (h rest).step₂ hs ?_
  intro m hm hm'
  have hopen : after ['('] ('(' :: (t ++ ')' :: rest)) = some (t ++ ')' :: rest) :=
    after_append ['('] _
  simp [readMember, hopen, hm, hm']

theorem readsPostfixed_name {name : String} {t : List Char} (hn : isIdentifier name = true)
    (ht : Spells t name) (hres : t = name.toList → isReserved name = false) :
    ReadsPostfixed t (.name name) := by
  intro rest r hr hs
  refine settles_readOperand_name hn ht hres hr.1 (hs.step ?_)
  intro m hm
  simp [readMember, after_eq_none hr.2, hm]

theorem readsPostfixed_this : ReadsPostfixed "this".toList .thisRef := by
  intro rest r hr hs
  refine settles_readOperand_word (by decide) (isWordChar_of_isIdentifier (by decide)) hr.1
    (hs.step ?_)
  intro m hm
  simp [readWord, hm]

theorem readsPostfixed_super : ReadsPostfixed "super".toList .superRef := by
  intro rest r hr hs
  refine settles_readOperand_word (by decide) (isWordChar_of_isIdentifier (by decide)) hr.1
    (hs.step ?_)
  intro m hm
  simp [readWord, hm]

def isDecimal (text : String) : Bool := !text.toList.isEmpty && text.toList.all Char.isDigit

theorem readsPostfixed_number {text : String} (h : isDecimal text = true) :
    ReadsPostfixed text.toList (.number text) := by
  rw [isDecimal, Bool.and_eq_true, List.all_eq_true] at h
  intro rest r hr hs
  have hw : ∀ c ∈ text.toList, isWordChar c = true := by
    intro c hc
    simp [isWordChar, h.2 c hc]
  cases hl : text.toList with
  | nil => simp [hl] at h
  | cons c cs =>
    have hdigit : c.isDigit = true := h.2 c (by rw [hl]; exact List.mem_cons_self ..)
    have hfirst : ∀ w : String, w.toList.head?.all Char.isDigit = false → text ≠ w := by
      rintro w hw rfl
      simp [hl, hdigit] at hw
    rw [← hl]
    refine settles_readOperand_word (by simp [hl]) hw hr.1 (hs.step ?_)
    intro m hm
    simp [readWord, hfirst "this" rfl, hfirst "super" rfl, hfirst "is" rfl, hfirst "if" rfl, hl,
      hdigit, hm]

theorem ReadsPostfixed.field {t w : List Char} {s : Skeleton} {name : String}
    (h : ReadsPostfixed t s) (hn : isIdentifier name = true) (hw : Spells w name) :
    ReadsPostfixed (t ++ '.' :: w) (.field s name) := by
  intro rest r hr hs
  rw [List.append_assoc, List.cons_append]
  refine h.member hn hw hr.1 (hs.step ?_)
  intro m hm
  simp [readMember, after_eq_none hr.2, hm]

theorem ReadsPostfixed.call {t w a : List Char} {s : Skeleton} {name : String} {ss : List Skeleton}
    (h : ReadsPostfixed t s) (hn : isIdentifier name = true) (hw : Spells w name)
    (ha : ReadsItems a ss) :
    ReadsPostfixed (t ++ '.' :: (w ++ '(' :: (a ++ [')']))) (.call (some s) name ss) := by
  intro rest r hr hs
  have hm := h.member hn hw (endsWord_cons (by decide) _) (settles_readMember_called ha hs)
  simpa only [List.append_assoc, List.cons_append, List.nil_append] using hm

theorem readsPostfixed_call {w a : List Char} {name : String} {ss : List Skeleton}
    (hn : isIdentifier name = true) (hw : Spells w name)
    (hres : w = name.toList → isReserved name = false) (ha : ReadsItems a ss) :
    ReadsPostfixed (w ++ '(' :: (a ++ [')'])) (.call none name ss) := by
  intro rest r hr hs
  have hm := settles_readOperand_name hn hw hres (endsWord_cons (by decide) _)
    (settles_readMember_called ha hs)
  simpa only [List.append_assoc, List.cons_append, List.nil_append] using hm

theorem ReadsPostfixed.behind {t : List Char} {s : Skeleton} (h : ReadsPostfixed t s) {op : UnaryOp}
    (hop : op.isPostfix = true) : ReadsPostfixed (t ++ op.symbol.toList) (.unary op s) := by
  intro rest r hr hs
  rw [List.append_assoc]
  cases op with
  | postIncrement =>
    refine h _ r (endsName_cons (by decide) (by decide) _) (hs.step ?_)
    intro m hm
    exact hm
  | postDecrement =>
    refine h _ r (endsName_cons (by decide) (by decide) _) (hs.step ?_)
    intro m hm
    exact hm
  | _ => cases hop

/-- A sign in front of a text that does not start with it. -/
theorem prefixOp?_append {op : UnaryOp} {cs : List Char} (hop : op.isPostfix = false)
    (hc : op ≠ .complement) (hplus : op = .plus → cs.head? ≠ some '+')
    (hminus : op = .minus → cs.head? ≠ some '-') :
    prefixOp? (op.symbol.toList ++ cs) = some (op, cs) := by
  cases op with
  | plus =>
    have hne : ∀ ds, cs ≠ '+' :: ds := fun ds e => hplus rfl (by rw [e]; rfl)
    simp [UnaryOp.symbol, prefixOp?]
  | minus =>
    have hne : ∀ ds, cs ≠ '-' :: ds := fun ds e => hminus rfl (by rw [e]; rfl)
    simp [UnaryOp.symbol, prefixOp?]
  | not => rfl
  | preIncrement => rfl
  | preDecrement => rfl
  | complement => exact absurd rfl hc
  | postIncrement | postDecrement => cases hop

theorem ReadsUnary.before {t : List Char} {s : Skeleton} (h : ReadsUnary t s) {op : UnaryOp}
    (hop : op.isPostfix = false) (hc : op ≠ .complement) (hne : t ≠ [])
    (hplus : op = .plus → t.head? ≠ some '+') (hminus : op = .minus → t.head? ≠ some '-') :
    ReadsUnary (op.symbol.toList ++ t) (.unary op s) := by
  intro rest hr
  have hhead : (t ++ rest).head? = t.head? := by
    cases t with
    | nil => exact absurd rfl hne
    | cons c t => rfl
  have hread : prefixOp? (op.symbol.toList ++ (t ++ rest)) = some (op, t ++ rest) :=
    prefixOp?_append hop hc (by rwa [hhead]) (by rwa [hhead])
  rw [List.append_assoc]
  refine (h rest hr).step ?_
  intro m hm
  simp [readOperand, hread, hm]

/-! ## Operators between operands -/

theorem or_le_precedence (op : BinaryOp) : Precedence.or ≤ op.precedence := by
  cases op with
  | arith op => cases op <;> decide
  | _ => decide

/-- Behind an operand, an operator of binding strength `q` may follow. -/
theorem Infix.follows_chars (op : Infix) (cs : List Char) {q : Precedence} (h : op.precedence ≤ q)
    (hor : Precedence.or ≤ q) : Follows q (op.chars ++ cs) := by
  refine ⟨op.closed_chars cs, ?_⟩
  intro op' rest hn
  rw [op.next?_chars cs] at hn
  cases hn
  exact ⟨h, hor⟩

/-- The operands of an operator go to both sides of it; the right one must bind tighter. -/
theorem ReadsAt.binary {op : BinaryOp} {l r : List Char} {a b : Skeleton}
    (hl : ReadsAt op.precedence l a) (hr : ReadsAt (op.precedence + 1) r b) :
    ReadsAt op.precedence (l ++ ((Infix.binary op).chars ++ r)) (.binary a op b) := by
  intro p rest x hp hf hs
  have hor := or_le_precedence op
  have hright : Settles (readExpr · (op.precedence + 1) (r ++ rest)) (b, rest) := by
    refine hr _ rest _ (Nat.le_refl _) (hf.mono (Nat.le_succ _)) (settles_readInfixes_stop ?_)
    intro op' rest' hn
    exact Nat.lt_succ_of_le (hf.2 op' rest' hn).1
  have hinfix : Settles (readInfixes · p a ((Infix.binary op).chars ++ (r ++ rest))) x := by
    refine hright.step₂ hs ?_
    intro m hm hm'
    simp [readInfixes, Infix.next?_chars, Infix.precedence, Nat.not_lt.mpr hp, hm, hm']
  rw [List.append_assoc, List.append_assoc]
  exact hl p _ x hp (Infix.follows_chars (.binary op) _ (Nat.le_refl _) hor) hinfix

theorem ReadsAt.isType {t : List Char} {s : Skeleton} {ty : Ty} (h : ReadsAt .relational t s)
    (hty : ty.Named) :
    ReadsAt .relational (t ++ (Infix.isType.chars ++ (segmentsText ty).toList)) (.isType s ty) := by
  intro p rest x hp hf hs
  have hinfix : Settles (readInfixes · p s
      (Infix.isType.chars ++ ((segmentsText ty).toList ++ rest))) x := by
    refine (settles_readTy hty rest hf.1.endsType).step₂ hs ?_
    intro m hm hm'
    simp [readInfixes, Infix.next?_chars, Infix.precedence, Nat.not_lt.mpr hp, hm, hm']
  rw [List.append_assoc, List.append_assoc]
  exact h p _ x hp (Infix.follows_chars .isType _ (Nat.le_refl _) (by decide)) hinfix

/-- The value of an assignment takes everything behind the sign. -/
theorem ReadsUnary.assign {t v : List Char} {s a : Skeleton} (h : ReadsUnary t s)
    (hv : ReadsWhole v a) (op : AssignOp) :
    ReadsAt .assignment (t ++ ((Infix.assign op).chars ++ v)) (.assign s op a) := by
  intro p rest x hp hf hs
  have hinfix : Settles (readInfixes · p s ((Infix.assign op).chars ++ (v ++ rest))) x := by
    refine (hv rest (hf.ends (by decide))).step₂ hs ?_
    intro m hm hm'
    simp [readInfixes, Infix.next?_chars, Infix.precedence, Nat.not_lt.mpr hp, hm, hm']
  rw [List.append_assoc, List.append_assoc]
  exact settles_readExpr (h _ ((Infix.assign op).closed_chars (v ++ rest))) hinfix

/-! ## Conditionals -/

/-- The item `is T e` of a condition list. -/
theorem readsWhole_isType {t : List Char} {s : Skeleton} {ty : Ty} (h : ReadsWhole t s)
    (hty : ty.Named) :
    ReadsWhole ("is ".toList ++ ((segmentsText ty).toList ++ ' ' :: t)) (.isType s ty) := by
  intro rest hr
  have hword : Settles (readWord · "is" (' ' :: ((segmentsText ty).toList ++ ' ' :: (t ++ rest))))
      (.isType s ty, rest) := by
    have htype := settles_readTy hty (' ' :: (t ++ rest))
      (endsType_cons (by decide) (by decide) (by decide) _)
    refine htype.step₂ (h rest hr) ?_
    intro m hm hm'
    have hblank : ∀ cs, after [' '] (' ' :: cs) = some cs := fun cs => after_append [' '] cs
    simp [readWord, hblank, hm, hm']
  have hoperand := settles_readOperand_word (by decide) (isWordChar_of_isIdentifier (by decide))
    (endsWord_cons (by decide) _) hword
  have htext : "is ".toList ++ ((segmentsText ty).toList ++ ' ' :: t) ++ rest =
      "is".toList ++ ' ' :: ((segmentsText ty).toList ++ ' ' :: (t ++ rest)) := by
    simp
  rw [htext]
  exact settles_readExpr hoperand (hr.settles_readInfixes 0 _)

/-- The text is read as items that ask for all of `ss`; an `&&` chain asks for its operands. -/
def ReadsConditions (t : List Char) (ss : List Skeleton) : Prop :=
  ∃ items : List Skeleton, items.flatMap Skeleton.conjuncts = ss ∧ ReadsList t items

theorem ReadsWhole.readsConditions {t : List Char} {s : Skeleton} (h : ReadsWhole t s) :
    ReadsConditions t s.conjuncts :=
  ⟨[s], by simp, h.readsList⟩

theorem ReadsConditions.append {t u : List Char} {ss ss' : List Skeleton} (ht : ReadsConditions t ss)
    (hu : ReadsConditions u ss') : ReadsConditions (t ++ (", ".toList ++ u)) (ss ++ ss') := by
  obtain ⟨items, rfl, ht⟩ := ht
  obtain ⟨items', rfl, hu⟩ := hu
  exact ⟨items ++ items', by simp, ht.append hu⟩

/-- A conditional takes everything behind its `else`. -/
theorem readsAt_conditional {c t e : List Char} {conditions : List Skeleton} {a b : Skeleton}
    (hc : ReadsConditions c conditions) (ha : ReadsWhole t a) (hb : ReadsWhole e b) :
    ReadsAt .conditional
      ("if (".toList ++ (c ++ (") then ".toList ++ (t ++ (" else ".toList ++ e)))))
      (.conditional conditions a b) := by
  intro p rest x hp hf hs
  obtain ⟨items, rfl, hc⟩ := hc
  have hword : Settles (readWord · "if" (" (".toList ++ (c ++ ')' :: (" then ".toList ++
      (t ++ (" else ".toList ++ (e ++ rest)))))))
      (.conditional (items.flatMap Skeleton.conjuncts) a b, rest) := by
    have hitems := hc.readsItems (" then ".toList ++ (t ++ (" else ".toList ++ (e ++ rest))))
    refine hitems.step₃ (ha _ (ends_else (e ++ rest))) (hb rest (hf.ends (by decide))) ?_
    intro m hm hm' hm''
    have hthis : "if" ≠ "this" := by decide
    have hsuper : "if" ≠ "super" := by decide
    have his : "if" ≠ "is" := by decide
    simp only [readWord, if_neg hthis, if_neg hsuper, if_neg his, if_true, after_append,
      Option.bind_eq_bind, Option.bind_some, hm, hm', hm'']
  have hoperand := settles_readOperand_word (by decide) (isWordChar_of_isIdentifier (by decide))
    (endsWord_cons (by decide) _) hword
  have htext : "if (".toList ++ (c ++ (") then ".toList ++ (t ++ (" else ".toList ++ e)))) ++ rest =
      "if".toList ++ (" (".toList ++ (c ++ ')' :: (" then ".toList ++
        (t ++ (" else ".toList ++ (e ++ rest)))))) := by
    simp
  rw [htext]
  exact settles_readExpr hoperand hs

end CeylonFromJava.Ceylon
