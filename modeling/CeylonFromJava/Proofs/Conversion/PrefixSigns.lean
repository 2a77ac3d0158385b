import CeylonFromJava.Proofs.Conversion.PlainExpr

/-! Signs in front of operands.

`frontSign e` is the sign that an operand is written with in front, also where the operand is an access
and the sign belongs to the number that is accessed. `leadingSign`, which decides on parentheses, does
not look into accesses. A prefix operator runs together with its operand exactly where the two differ,
`sign_merges_iff`. -/
namespace CeylonFromJava.Output.Piece
set_option autoImplicit false

/-- The first character, if texts start with one before a line ends. -/
def firstChar : List Piece → Option Char
  | .text s :: ps => s.toList.head?.or (firstChar ps)
  | _ => none

theorem firstChar_append {ps : List Piece} {c : Char} (h : firstChar ps = some c) (qs : List Piece) :
    firstChar (ps ++ qs) = some c := by
  induction ps with
  | nil => cases h
  | cons p ps ih =>
    cases p with
    | text s =>
      rw [firstChar] at h
      rw [List.cons_append, firstChar]
      cases hs : s.toList.head? with
      | none =>
        rw [hs] at h
        exact ih h
      | some d =>
        rw [hs] at h
        exact h
    | newline | indent | dedent => cases h

/-- Inside a line the first character is that of the text. -/
theorem head_of_firstChar {ps : List Piece} {c : Char} (h : firstChar ps = some c) (level : Nat) :
    (String.join (lines level false ps)).toList.head? = some c := by
  induction ps with
  | nil => cases h
  | cons p ps ih =>
    cases p with
    | text s =>
      rw [firstChar] at h
      rw [lines]
      by_cases hs : s.isEmpty
      · have hnil : s = "" := String.isEmpty_iff.mp hs
        rw [hnil] at h
        rw [if_pos hs]
        exact ih h
      · have hne : s.toList ≠ [] := by simpa using hs
        obtain ⟨d, ds, hd⟩ := List.exists_cons_of_ne_nil hne
        rw [hd] at h
        rw [if_neg hs]
        simpa [hd] using h
    | newline | indent | dedent => cases h

end CeylonFromJava.Output.Piece

namespace CeylonFromJava.Conversion
set_option autoImplicit false

open Java (Precedence UnaryOp)
open Output (Piece)
open Output.Piece (firstChar firstChar_append head_of_firstChar)

/-! ## Signs of expressions -/

def signOf (c : Char) : Option Char := if c = '+' ∨ c = '-' then some c else none

/-- The sign in front of an operand as it is written; parentheses hide it. -/
def frontSign : Java.Expr → Option Char
  | .literal (.number text) => text.toList.head?.bind signOf
  | .field target _ | .index target _ =>
    if target.precedence < .postfixed then none else frontSign target
  | .call (some target) _ name _ =>
    if name == "println" && isSystemOut target then none
    else if target.precedence < .postfixed then none else frontSign target
  | .unary op operand =>
    match op with
    | .plus | .preIncrement => some '+'
    | .minus | .preDecrement => some '-'
    | .not => none
    | .complement => if operand.precedence < .primary then none else frontSign operand
    | .postIncrement | .postDecrement =>
      if operand.precedence < .postfixed then none else frontSign operand
  | .cast _ operand => if operand.precedence < .unary then none else frontSign operand
  | _ => none

/-- A word is not empty and has no sign in front. -/
def isWord (s : String) : Bool := s.toList.head?.any fun c => signOf c == none

/-- What an operand starts with is a word, or a number that is not empty. -/
def startsWithWord : Java.Expr → Bool
  | .literal (.number text) => !text.isEmpty
  | .name name | .call none _ name _ => isWord name
  | .create ty _ none => ty.head?.all (isWord ·.name)
  | .field e _ | .index e _ | .call (some e) _ _ _ | .unary _ e | .cast _ e => startsWithWord e
  | _ => true

/-! ## First characters -/

/-- The pieces start with a character, and this is the sign in front if it is one. -/
def OpensWith (ps : List Piece) (sign : Option Char) : Prop :=
  ∃ c, firstChar ps = some c ∧ signOf c = sign

theorem OpensWith.append {ps : List Piece} {sign : Option Char} (h : OpensWith ps sign)
    (qs : List Piece) : OpensWith (ps ++ qs) sign := by
  obtain ⟨c, hc, hsign⟩ := h
  exact ⟨c, firstChar_append hc qs, hsign⟩

theorem opensWith_text {s : String} {c : Char} (hs : s.toList.head? = some c) (ps : List Piece) :
    OpensWith (.text s :: ps) (signOf c) :=
  ⟨c, by rw [firstChar, hs]; rfl, rfl⟩

/-- Parentheses hide a sign. -/
theorem OpensWith.grouped {e : Ceylon.Expr} {k : Nat} {sign : Option Char} (needed : Bool)
    (h : needed = false → OpensWith (e.pieces k) sign) :
    OpensWith ((grouped needed e).pieces k) (if needed then none else sign) := by
  cases needed with
  | true => exact opensWith_text (c := '(') rfl _
  | false => exact h rfl

theorem opensWith_isWord {s : String} (hs : isWord s = true) (ps : List Piece) :
    OpensWith (.text s :: ps) none := by
  obtain ⟨c, hc, hsign⟩ := (Option.any_eq_true _ _).mp hs
  have h := opensWith_text hc ps
  rwa [beq_iff_eq.mp hsign] at h

theorem isWord_marked (name : String) : isWord (Ceylon.Name.marker ++ name) = true := by
  simp [isWord, Ceylon.Name.marker, signOf]

theorem isWord_word {name : String} (h : isWord name = true) :
    isWord (Ceylon.Name.word name) = true := by
  unfold Ceylon.Name.word
  split
  · exact isWord_marked name
  · exact h

theorem isWord_small {name : String} (h : isWord name = true) :
    isWord (Ceylon.Name.small name) = true := by
  unfold Ceylon.Name.small
  split
  · exact isWord_marked name
  · exact h

theorem signOf_toLower {c : Char} (h : c.isUpper = true) : signOf c.toLower = none := by
  have hall : ∀ n < 0x80, (Char.ofNat n).isUpper = true → signOf (Char.ofNat n).toLower = none := by
    decide
  have hascii : c.toNat < 0x80 := by
    have hle : c.val ≤ 90 := (of_decide_eq_true h).2
    exact Nat.lt_of_le_of_lt hle (by decide)
  have hc := hall c.toNat hascii
  rw [Char.ofNat_toNat] at hc
  exact hc h

theorem isWord_property {method name : String} (h : Ceylon.Name.property method = some name) :
    isWord name = true := by
  unfold Ceylon.Name.property at h
  split at h
  · split at h
    · next hletters =>
      cases h
      rw [Bool.and_eq_true] at hletters
      simp [isWord, signOf_toLower hletters.1]
    · cases h
  · cases h

theorem isWord_arrayType : (t : Java.TypeRef) → isWord (arrayType t).text = true
  | .array element _ => isWord_arrayType element
  | .primitive p => by
    have hname : isWord (primitiveArrayName p) = true := by cases p <;> decide
    simpa [arrayType, Ceylon.Ty.named, Ceylon.Ty.text, Ceylon.segmentsText, Ceylon.bracketedText]
  | .classType _ => by
    simp [arrayType, objectArray, Ceylon.Ty.text, Ceylon.segmentsText, isWord, signOf]

theorem opensWith_classType {ty : Java.ClassType} (h : ty.head?.all (isWord ·.name) = true)
    (ps : List Piece) : OpensWith (.text (classType ty).text :: .text "(" :: ps) none := by
  cases ty with
  | nil =>
    refine ⟨'(', ?_, rfl⟩
    simp [firstChar, classType, segmentList, Ceylon.Ty.text, Ceylon.segmentsText]
  | cons segment segments =>
    obtain ⟨name, args⟩ := segment
    obtain ⟨c, hc, hsign⟩ := (Option.any_eq_true _ _).mp (show isWord name = true from h)
    refine opensWith_isWord ?_ _
    obtain ⟨cs, hcs⟩ : ∃ cs, name.toList = c :: cs := List.head?_eq_some_iff.mp hc
    cases segments with
    | nil =>
      simp [isWord, classType, segmentList, Ceylon.Ty.text, Ceylon.segmentsText, hcs, beq_iff_eq.mp hsign]
    | cons segment' segments =>
      obtain ⟨name', args'⟩ := segment'
      simp [isWord, classType, segmentList, Ceylon.Ty.text, Ceylon.segmentsText, hcs, beq_iff_eq.mp hsign]

theorem opensWith_array (elements : List Ceylon.Expr) (k : Nat) :
    OpensWith ((Ceylon.Expr.array elements).pieces k) none := by
  cases elements with
  | nil => exact opensWith_text (c := 'A') rfl _
  | cons e es => exact opensWith_text (c := 'A') rfl _

theorem opensWith_object (ty : Ceylon.Ty) (args : List Ceylon.Expr) (body : List Ceylon.Member)
    (k : Nat) : OpensWith ((Ceylon.Expr.object ty args body).pieces k) none := by
  cases args with
  | nil => exact opensWith_text (c := 'o') rfl _
  | cons e es => exact opensWith_text (c := 'o') rfl _

/-! ## Operands -/

section

variable (env : Env) (scope : Scope)

/-- A call without target starts with a name: its own, or that of the property it reads. -/
theorem opensWith_callOwn {name : String} (hw : isWord name = true) (typeArgs : List Java.TypeRef)
    (args : List Java.Expr) (k : Nat) :
    OpensWith ((expr env (.call none typeArgs name args) scope).pieces k) none := by
  rw [expr, if_neg (by simp)]
  cases hproperty : propertyOf env.config name args with
  | none => exact opensWith_isWord (isWord_small hw) _
  | some property =>
    have hname : Ceylon.Name.property name = some property := by
      unfold propertyOf at hproperty
      split at hproperty
      · exact hproperty
      · cases hproperty
    exact opensWith_isWord (isWord_small (isWord_property hname)) _

/-- A call on a target starts with the target, unless it prints a line. -/
theorem opensWith_callOn {target : Java.Expr} {k : Nat} {sign : Option Char} (name : String)
    (typeArgs : List Java.TypeRef) (args : List Java.Expr)
    (h : OpensWith
      ((grouped (target.precedence < .postfixed) (expr env target scope)).pieces k) sign) :
    OpensWith ((expr env (.call (some target) typeArgs name args) scope).pieces k)
      (if name == "println" && isSystemOut target then none else sign) := by
  rw [expr]
  by_cases hprint : (name == "println" && isSystemOut target) = true
  · rw [if_pos (by simpa using hprint), if_pos hprint]
    exact opensWith_text (c := 'p') rfl _
  · rw [if_neg (by simpa using hprint), if_neg hprint]
    cases propertyOf env.config name args with
    | some property => exact h.append _
    | none => exact (((h.append _).append _).append _).append _

/-- An operand that needs no parentheses behind a prefix operator is written with its front sign. -/
theorem opensWith_expr (e : Java.Expr) (hp : Precedence.unary ≤ e.precedence)
    (hw : startsWithWord e = true) (k : Nat) :
    OpensWith ((expr env e scope).pieces k) (frontSign e) := by
  -- what stands in front of a point or of a postfix operator
  have haccess : ∀ (target : Java.Expr) (limit : Precedence), Precedence.unary ≤ limit →
      (limit ≤ target.precedence → OpensWith ((expr env target scope).pieces k) (frontSign target)) →
      OpensWith ((grouped (target.precedence < limit) (expr env target scope)).pieces k)
        (if target.precedence < limit then none else frontSign target) := by
    intro target limit hlimit h
    have hgrouped : OpensWith
        ((grouped (target.precedence < limit) (expr env target scope)).pieces k)
        (if decide (target.precedence < limit) then none else frontSign target) :=
      .grouped _ fun hn => h (Nat.not_lt.mp (of_decide_eq_false hn))
    simpa using hgrouped
  cases e with
  | literal value =>
    cases value with
    | null => exact opensWith_text (c := 'n') rfl _
    | bool b =>
      cases b with
      | true => exact opensWith_text (c := 't') rfl _
      | false => exact opensWith_text (c := 'f') rfl _
    | number text =>
      have hne : text.toList ≠ [] := by simpa [startsWithWord] using hw
      obtain ⟨c, cs, hc⟩ := List.exists_cons_of_ne_nil hne
      have hsign : frontSign (.literal (.number text)) = signOf c := by simp [frontSign, hc]
      rw [hsign]
      exact opensWith_text (by simp [Ceylon.literalText, hc]) _
    | char text => exact opensWith_text (c := '\'') (by simp [Ceylon.literalText]) _
    | string text => exact opensWith_text (c := '"') (by simp [Ceylon.literalText]) _
  | name name => exact opensWith_isWord (isWord_word hw) _
  | thisRef => exact opensWith_text (c := 't') rfl _
  | superRef => exact opensWith_text (c := 's') rfl _
  | paren inner => exact opensWith_text (c := '(') rfl _
  | field target name =>
    have h := haccess target .postfixed (by decide) fun hle =>
      opensWith_expr target (Nat.le_trans (by decide) hle) hw k
    exact h.append _
  | call target typeArgs name args =>
    cases target with
    | none => exact opensWith_callOwn env scope hw typeArgs args k
    | some target =>
      have h := haccess target .postfixed (by decide) fun hle =>
        opensWith_expr target (Nat.le_trans (by decide) hle) hw k
      exact opensWith_callOn env scope name typeArgs args h
  | create ty args body =>
    cases body with
    | none => exact opensWith_classType hw _
    | some body => exact opensWith_object (classType ty) (exprs env args scope) _ k
  | createArray element dims extraDims init =>
    cases init with
    | none => exact opensWith_isWord (isWord_arrayType element) _
    | some elements => exact opensWith_array (exprs env elements scope) k
  | arrayInit elements => exact opensWith_array (exprs env elements scope) k
  | index array index =>
    have h := haccess array .postfixed (by decide) fun hle =>
      opensWith_expr array (Nat.le_trans (by decide) hle) hw k
    exact (h.append _).append _
  | unary op operand =>
    have hpost := haccess operand .postfixed (by decide) fun hle =>
      opensWith_expr operand (Nat.le_trans (by decide) hle) hw k
    have hprimary := haccess operand .primary (by decide) fun hle =>
      opensWith_expr operand (Nat.le_trans (by decide) hle) hw k
    cases op with
    | plus | preIncrement => exact opensWith_text (c := '+') rfl _
    | minus | preDecrement => exact opensWith_text (c := '-') rfl _
    | not => exact opensWith_text (c := '!') rfl _
    | complement => exact hprimary.append _
    | postIncrement | postDecrement => exact hpost.append _
  | cast ty operand =>
    exact haccess operand .unary (Nat.le_refl _) fun hle => opensWith_expr operand hle hw k
  | binary _ op _ => exact absurd hp (Nat.not_le.mpr (precedence_lt_unary op))
  | assign _ _ _ => exact absurd (show Precedence.unary ≤ Precedence.assignment from hp) (by decide)
  | instanceOf _ _ => exact absurd (show Precedence.unary ≤ Precedence.relational from hp) (by decide)
  | conditional _ _ _ =>
    exact absurd (show Precedence.unary ≤ Precedence.conditional from hp) (by decide)
termination_by e

/-! ## Prefix operators -/

/-- The sign that a prefix operator is made of. -/
def prefixSign : UnaryOp → Option Char
  | .plus | .preIncrement => some '+'
  | .minus | .preDecrement => some '-'
  | _ => none

theorem symbol_of_prefixSign {op : UnaryOp} {sign : Char} (h : prefixSign op = some sign) :
    op.symbol.toList.head? = some sign ∧ signOf sign = some sign := by
  cases op with
  | plus | preIncrement | minus | preDecrement =>
    cases h
    exact ⟨rfl, rfl⟩
  | _ => cases h

theorem expr_signed {op : UnaryOp} {sign : Char} (h : prefixSign op = some sign)
    (operand : Java.Expr) :
    expr env (.unary op operand) scope =
      .before op (grouped (leadingSign operand == some sign || operand.precedence < .unary)
        (expr env operand scope)) := by
  cases op with
  | plus | preIncrement | minus | preDecrement =>
    cases h
    rfl
  | _ => cases h

/-- What binds looser than a prefix operator has no front sign: it gets parentheses. -/
theorem frontSign_of_loose {e : Java.Expr} (h : e.precedence < .unary) : frontSign e = none := by
  cases e with
  | unary op _ =>
    have hle : Precedence.unary ≤ (if op.isPostfix then Precedence.postfixed else .unary) := by
      cases op <;> decide
    exact absurd h (Nat.not_lt.mpr hle)
  | cast _ _ => exact absurd h (Nat.lt_irrefl _)
  | assign _ _ _ | binary _ _ _ | instanceOf _ _ | conditional _ _ _ => rfl
  | _ => exact absurd (show Precedence.primary < Precedence.unary from h) (by decide)

theorem signOf_eq_some_iff {c sign : Char} (h : signOf sign = some sign) :
    signOf c = some sign ↔ c = sign := by
  constructor
  · intro hc
    unfold signOf at hc
    split at hc
    · exact Option.some.inj hc
    · cases hc
  · rintro rfl
    exact h

/-- The text of an operator follows what the line has in front. -/
theorem join_lines_before (op : UnaryOp) (operand : Ceylon.Expr) (k level : Nat) (fresh : Bool) :
    String.join (Piece.lines level fresh ((Ceylon.Expr.before op operand).pieces k)) =
      (if fresh then Output.indentation level else "") ++ op.symbol ++
        String.join (Piece.lines level false (operand.pieces k)) := by
  have hne : op.symbol.isEmpty = false := by cases op <;> rfl
  cases fresh <;> simp [Ceylon.Expr.pieces, Piece.lines, hne, String.append_assoc]

/-- The text after a prefix operator starts with the sign of the operator exactly if the operand is
written with this sign in front and its leading sign is another one. -/
theorem sign_merges_iff {op : UnaryOp} {sign : Char} (hop : prefixSign op = some sign)
    {operand : Java.Expr} (hw : startsWithWord operand = true) (k level : Nat) (fresh : Bool) :
    ∃ rest, String.join (Piece.lines level fresh ((expr env (.unary op operand) scope).pieces k)) =
        (if fresh then Output.indentation level else "") ++ op.symbol ++ rest ∧
      (rest.toList.head? ≠ some sign ↔
        (frontSign operand = some sign → leadingSign operand = some sign)) := by
  obtain ⟨-, hsign⟩ := symbol_of_prefixSign hop
  rw [expr_signed env scope hop, join_lines_before]
  refine ⟨_, rfl, ?_⟩
  cases hneeded : (leadingSign operand == some sign || decide (operand.precedence < .unary)) with
  | true =>
    -- in parentheses, whatever the operand starts with
    have hparen : '(' ≠ sign := by
      rintro rfl
      cases hsign
    have hfirst : firstChar ((grouped true (expr env operand scope)).pieces k) = some '(' := rfl
    rw [head_of_firstChar hfirst level]
    refine iff_of_true (fun heq => hparen (Option.some.inj heq)) fun hfront => ?_
    rw [Bool.or_eq_true, beq_iff_eq, decide_eq_true_eq] at hneeded
    rcases hneeded with hleading | hloose
    · exact hleading
    · rw [frontSign_of_loose hloose] at hfront
      cases hfront
  | false =>
    rw [Bool.or_eq_false_iff, beq_eq_false_iff_ne, decide_eq_false_iff_not, Nat.not_lt] at hneeded
    obtain ⟨c, hc, hfront⟩ := opensWith_expr env scope operand hneeded.2 hw k
    have hfirst : firstChar ((grouped false (expr env operand scope)).pieces k) = some c := hc
    have hmerges : frontSign operand = some sign ↔ c = sign := by
      rw [← hfront]
      exact signOf_eq_some_iff hsign
    rw [head_of_firstChar hfirst level, hmerges]
    constructor
    · exact fun hne heq => absurd (congrArg some heq) hne
    · exact fun himp heq => hneeded.1 (himp (Option.some.inj heq))

end

/-- A call on a number with a sign: the sign is in front, and it is not the leading sign. -/
theorem sign_merges_iff_number :
    let env : Env := ⟨.default, fun _ _ => []⟩
    let operand : Java.Expr := .call (some (.literal (.number "-1"))) [] "abs" []
    prefixSign .minus = some '-' ∧ startsWithWord operand = true ∧
      ∃ rest, String.join (Piece.lines 0 false ((expr env (.unary .minus operand) []).pieces 0)) =
          "" ++ "-" ++ rest ∧
        (rest.toList.head? ≠ some '-' ↔
          (frontSign operand = some '-' → leadingSign operand = some '-')) :=
  ⟨rfl, rfl, sign_merges_iff _ _ rfl rfl 0 0 false⟩

/-- `-(-1).abs()` is written with two signs, which are read as one operator. -/
theorem minus_merges_with_number :
    let env : Env := ⟨.default, fun _ _ => []⟩
    let operand : Java.Expr := .call (some (.literal (.number "-1"))) [] "abs" []
    let text := String.join (Piece.lines 0 false ((expr env (.unary .minus operand) []).pieces 0))
    text = "--1.abs()" ∧ (¬ ∃ rest, text = "-" ++ rest ∧ rest.toList.head? ≠ some '-') ∧
      Ceylon.prefixOp? text.toList = some (.preDecrement, "1.abs()".toList) := by
  intro env operand text
  have htext : text = "--1.abs()" := by decide
  refine ⟨htext, ?_, by rw [htext]; rfl⟩
  rintro ⟨rest, hrest, hhead⟩
  have hchars := congrArg String.toList (htext.symm.trans hrest)
  rw [String.toList_append] at hchars
  have htail : "-1.abs()".toList = rest.toList := (List.cons.inj hchars).2
  exact hhead (by rw [← htail]; rfl)

end CeylonFromJava.Conversion
