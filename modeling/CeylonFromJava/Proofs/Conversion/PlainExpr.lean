import CeylonFromJava.Ceylon.Source
import CeylonFromJava.Proofs.Ceylon.Precedence
import CeylonFromJava.Proofs.Conversion.TreeParts
import CeylonFromJava.Proofs.Output.InlineText

/-! Plain expressions and how their texts look from outside.

A plain expression has no object, array or string in it. Its text stays on one line, and it starts
with a sign only where its surroundings can tell: behind an operator the leading sign is known, and
in front of a point there is none. -/
namespace CeylonFromJava.Conversion
set_option autoImplicit false

open Java (Precedence UnaryOp BinaryOp)
open Ceylon
open Ceylon.Name
open Output (Piece)

attribute [local simp] Ceylon.Expr.pieces

/-! ## Plain expressions -/

def isPlace : Java.Expr → Bool
  | .name _ | .field _ _ => true
  | _ => false

/-- Expressions of identifiers, decimal numbers, operators, accesses, calls, type tests with a class
and conditionals. An assignment changes a name or a field. -/
inductive Plain : Java.Expr → Prop
  | number {text : String} : isDecimal text = true → Plain (.literal (.number text))
  | name {name : String} : isIdentifier name = true → Plain (.name name)
  | thisRef : Plain .thisRef
  | superRef : Plain .superRef
  | paren {inner : Java.Expr} : Plain inner → Plain (.paren inner)
  | field {target : Java.Expr} {name : String} :
    Plain target → isIdentifier name = true → Plain (.field target name)
  | call {name : String} {args : List Java.Expr} :
    isIdentifier name = true → name ≠ "println" → (∀ a ∈ args, Plain a) →
      Plain (.call none [] name args)
  | callOf {target : Java.Expr} {name : String} {args : List Java.Expr} :
    Plain target → isIdentifier name = true → name ≠ "println" → (∀ a ∈ args, Plain a) →
      Plain (.call (some target) [] name args)
  | index {array index : Java.Expr} : Plain array → Plain index → Plain (.index array index)
  | assign {target value : Java.Expr} {op : Java.AssignOp} :
    isPlace target = true → Plain target → Plain value → Plain (.assign target op value)
  | unary {op : UnaryOp} {operand : Java.Expr} : Plain operand → Plain (.unary op operand)
  | binary {left right : Java.Expr} {op : BinaryOp} :
    Plain left → Plain right → Plain (.binary left op right)
  | instanceOf {operand : Java.Expr} {segment : Java.TypeSegment} :
    Plain operand → (typeRef (.classType [segment])).Named →
      Plain (.instanceOf operand (.classType [segment]))
  | conditional {cond then' otherwise : Java.Expr} :
    Plain cond → Plain then' → Plain otherwise → Plain (.conditional cond then' otherwise)
  | cast {ty : Java.TypeRef} {operand : Java.Expr} : Plain operand → Plain (.cast ty operand)

theorem Plain.isNull_unparenthesized {e : Java.Expr} (h : Plain e) :
    e.unparenthesized.isNull = false := by
  induction h with
  | paren _ ih => exact ih
  | _ => rfl

/-! ## Conversion -/

variable {env : Env} {scope : Scope}

theorem expr_call (hg : env.config.convertGetters = false) {name : String} (hn : name ≠ "println")
    (target : Option Java.Expr) (args : List Java.Expr) :
    expr env (.call target [] name args) scope =
      .call (callTarget env target scope) (small name) [] (exprs env args scope) := by
  simp [expr, hn, propertyOf, hg]

theorem expr_assign {target : Java.Expr} (h : isPlace target = true) (op : Java.AssignOp)
    (value : Java.Expr) :
    expr env (.assign target op value) scope =
      .assign (expr env target scope) op (expr env value scope) := by
  cases target with
  | name _ | field _ _ => rfl
  | _ => cases h

theorem expr_binary {right : Java.Expr} (h : Plain right) (left : Java.Expr) (op : BinaryOp) :
    expr env (.binary left op right) scope =
      .binary (grouped (left.precedence < op.precedence) (expr env left scope)) op
        (grouped (right.precedence < op.precedence + 1) (expr env right scope)) := by
  simp [expr, isNullTest, h.isNull_unparenthesized]

/-! ## Texts -/

/-- The text of an expression, if `k` is the number of the next temporary. -/
def written (env : Env) (scope : Scope) (e : Java.Expr) (k : Nat) : List Char :=
  Piece.chars ((expr env e scope).pieces k)

theorem chars_grouped (needed : Bool) (e : Ceylon.Expr) (k : Nat) :
    Piece.chars ((grouped needed e).pieces k) = groupedChars needed (Piece.chars (e.pieces k)) := by
  cases needed <;> simp [grouped, groupedChars, Ceylon.Expr.pieces]

theorem isInline_grouped (needed : Bool) {e : Ceylon.Expr} {k : Nat}
    (h : Piece.IsInline (e.pieces k)) : Piece.IsInline ((grouped needed e).pieces k) := by
  cases needed <;> simp [grouped, Ceylon.Expr.pieces, h]

theorem spells_word (name : String) : Spells (word name).toList name := by
  unfold word
  split
  · exact .inl (by simp)
  · exact .inr rfl

theorem spells_small (name : String) : Spells (small name).toList name := by
  unfold small
  split
  · exact .inl (by simp)
  · exact .inr rfl

theorem marker_append_ne (name : String) : (marker ++ name).toList ≠ name.toList := by
  intro h
  have hl := congrArg List.length h
  simp [marker] at hl
  omega

/-- A word of the language gets the marker. -/
theorem isReserved_of_word {name : String} (h : (word name).toList = name.toList) :
    isReserved name = false := by
  unfold word at h
  split at h
  · exact absurd h (marker_append_ne name)
  · simpa using ‹¬ isReserved name = true›

theorem isReserved_of_small {name : String} (h : (small name).toList = name.toList) :
    isReserved name = false := by
  unfold small at h
  split at h
  · exact absurd h (marker_append_ne name)
  · next hn => exact (Bool.or_eq_false_iff.mp (Bool.eq_false_iff.mpr hn)).1

/-! ## Signs in front -/

def IsSign (c : Char) : Prop := c = '+' ∨ c = '-'

/-- The text has a first character. If it can stand behind an operator, a sign in front is the
leading sign of the expression; if it can stand in front of a point, it has no sign in front. -/
structure Starts (e : Java.Expr) (t : List Char) : Prop where
  nonempty : t ≠ []
  sign : Precedence.unary ≤ e.precedence → ∀ c, IsSign c → t.head? = some c → leadingSign e = some c
  bare : Precedence.postfixed ≤ e.precedence → ∀ c, IsSign c → t.head? ≠ some c

/-- A text that starts with something else than a sign. -/
theorem Starts.of_head {e : Java.Expr} {t : List Char} {c : Char} (h : t.head? = some c)
    (hc : ¬ IsSign c) : Starts e t := by
  have hbare : ∀ d, IsSign d → t.head? ≠ some d := by
    rintro d hd ht
    rw [h] at ht
    cases ht
    exact hc hd
  refine ⟨?_, fun _ d hd ht => absurd ht (hbare d hd), fun _ => hbare⟩
  rintro rfl
  cases h

/-- A text with the same first character, of an expression that binds looser than operands. -/
theorem Starts.of_loose {e : Java.Expr} {t : List Char} (h : e.precedence < .unary) (ht : t ≠ []) :
    Starts e t := by
  refine ⟨ht, fun hu => absurd h (Nat.not_lt.mpr hu), fun hp => ?_⟩
  exact absurd h (Nat.not_lt.mpr (Nat.le_trans (by decide) hp))

/-- In front of a point stands no sign. -/
theorem Starts.grouped_append {e e' : Java.Expr} {t rest : List Char} (h : Starts e t)
    {l : Precedence} (hl : Precedence.postfixed ≤ l) :
    Starts e' (groupedChars (e.precedence < l) t ++ rest) := by
  by_cases hq : e.precedence < l
  · refine Starts.of_head (c := '(') ?_ (by unfold IsSign; decide)
    simp [groupedChars, hq]
  · cases t with
    | nil => exact absurd rfl h.nonempty
    | cons c t =>
      refine Starts.of_head (c := c) ?_ fun hc => ?_
      · simp [groupedChars, hq]
      · exact h.bare (Nat.le_trans hl (Nat.le_of_not_lt hq)) c hc rfl

theorem Starts.of_spells {e : Java.Expr} {name : String} {t : List Char} (h : Spells t name)
    (hn : isIdentifier name = true) (rest : List Char) : Starts e (t ++ rest) := by
  obtain ⟨c, cs, hc, hl⟩ := exists_letter hn
  rcases h with rfl | rfl
  · exact Starts.of_head (c := '\\') rfl (by unfold IsSign; decide)
  · refine Starts.of_head (c := c) (by simp [hc]) ?_
    rintro (rfl | rfl) <;> cases hl

theorem precedence_lt_unary (op : BinaryOp) : op.precedence < .unary := by
  cases op with
  | arith op => cases op <;> decide
  | _ => decide

theorem not_postfixed_le_unary : ¬ Precedence.postfixed ≤ Precedence.unary := by decide

theorem written_cast (ty : Java.TypeRef) (operand : Java.Expr) (k : Nat) :
    written env scope (.cast ty operand) k =
      groupedChars (operand.precedence < .unary) (written env scope operand k) := by
  simp [written, expr, chars_grouped]

theorem Plain.starts {e : Java.Expr} (h : Plain e) (hg : env.config.convertGetters = false) (k : Nat) :
    Starts e (written env scope e k) := by
  induction h generalizing k with
  | @number text h =>
    rw [isDecimal, Bool.and_eq_true, List.all_eq_true] at h
    cases hl : text.toList with
    | nil => simp [hl] at h
    | cons c cs =>
      have hd := h.2 c (by rw [hl]; exact List.mem_cons_self ..)
      refine Starts.of_head (c := c) (by simp [written, expr, Ceylon.Expr.pieces, literalText,
        hl]) ?_
      rintro (rfl | rfl) <;> cases hd
  | @name name h =>
    simpa [written, expr, Ceylon.Expr.pieces] using Starts.of_spells (spells_word name) h []
  | thisRef => exact Starts.of_head (c := 't') rfl (by unfold IsSign; decide)
  | superRef => exact Starts.of_head (c := 's') rfl (by unfold IsSign; decide)
  | paren _ => exact Starts.of_head (c := '(') rfl (by unfold IsSign; decide)
  | field _ _ ih =>
    simp only [written, expr, Ceylon.Expr.pieces, Piece.chars_append, chars_grouped]
    exact (ih k).grouped_append (by decide)
  | @call name args hn hp _ =>
    simp only [written, expr_call hg hp, callTarget, Ceylon.Expr.pieces, Ceylon.Expr.targetPieces,
      List.nil_append, List.cons_append]
    exact Starts.of_spells (spells_small name) hn _
  | @callOf target name args _ hn hp _ ih =>
    simp only [written, expr_call hg hp, callTarget, Ceylon.Expr.pieces, Ceylon.Expr.targetPieces,
      Piece.chars_append, chars_grouped, List.append_assoc]
    exact (ih k).grouped_append (by decide)
  | index _ _ ih =>
    simp only [written, expr, Ceylon.Expr.pieces, Piece.chars_append, chars_grouped,
      List.append_assoc]
    exact (ih k).grouped_append (by decide)
  | assign hp =>
    refine Starts.of_loose (Nat.lt_of_sub_eq_succ rfl) ?_
    simp [written, expr_assign hp, Ceylon.Expr.pieces]
  | @unary op operand _ ih =>
    cases op with
    | complement =>
      simp only [written, expr, Ceylon.Expr.pieces, Piece.chars_append, chars_grouped]
      exact (ih k).grouped_append (by decide)
    | postIncrement | postDecrement =>
      simp only [written, expr, Ceylon.Expr.pieces, Piece.chars_append, chars_grouped]
      exact (ih k).grouped_append (by decide)
    | not => exact Starts.of_head (c := '!') rfl (by unfold IsSign; decide)
    | plus | preIncrement | minus | preDecrement =>
      refine ⟨by simp [written, expr, Ceylon.Expr.pieces, UnaryOp.symbol], ?_, fun hp => ?_⟩
      · rintro _ c _ hc
        cases hc
        rfl
      · exact absurd hp not_postfixed_le_unary
  | @binary left right op _ hr =>
    refine Starts.of_loose (precedence_lt_unary op) ?_
    simp [written, expr_binary hr, Ceylon.Expr.pieces]
  | instanceOf _ _ =>
    refine Starts.of_loose (by show Precedence.relational < _; decide) ?_
    simp [written, expr, Ceylon.Expr.pieces]
  | conditional _ _ _ =>
    refine Starts.of_loose (by show Precedence.conditional < _; decide) ?_
    simp [written, expr, Ceylon.Expr.pieces]
  | @cast ty operand _ ih =>
    rw [written_cast]
    by_cases hq : operand.precedence < .unary
    · exact Starts.of_head (c := '(') (by simp [groupedChars, hq]) (by unfold IsSign; decide)
    · have hs := (ih k).sign (Nat.le_of_not_lt hq)
      refine ⟨?_, fun _ => ?_, fun hp => absurd hp not_postfixed_le_unary⟩
      · simpa [groupedChars, hq] using (ih k).nonempty
      · simpa [groupedChars, hq, leadingSign] using hs

/-- Behind an operator, a text that starts with its sign has parentheses. -/
theorem Starts.grouped_head {e : Java.Expr} {t : List Char} (h : Starts e t) {c : Char}
    (hc : IsSign c) :
    (groupedChars (leadingSign e == some c || e.precedence < .unary) t).head? ≠ some c := by
  by_cases hb : (leadingSign e == some c || decide (e.precedence < .unary)) = true
  · simp only [groupedChars, hb, if_true, List.head?_cons]
    rcases hc with rfl | rfl <;> decide
  · rw [Bool.not_eq_true, Bool.or_eq_false_iff, decide_eq_false_iff_not, Nat.not_lt] at hb
    simp only [groupedChars, hb.1, decide_eq_false (Nat.not_lt.mpr hb.2)]
    intro ht
    have hs := h.sign hb.2 c hc ht
    simp [hs] at hb

theorem groupedChars_ne_nil {t : List Char} (h : t ≠ []) (needed : Bool) :
    groupedChars needed t ≠ [] := by
  cases needed <;> simp [groupedChars, h]

/-! ## One line -/

theorem isInline_piecesList {es : List Ceylon.Expr} (h : ∀ e ∈ es, ∀ k, Piece.IsInline (e.pieces k))
    (k : Nat) : Piece.IsInline (Ceylon.Expr.piecesList es k) := by
  induction es generalizing k with
  | nil => exact Piece.isInline_nil
  | cons e es ih =>
    have he := h e (List.mem_cons_self ..)
    cases es with
    | nil => exact he k
    | cons e' es =>
      have hes := ih (fun a ha => h a (List.mem_cons_of_mem _ ha)) (k + e.temps)
      simp [Ceylon.Expr.piecesList, he, hes]

theorem isInline_conditions {cs : List Condition} (h : ∀ c ∈ cs, ∀ k, Piece.IsInline (c.pieces k))
    (k : Nat) : Piece.IsInline (Condition.piecesList cs k) := by
  induction cs generalizing k with
  | nil => exact Piece.isInline_nil
  | cons c cs ih =>
    have hc := h c (List.mem_cons_self ..)
    cases cs with
    | nil => exact hc k
    | cons c' cs =>
      have hcs := ih (fun a ha => h a (List.mem_cons_of_mem _ ha)) (k + c.temps)
      simp [Condition.piecesList, hc, hcs]

variable (env scope) in
/-- The text of `e` and its condition list have no line ends. -/
structure StaysInline (e : Java.Expr) : Prop where
  expr : ∀ k, Piece.IsInline ((expr env e scope).pieces k)
  conditions : ∀ c ∈ conditions env e scope fun _ => Conversion.expr env e scope,
    ∀ k, Piece.IsInline (c.pieces k)

theorem StaysInline.of_expr {e : Java.Expr}
    (hc : ∀ whole, Conversion.conditions env e scope whole = [.holds (whole ())])
    (h : ∀ k, Piece.IsInline ((Conversion.expr env e scope).pieces k)) : StaysInline env scope e := by
  refine ⟨h, ?_⟩
  simp [hc, Condition.pieces, h]

theorem isInline_exprs {es : List Java.Expr} (h : ∀ e ∈ es, StaysInline env scope e) (k : Nat) :
    Piece.IsInline (Ceylon.Expr.piecesList (exprs env es scope) k) := by
  refine isInline_piecesList ?_ k
  rw [exprs_eq_map]
  intro e he
  obtain ⟨a, ha, rfl⟩ := List.mem_map.mp he
  exact (h a ha).expr

theorem StaysInline.binary {left right : Java.Expr} (hl : StaysInline env scope left)
    (hr : StaysInline env scope right) (hp : Plain right) (op : BinaryOp) :
    StaysInline env scope (.binary left op right) := by
  have hexpr : ∀ k, Piece.IsInline ((Conversion.expr env (.binary left op right) scope).pieces k) := by
    simp [expr_binary hp, Ceylon.Expr.pieces, isInline_grouped, hl.expr, hr.expr]
  by_cases hand : op = .and
  · subst hand
    refine ⟨hexpr, ?_⟩
    simp only [Conversion.conditions, List.mem_append]
    rintro c (hc | hc)
    · exact hl.conditions c hc
    · exact hr.conditions c hc
  · refine .of_expr (fun whole => ?_) hexpr
    cases op with
    | and => exact absurd rfl hand
    | _ => rfl

theorem Plain.staysInline (hg : env.config.convertGetters = false) {e : Java.Expr} (h : Plain e) :
    StaysInline env scope e := by
  induction h with
  | number _ | name _ | thisRef | superRef =>
    exact .of_expr (fun _ => rfl) (by simp [expr, Ceylon.Expr.pieces])
  | paren _ ih | field _ _ ih | cast _ ih =>
    exact .of_expr (fun _ => rfl) (by simp [expr, Ceylon.Expr.pieces, isInline_grouped, ih.expr])
  | call _ hp _ ih =>
    refine .of_expr (fun _ => rfl) ?_
    simp [expr_call hg hp, callTarget, Ceylon.Expr.pieces, Ceylon.Expr.targetPieces,
      isInline_exprs ih]
  | callOf _ _ hp _ iht ih =>
    refine .of_expr (fun _ => rfl) ?_
    simp [expr_call hg hp, callTarget, Ceylon.Expr.pieces, Ceylon.Expr.targetPieces,
      isInline_exprs ih, isInline_grouped, iht.expr]
  | index _ _ iha ihi =>
    refine .of_expr (fun _ => rfl) ?_
    simp [expr, Ceylon.Expr.pieces, isInline_grouped, iha.expr, ihi.expr]
  | assign hp _ _ iht ihv =>
    refine .of_expr (fun _ => rfl) ?_
    simp [expr_assign hp, Ceylon.Expr.pieces, iht.expr, ihv.expr]
  | @unary op _ _ ih =>
    refine .of_expr (fun _ => rfl) ?_
    cases op <;> simp [expr, Ceylon.Expr.pieces, isInline_grouped, ih.expr]
  | binary _ hr ihl ihr => exact ihl.binary ihr hr _
  | instanceOf _ _ ih =>
    constructor <;>
      simp [expr, conditions, Ceylon.Expr.pieces, Condition.pieces, isInline_grouped, ih.expr]
  | conditional _ _ _ ihc iht iho =>
    refine .of_expr (fun _ => rfl) ?_
    simp [expr, Ceylon.Expr.pieces, isInline_conditions ihc.conditions, iht.expr, iho.expr]

end CeylonFromJava.Conversion
