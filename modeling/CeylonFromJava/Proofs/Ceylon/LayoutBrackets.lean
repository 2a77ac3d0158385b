import CeylonFromJava.Proofs.Ceylon.LayoutNesting
import CeylonFromJava.Proofs.Output.Brackets

/-! Brackets and indentation of laid-out trees.

A part of a tree fits if its pieces leave the brackets as they are, whatever the number of the next
temporary value. Each kind of node fits when its parts do and its words are clean. -/
namespace CeylonFromJava.Ceylon
set_option autoImplicit false

open Output (Piece Phrase Continuation WholeLines openAfter isBare isClean)
open Output.Place (Level starts)
open Java (Literal ArithOp AssignOp UnaryOp BinaryOp ConstructorTarget)

variable {strict : Bool}

/-! ## Words -/

@[simp] theorem isClean_arithSymbol (op : ArithOp) : isClean strict op.symbol = true := by
  cases op <;> cases strict <;> decide

@[simp] theorem isClean_assignSymbol (op : AssignOp) : isClean strict op.symbol = true := by
  cases op with
  | plain => cases strict <;> decide
  | compound op => cases op <;> cases strict <;> decide

@[simp] theorem isClean_binarySymbol (op : BinaryOp) : isClean strict op.symbol = true := by
  cases op with
  | arith op => exact isClean_arithSymbol op
  | _ => cases strict <;> decide

@[simp] theorem isClean_unarySymbol (op : UnaryOp) : isClean strict op.symbol = true := by
  cases op <;> cases strict <;> decide

@[simp] theorem isClean_targetName (target : ConstructorTarget) :
    isClean strict target.name = true := by
  cases target <;> cases strict <;> decide

@[simp] theorem putAll_wordIf {word : String} (hstarts : starts word = true)
    (hbare : ∀ closers, openAfter closers word.toList = some closers) (wanted : Bool) {n : Nat}
    {closers : List Char} {fresh : Bool} (hn : Level strict n closers) :
    Output.Place.putAll strict ⟨n, closers, fresh⟩ (wordIf wanted word) =
      some ⟨n, closers, fresh && !wanted⟩ := by
  cases wanted with
  | false => simp [wordIf]
  | true =>
    show Output.Place.putAll strict ⟨n, closers, fresh⟩ [.text word] = _
    rw [Output.Place.putAll_start [] hstarts hn, hbare]
    simp

theorem isBare_of_isDigit {c : Char} (h : c.isDigit = true) : isBare c = true := by
  cases hbare : isBare c with
  | true => rfl
  | false =>
    simp only [isBare, Bool.and_eq_false_iff, bne_eq_false_iff_eq] at hbare
    rcases hbare with (((rfl | rfl) | rfl) | rfl) | rfl <;> cases h

/-- A clean role makes clean names. -/
theorem isClean_tempName {role : String} (h : isClean true role = true) (n : Nat) :
    isClean strict (tempName role n) = true := by
  have hdigits : n.repr.toList.all isBare = true := by
    rw [Nat.toList_repr, List.all_eq_true]
    exact fun c hc => isBare_of_isDigit (Nat.isDigit_of_mem_toDigits (by decide) (by decide) hc)
  simp only [isClean, Bool.and_eq_true] at h
  obtain ⟨c, hc, hspace⟩ := (Option.any_eq_true _ _).mp h.2
  rw [isClean, tempName, String.toList_append, List.all_append, h.1, hdigits, List.head?_append, hc,
    Option.some_or, Option.any_some, hspace, Bool.or_true]
  rfl

theorem isClean_word (role : Role) : isClean true role.word = true := by cases role <;> decide

structure Param.Fits (strict : Bool) (p : Param) : Prop where
  ty : isClean strict p.ty.text = true
  name : isClean strict p.name = true

theorem Param.Fits.phrase {p : Param} (h : p.Fits strict) : Phrase strict p.pieces := by
  intro n closers fresh hn
  simp [Param.pieces, hn, h.ty, h.name, openAfter]

theorem continuation_paramPieces {params : List Param} (h : ∀ p ∈ params, p.Fits strict) :
    Continuation strict (paramPieces params) := by
  refine Continuation.separated ", " (by decide) fun ps hps => ?_
  obtain ⟨p, hp, rfl⟩ := List.mem_map.mp hps
  exact (h p hp).phrase

/-! ## Expressions -/

def Expr.Fits (strict : Bool) (e : Expr) : Prop := ∀ k, Phrase strict (e.pieces k)

def Slot.Fits (strict : Bool) : Slot → Prop
  | .direct e | .bound e => e.Fits strict

def Condition.Fits (strict : Bool) (c : Condition) : Prop := ∀ k, Phrase strict (c.pieces k)

def Member.Fits (strict : Bool) (m : Member) : Prop := ∀ k, WholeLines strict (m.pieces k)

theorem continuation_piecesList {es : List Expr} (h : ∀ e ∈ es, e.Fits strict) (k : Nat) :
    Continuation strict (Expr.piecesList es k) := by
  intro n closers hn
  induction es generalizing k with
  | nil => rfl
  | cons e es ih =>
    obtain ⟨he, hes⟩ := List.forall_mem_cons.mp h
    cases es with
    | nil => exact he k n closers false hn
    | cons e' es => simp [Expr.piecesList, he k n closers false hn, ih hes, openAfter]

theorem wholeLines_piecesList {ms : List Member} (h : ∀ m ∈ ms, m.Fits strict) (k : Nat) :
    WholeLines strict (Member.piecesList ms k) := by
  intro n closers hn
  induction ms generalizing k with
  | nil => rfl
  | cons m ms ih =>
    obtain ⟨hm, hms⟩ := List.forall_mem_cons.mp h
    cases ms with
    | nil => exact hm k n closers hn
    | cons m' ms =>
      simp only [Member.piecesList]
      split <;> simp [hm k n closers hn, ih hms]

theorem continuation_conditions {cs : List Condition} (h : ∀ c ∈ cs, c.Fits strict) (k : Nat) :
    Continuation strict (Condition.piecesList cs k) := by
  intro n closers hn
  induction cs generalizing k with
  | nil => rfl
  | cons c cs ih =>
    obtain ⟨hc, hcs⟩ := List.forall_mem_cons.mp h
    cases cs with
    | nil => exact hc k n closers false hn
    | cons c' cs => simp [Condition.piecesList, hc k n closers false hn, ih hcs, openAfter]

theorem Condition.fits_isType {ty : Ty} (hty : isClean strict ty.text = true) {e : Expr}
    (he : e.Fits strict) : (Condition.isType ty e).Fits strict := by
  intro k n closers fresh hn
  simp [Condition.pieces, hn, hty, he k n closers, openAfter]

theorem Condition.fits_holds {e : Expr} (he : e.Fits strict) : (Condition.holds e).Fits strict := he

namespace Expr

variable {e a b c : Expr} {es : List Expr} {ty : Ty} {word : String}

theorem Fits.literal {value : Literal} (h : isClean strict (literalText value) = true) :
    (Expr.literal value).Fits strict := by
  intro k n closers fresh hn
  simp [pieces, h, hn]

theorem Fits.name (h : isClean strict word = true) : (Expr.name word).Fits strict := by
  intro k n closers fresh hn
  simp [pieces, h, hn]

theorem fits_thisRef : thisRef.Fits strict := by
  intro k n closers fresh hn
  simp [pieces, hn, openAfter]

theorem fits_superRef : superRef.Fits strict := by
  intro k n closers fresh hn
  simp [pieces, hn, openAfter]

theorem Fits.paren (he : e.Fits strict) : (Expr.paren e).Fits strict := by
  intro k n closers fresh hn
  simp [pieces, hn, he k n (')' :: closers), openAfter]

theorem Fits.property (he : e.Fits strict) (hname : isClean strict word = true) :
    (Expr.property e word).Fits strict := by
  intro k n closers fresh hn
  simp [pieces, hn, he k _ _ _ hn, hname, openAfter]

theorem Fits.call {target : Option Expr} {typeArgs : List Ty} {args : List Expr}
    (htarget : ∀ e ∈ target, e.Fits strict) (hname : isClean strict word = true)
    (htypes : isClean false (typeArgsText typeArgs) = true) (hargs : ∀ e ∈ args, e.Fits strict) :
    (Expr.call target word typeArgs args).Fits strict := by
  intro k n closers fresh hn
  have harguments := fun k => continuation_piecesList hargs k n (')' :: closers)
  cases target with
  | none =>
    simp [pieces, targetPieces, hn, hname, htypes, harguments, openAfter]
  | some e =>
    simp [pieces, targetPieces, hn, htarget e rfl k _ _ _ hn, hname, htypes, harguments, openAfter]

theorem Fits.instantiate (hty : isClean strict ty.text = true) (hes : ∀ e ∈ es, e.Fits strict) :
    (Expr.instantiate ty es).Fits strict := by
  intro k n closers fresh hn
  simp [pieces, hn, hty, continuation_piecesList hes k n (')' :: closers), openAfter]

theorem Fits.object (hty : isClean strict ty.text = true) (hes : ∀ e ∈ es, e.Fits strict)
    {body : List Member} (hbody : ∀ m ∈ body, m.Fits strict) :
    (Expr.object ty es body).Fits strict := by
  intro k n closers fresh hn
  have hbraced := fun k => (wholeLines_piecesList hbody k).braced n closers false hn
  cases es with
  | nil => simp [pieces, hn, hty, hbraced, openAfter]
  | cons e es =>
    simp [pieces, hn, hty, hbraced, continuation_piecesList hes k n (')' :: closers), openAfter]

/-- Arrays have braces on one line. -/
theorem fits_array (hes : ∀ e ∈ es, e.Fits false) : (Expr.array es).Fits false := by
  intro k n closers fresh hn
  cases es with
  | nil => simp [pieces, hn, openAfter]
  | cons e es => simp [pieces, hn, continuation_piecesList hes k n ('}' :: closers), openAfter]

theorem Fits.get (ha : a.Fits strict) (hb : b.Fits strict) : (Expr.get a b).Fits strict := by
  intro k n closers fresh hn
  simp [pieces, hn, ha k _ _ _ hn, hb _ n (')' :: closers), openAfter]

theorem Fits.set (ha : a.Fits strict) (hb : b.Fits strict) (hc : c.Fits strict) :
    (Expr.set a b c).Fits strict := by
  intro k n closers fresh hn
  simp [pieces, hn, ha k _ _ _ hn, hb _ n (')' :: closers), hc _ n (')' :: closers), openAfter]

theorem Fits.assign (ha : a.Fits strict) (op : AssignOp) (hb : b.Fits strict) :
    (Expr.assign a op b).Fits strict := by
  intro k n closers fresh hn
  simp [pieces, ha k _ _ _ hn, hb _ _ _ _ hn, openAfter]

theorem Fits.before (op : UnaryOp) (he : e.Fits strict) : (Expr.before op e).Fits strict := by
  intro k n closers fresh hn
  simp [pieces, hn, he k _ _ _ hn]

theorem Fits.after (he : e.Fits strict) (op : UnaryOp) : (Expr.after e op).Fits strict := by
  intro k n closers fresh hn
  simp [pieces, hn, he k _ _ _ hn]

theorem Fits.binary (ha : a.Fits strict) (op : BinaryOp) (hb : b.Fits strict) :
    (Expr.binary a op b).Fits strict := by
  intro k n closers fresh hn
  simp [pieces, ha k _ _ _ hn, hb _ _ _ _ hn, openAfter]

theorem Fits.existence {holds : Bool} {binding : Option String}
    (hbinding : ∀ name ∈ binding, isClean strict name = true) (he : e.Fits strict) :
    (Expr.existence holds binding e).Fits strict := by
  intro k n closers fresh hn
  cases binding with
  | none => simp [pieces, hn, he k _ _ _ hn, openAfter]
  | some name => simp [pieces, hn, he k _ _ _ hn, hbinding name rfl, openAfter]

theorem Fits.isType (he : e.Fits strict) (hty : isClean strict ty.text = true) :
    (Expr.isType e ty).Fits strict := by
  intro k n closers fresh hn
  simp [pieces, he k _ _ _ hn, hty, openAfter]

theorem Fits.conditional {conditions : List Condition} (hconditions : ∀ c ∈ conditions, c.Fits strict)
    (ha : a.Fits strict) (hb : b.Fits strict) : (Expr.conditional conditions a b).Fits strict := by
  intro k n closers fresh hn
  simp [pieces, hn, continuation_conditions hconditions k n (')' :: closers), ha _ _ _ _ hn,
    hb _ _ _ _ hn, openAfter]

end Expr

/-! ### Updates of elements -/

theorem Slot.Fits.phrase_usePieces {s : Slot} (h : s.Fits strict) (role : Role)
    (k : Nat) : Phrase strict (s.usePieces role k) := by
  cases s with
  | direct e => exact h k
  | bound e =>
    intro n closers fresh hn
    simp [Slot.usePieces, hn, isClean_tempName (isClean_word role)]

theorem Slot.Fits.phrase_bindingPieces {s : Slot} (h : s.Fits strict) (role : Role)
    (m k : Nat) :
    ∀ ps ∈ s.bindingPieces role m k, Phrase strict ps := by
  intro ps hps
  cases s with
  | direct e => cases hps
  | bound e =>
    rw [Slot.bindingPieces, List.mem_singleton] at hps
    subst hps
    intro n closers fresh hn
    simp [hn, isClean_tempName (isClean_word role), h k _ _ _ hn, openAfter]

/-- The bindings of both slots. -/
theorem phrase_bindings {array index : Slot} (harray : array.Fits strict) (hindex : index.Fits strict)
    (k m m' : Nat) : ∀ ps ∈ array.bindingPieces .array k m ++ index.bindingPieces .index k m',
      Phrase strict ps :=
  List.forall_mem_append.mpr ⟨harray.phrase_bindingPieces .array k m,
    hindex.phrase_bindingPieces .index k m'⟩

/-- What an update writes after the bindings, up to the text that ends it. -/
theorem putAll_update {array index : Slot} (harray : array.Fits strict) (hindex : index.Fits strict)
    (op : ArithOp) {value : Expr} (hvalue : value.Fits strict) (k m n : Nat) (closers : List Char)
    (fresh : Bool) (hn : Level strict n closers) (last : List Piece) :
    Output.Place.putAll strict ⟨n, closers, fresh⟩
      (array.usePieces .array k ++ .text ".set(" :: index.usePieces .index k ++ .text ", " ::
        array.usePieces .array k ++ .text ".get(" :: index.usePieces .index k ++
        [.text ") ", .text op.symbol, .text " "] ++ value.pieces m ++ .text ")" :: last) =
      Output.Place.putAll strict ⟨n, closers, false⟩ last := by
  have ha := harray.phrase_usePieces .array k
  have hi := hindex.phrase_usePieces .index k
  simp [ha _ _ _ hn, ha n (')' :: closers), hi n (')' :: closers), hi n (')' :: ')' :: closers),
    hvalue m n (')' :: closers), hn, openAfter]

section

variable {parts : List (List Piece)} (h : ∀ ps ∈ parts, Phrase strict ps)

include h

theorem phrase_let : Phrase strict (.text "let (" :: Piece.separated ", " parts ++ [.text ") "]) := by
  intro n closers fresh hn
  simp [hn, Continuation.separated ", " (by decide) h n (')' :: closers), openAfter]

theorem wholeLines_values :
    WholeLines strict (parts.flatMap fun ps => .text "value " :: ps ++ [.text ";", .newline]) := by
  refine WholeLines.flatMap fun ps hps n closers hn => ?_
  simp [hn, h ps hps n closers false hn, openAfter]

end

theorem Expr.Fits.update {array index : Slot} (harray : array.Fits strict) (hindex : index.Fits strict)
    (op : ArithOp) {value : Expr} (hvalue : value.Fits strict) :
    (Expr.update array index op value).Fits strict := by
  intro k n closers fresh hn
  simp only [Expr.pieces, Script.numbered_eq, Output.HasPieces.ofPiece_eq]
  split
  · exact putAll_update harray hindex op hvalue k _ n closers fresh hn []
  · rw [Output.Place.putAll_append,
      phrase_let (phrase_bindings harray hindex k _ _) n closers fresh hn, Option.bind_some]
    exact putAll_update harray hindex op hvalue k _ n closers false hn []

/-! ## Statements -/

def Stmt.Fits (strict : Bool) (s : Stmt) : Prop := ∀ k, WholeLines strict (s.pieces k)

def Else.Fits (strict : Bool) (e : Else) : Prop := ∀ k, Continuation strict (e.pieces k)

theorem wholeLines_stmts {ss : List Stmt} (h : ∀ s ∈ ss, s.Fits strict) (k : Nat) :
    WholeLines strict (Stmt.piecesList ss k) := by
  induction ss generalizing k with
  | nil => exact fun _ _ _ => rfl
  | cons s ss ih =>
    obtain ⟨hs, hss⟩ := List.forall_mem_cons.mp h
    exact (hs k).append (ih hss _)

/-- A body between braces. -/
theorem phrase_block {ss : List Stmt} (h : ∀ s ∈ ss, s.Fits strict) (k : Nat) :
    Phrase strict (Piece.braced (Stmt.piecesList ss k)) :=
  (wholeLines_stmts h k).braced

structure Case.Fits (strict : Bool) (c : Case) : Prop where
  label : c.label.Fits strict
  body : ∀ s ∈ c.body, s.Fits strict

structure Resource.Fits (strict : Bool) (r : Resource) : Prop where
  ty : isClean strict r.ty.text = true
  name : isClean strict r.name = true
  init : r.init.Fits strict

structure Catch.Fits (strict : Bool) (c : Catch) : Prop where
  types : isClean false (String.intercalate "|" (c.types.map Ty.text)) = true
  name : isClean strict c.name = true
  body : ∀ s ∈ c.body, s.Fits strict

theorem wholeLines_cases {cs : List Case} (h : ∀ c ∈ cs, c.Fits strict) (k : Nat) :
    WholeLines strict (Case.piecesList cs k) := by
  intro n closers hn
  induction cs generalizing k with
  | nil => rfl
  | cons c cs ih =>
    obtain ⟨label, body⟩ := c
    obtain ⟨⟨hlabel, hbody⟩, hcs⟩ := List.forall_mem_cons.mp h
    simp [Case.piecesList, hn, hlabel k n (')' :: closers), phrase_block hbody _ n closers, ih hcs,
      openAfter]

theorem continuation_catches {cs : List Catch} (h : ∀ c ∈ cs, c.Fits strict) (k : Nat) :
    Continuation strict (Catch.piecesList cs k) := by
  intro n closers hn
  induction cs generalizing k with
  | nil => rfl
  | cons c cs ih =>
    obtain ⟨types, name, body⟩ := c
    obtain ⟨⟨htypes, hname, hbody⟩, hcs⟩ := List.forall_mem_cons.mp h
    simp [Catch.piecesList, hn, htypes, hname, phrase_block hbody _ n closers, ih hcs, openAfter]

theorem continuation_furtherResources {rs : List Resource} (h : ∀ r ∈ rs, r.Fits strict) (k : Nat) :
    Continuation strict (Resource.furtherPieces rs k) := by
  intro n closers hn
  induction rs generalizing k with
  | nil => rfl
  | cons r rs ih =>
    obtain ⟨ty, name, init⟩ := r
    obtain ⟨⟨hty, hname, hinit⟩, hrs⟩ := List.forall_mem_cons.mp h
    simp [Resource.furtherPieces, hn, hty, hname, hinit k n closers, ih hrs, openAfter]

theorem continuation_resources {rs : List Resource} (h : ∀ r ∈ rs, r.Fits strict) (k : Nat) :
    Continuation strict (Resource.listPieces rs k) := by
  intro n closers hn
  cases rs with
  | nil => rfl
  | cons r rs =>
    obtain ⟨ty, name, init⟩ := r
    obtain ⟨⟨hty, hname, hinit⟩, hrs⟩ := List.forall_mem_cons.mp h
    simp [Resource.listPieces, hn, hty, hname, hinit k n (')' :: closers),
      continuation_furtherResources hrs _ n (')' :: closers), openAfter]

theorem continuation_init {init : Option Expr} (h : ∀ e ∈ init, e.Fits strict) (k : Nat) :
    Continuation strict (Expr.initPieces init k) := by
  intro n closers hn
  cases init with
  | none => rfl
  | some e => simp [Expr.initPieces, hn, h e rfl k n closers, openAfter]

namespace Else

theorem fits_absent : absent.Fits strict := fun _ _ _ _ => rfl

theorem fits_block {body : List Stmt} (hbody : ∀ s ∈ body, s.Fits strict) :
    (block body).Fits strict := by
  intro k n closers hn
  simp [pieces, hn, phrase_block hbody k n closers, openAfter]

theorem Fits.chained {conditions : List Condition} (hconditions : ∀ c ∈ conditions, c.Fits strict)
    {body : List Stmt} (hbody : ∀ s ∈ body, s.Fits strict) {otherwise : Else}
    (hotherwise : otherwise.Fits strict) : (Else.chained conditions body otherwise).Fits strict := by
  intro k n closers hn
  simp [pieces, hn, continuation_conditions hconditions k n (')' :: closers),
    phrase_block hbody _ n closers, hotherwise _ n closers hn, openAfter]

end Else

namespace Stmt

variable {e : Expr} {body : List Stmt} {ty : Ty} {word : String}

theorem fits_block (hbody : ∀ s ∈ body, s.Fits strict) : (block body).Fits strict := by
  intro k n closers hn
  simp [pieces, phrase_block hbody k n closers true hn]

theorem fits_declare (isVariable : Bool) (hty : isClean strict ty.text = true)
    (hname : isClean strict word = true) {init : Option Expr} (hinit : ∀ e ∈ init, e.Fits strict) :
    (declare isVariable ty word init).Fits strict := by
  intro k n closers hn
  simp [pieces, hn, hty, hname, continuation_init hinit k n closers, openAfter]

theorem fits_assertType (hty : isClean strict ty.text = true) (hname : isClean strict word = true)
    (he : e.Fits strict) : (assertType ty word e).Fits strict := by
  intro k n closers hn
  simp [pieces, hn, hty, hname, he k n (')' :: closers), openAfter]

theorem fits_expr (he : e.Fits strict) : (expr e).Fits strict := by
  intro k n closers hn
  simp [pieces, he k n closers _ hn, openAfter]

theorem fits_breakIf (he : e.Fits strict) : (breakIf e).Fits strict := by
  intro k n closers hn
  simp [pieces, hn, he k n (')' :: closers), openAfter]

theorem fits_throwValue (he : e.Fits strict) : (throwValue e).Fits strict := by
  intro k n closers hn
  simp [pieces, hn, he k n closers, openAfter]

theorem fits_returnValue {value : Option Expr} (hvalue : ∀ e ∈ value, e.Fits strict) :
    (returnValue value).Fits strict := by
  intro k n closers hn
  cases value with
  | none => simp [pieces, hn, openAfter]
  | some e => simp [pieces, hn, hvalue e rfl k n closers, openAfter]

theorem fits_breakLoop : breakLoop.Fits strict := by
  intro k n closers hn
  simp [pieces, hn, openAfter]

theorem fits_continueLoop : continueLoop.Fits strict := by
  intro k n closers hn
  simp [pieces, hn, openAfter]

theorem fits_delegate (target : ConstructorTarget) {args : List Expr}
    (hargs : ∀ e ∈ args, e.Fits strict) : (delegate target args).Fits strict := by
  intro k n closers hn
  simp [pieces, hn, continuation_piecesList hargs k n (')' :: closers), openAfter]

theorem fits_update {array index : Slot} (harray : array.Fits strict) (hindex : index.Fits strict)
    (op : ArithOp) {value : Expr} (hvalue : value.Fits strict) :
    (update array index op value).Fits strict := by
  intro k n closers hn
  simp only [pieces, Script.numbered_eq, Output.HasPieces.ofPiece_eq]
  rw [Output.Place.putAll_append,
    wholeLines_values (phrase_bindings harray hindex k _ _) n closers hn, Option.bind_some,
    putAll_update harray hindex op hvalue k _ n closers true hn [.text ";", .newline]]
  simp [openAfter]

theorem fits_ifElse {conditions : List Condition} (hconditions : ∀ c ∈ conditions, c.Fits strict)
    (hbody : ∀ s ∈ body, s.Fits strict) {otherwise : Else} (hotherwise : otherwise.Fits strict) :
    (ifElse conditions body otherwise).Fits strict := by
  intro k n closers hn
  simp [pieces, hn, continuation_conditions hconditions k n (')' :: closers),
    phrase_block hbody _ n closers, hotherwise _ n closers hn, openAfter]

theorem fits_whileLoop (he : e.Fits strict) (hbody : ∀ s ∈ body, s.Fits strict) :
    (whileLoop e body).Fits strict := by
  intro k n closers hn
  simp [pieces, hn, he k n (')' :: closers), phrase_block hbody _ n closers, openAfter]

theorem fits_forIn (hty : isClean strict ty.text = true) (hname : isClean strict word = true)
    (he : e.Fits strict) (hbody : ∀ s ∈ body, s.Fits strict) : (forIn ty word e body).Fits strict := by
  intro k n closers hn
  simp [pieces, hn, hty, hname, he k n (')' :: closers), phrase_block hbody _ n closers, openAfter]

theorem fits_switch (he : e.Fits strict) {cases : List Case} (hcases : ∀ c ∈ cases, c.Fits strict)
    {otherwise : Option (List Stmt)} (hotherwise : ∀ body ∈ otherwise, ∀ s ∈ body, s.Fits strict) :
    (switch e cases otherwise).Fits strict := by
  intro k n closers hn
  have helse : ∀ k, Output.Place.putAll strict ⟨n, closers, true⟩ (elsePieces otherwise k) =
      some ⟨n, closers, false⟩ := by
    intro k
    cases otherwise with
    | none => simp [elsePieces, hn, openAfter]
    | some body => simp [elsePieces, hn, phrase_block (hotherwise body rfl) k n closers, openAfter]
  simp [pieces, hn, he k n (')' :: closers), wholeLines_cases hcases _ n closers hn, helse, openAfter]

theorem fits_tryCatch {resources : List Resource} (hresources : ∀ r ∈ resources, r.Fits strict)
    (hbody : ∀ s ∈ body, s.Fits strict) {catches : List Catch} (hcatches : ∀ c ∈ catches, c.Fits strict)
    {last : Option (List Stmt)} (hlast : ∀ body ∈ last, ∀ s ∈ body, s.Fits strict) :
    (tryCatch resources body catches last).Fits strict := by
  intro k n closers hn
  have hfinally : ∀ k, Output.Place.putAll strict ⟨n, closers, false⟩ (finallyPieces last k) =
      some ⟨n, closers, false⟩ := by
    intro k
    cases last with
    | none => simp [finallyPieces]
    | some body => simp [finallyPieces, hn, phrase_block (hlast body rfl) k n closers, openAfter]
  simp [pieces, hn, continuation_resources hresources k n closers, phrase_block hbody _ n closers,
    continuation_catches hcatches _ n closers, hfinally, openAfter]

end Stmt

/-! ## Declarations -/

/-- Names with their bounds. -/
structure TypeParamsFit (params : List TypeParam) : Prop where
  list : isClean false (TypeParam.listText params) = true
  constraints : isClean false (TypeParam.constraintsText params) = true

structure Declarator.Fits (strict : Bool) (d : Declarator) : Prop where
  name : isClean strict d.name = true
  init : ∀ e ∈ d.init, e.Fits strict

structure Method.Fits (strict : Bool) (m : Method) : Prop where
  result : ∀ ty ∈ m.result, isClean strict ty.text = true
  name : isClean strict m.name = true
  typeParams : TypeParamsFit m.typeParams
  params : ∀ p ∈ m.params, p.Fits strict
  body : ∀ body ∈ m.body, ∀ s ∈ body, s.Fits strict

structure Constant.Fits (strict : Bool) (c : Constant) : Prop where
  name : isClean strict c.name = true
  args : ∀ e ∈ c.args, e.Fits strict

def TypeDecl.Fits (strict : Bool) (t : TypeDecl) : Prop := ∀ k, WholeLines strict (t.pieces k)

theorem wholeLines_fields {ds : List Declarator} (h : ∀ d ∈ ds, d.Fits strict)
    (isShared isVariable : Bool) {ty : Ty} (hty : isClean strict ty.text = true) (k : Nat) :
    WholeLines strict (Declarator.fieldPieces ds isShared isVariable ty k) := by
  intro n closers hn
  induction ds generalizing k with
  | nil => rfl
  | cons d ds ih =>
    obtain ⟨name, init⟩ := d
    obtain ⟨⟨hname, hinit⟩, hds⟩ := List.forall_mem_cons.mp h
    simp [Declarator.fieldPieces, hn, hty, hname, continuation_init hinit k n closers, ih hds,
      openAfter]

theorem Method.Fits.wholeLines {m : Method} (h : m.Fits strict) (k : Nat) :
    WholeLines strict (m.pieces k) := by
  obtain ⟨isShared, isActual, kind, result, name, typeParams, params, body⟩ := m
  obtain ⟨hresult, hname, htypeParams, hparams, hbody⟩ := h
  intro n closers hn
  have hresult : isClean strict ((result.map Ty.text).getD "void") = true := by
    cases result with
    | none => cases strict <;> decide
    | some ty => exact hresult ty rfl
  have hblock : ∀ k, Output.Place.putAll strict ⟨n, closers, false⟩ (Stmt.bodyPieces body k) =
      some ⟨n, closers, false⟩ := by
    intro k
    cases body with
    | none => simp [Stmt.bodyPieces, openAfter]
    | some body => simp [Stmt.bodyPieces, hn, phrase_block (hbody body rfl) k n closers, openAfter]
  simp only [Method.pieces]
  simp [hn, hresult, hname, htypeParams.list, htypeParams.constraints,
    continuation_paramPieces hparams n (')' :: closers), hblock, openAfter]

namespace Member

variable {params : List Param} {body : List Stmt}

theorem fits_fields (isShared isVariable : Bool) {ty : Ty} (hty : isClean strict ty.text = true)
    {ds : List Declarator} (hds : ∀ d ∈ ds, d.Fits strict) :
    (fields isShared isVariable ty ds).Fits strict :=
  wholeLines_fields hds isShared isVariable hty

theorem fits_method {m : Method} (h : m.Fits strict) : (method m).Fits strict := h.wholeLines

theorem fits_constructor (isShared : Bool) (hparams : ∀ p ∈ params, p.Fits strict)
    (hbody : ∀ s ∈ body, s.Fits strict) : (constructor isShared params body).Fits strict := by
  intro k n closers hn
  simp [pieces, hn, continuation_paramPieces hparams n (')' :: closers), phrase_block hbody k n closers,
    openAfter]

theorem fits_enumConstructor {enumName : String} (hname : isClean strict enumName = true)
    (hparams : ∀ p ∈ params, p.Fits strict) (hbody : ∀ s ∈ body, s.Fits strict) :
    (enumConstructor enumName params body).Fits strict := by
  intro k n closers hn
  have hfurther : Output.Place.putAll strict ⟨n, ')' :: closers, false⟩
      (params.flatMap fun p => .text ", " :: p.pieces) = some ⟨n, ')' :: closers, false⟩ := by
    induction params with
    | nil => rfl
    | cons p params ih =>
      obtain ⟨hp, hps⟩ := List.forall_mem_cons.mp hparams
      simp [hp.phrase n (')' :: closers), hn, ih hps, openAfter]
  have hlines : WholeLines strict (.text "this.string = string;" :: .newline ::
      Stmt.piecesList body k) := by
    intro n closers hn
    simp [hn, wholeLines_stmts hbody k n closers hn, openAfter]
  simp [pieces, hn, hname, hfurther, hlines.braced n closers, openAfter]

theorem fits_type {decl : TypeDecl} (h : decl.Fits strict) : (type decl).Fits strict := h

theorem fits_statements (hbody : ∀ s ∈ body, s.Fits strict) : (statements body).Fits strict :=
  wholeLines_stmts hbody

end Member

theorem wholeLines_constants {cs : List Constant} (h : ∀ c ∈ cs, c.Fits strict) {enumName : String}
    (hname : isClean strict enumName = true) (k : Nat) :
    WholeLines strict (Constant.piecesList cs enumName k) := by
  intro n closers hn
  induction cs generalizing k with
  | nil => rfl
  | cons c cs ih =>
    obtain ⟨name, args⟩ := c
    obtain ⟨⟨hconstant, hargs⟩, hcs⟩ := List.forall_mem_cons.mp h
    cases args with
    | nil => simp [Constant.piecesList, hn, hconstant, ih hcs, openAfter]
    | cons arg args =>
      simp [Constant.piecesList, hn, hconstant, hname, ih hcs,
        continuation_piecesList hargs k n (')' :: closers), openAfter]

namespace TypeDecl

variable {name : String} {typeParams : List TypeParam} {interfaces : List Ty} {body : List Member}

theorem fits_ofClass (isShared isAbstract takesNothing : Bool) (hname : isClean strict name = true)
    (htypeParams : TypeParamsFit typeParams) {superclass : Option Ty}
    (hsuperclass : ∀ ty ∈ superclass, isClean strict ty.text = true)
    (hinterfaces : isClean false (satisfiesText interfaces) = true)
    (hbody : ∀ m ∈ body, m.Fits strict) :
    (ofClass ⟨isShared, isAbstract, name, typeParams, takesNothing, superclass, interfaces, body⟩).Fits
      strict := by
  intro k n closers hn
  have hblock := (wholeLines_piecesList hbody k).braced n closers
  cases superclass with
  | none =>
    cases takesNothing <;>
    simp [pieces, hn, hname, htypeParams.list, htypeParams.constraints, hinterfaces, hblock, openAfter]
  | some ty =>
    simp [pieces, hn, hname, htypeParams.list, htypeParams.constraints, hinterfaces, hblock,
      hsuperclass ty rfl, openAfter]

theorem fits_ofInterface (isShared : Bool) (hname : isClean strict name = true)
    (htypeParams : TypeParamsFit typeParams)
    (hinterfaces : isClean false (satisfiesText interfaces) = true)
    (hbody : ∀ m ∈ body, m.Fits strict) :
    (ofInterface ⟨isShared, name, typeParams, interfaces, body⟩).Fits strict := by
  intro k n closers hn
  simp [pieces, hn, hname, htypeParams.list, htypeParams.constraints, hinterfaces,
    (wholeLines_piecesList hbody k).braced n closers, openAfter]

theorem fits_ofEnumeration (isShared : Bool) (hname : isClean strict name = true)
    (hinterfaces : isClean false (satisfiesText interfaces) = true)
    (hbody : ∀ m ∈ body, m.Fits strict) {constants : List Constant}
    (hconstants : ∀ c ∈ constants, c.Fits strict) :
    (ofEnumeration ⟨isShared, name, interfaces, body, constants⟩).Fits strict := by
  intro k n closers hn
  have hlines : WholeLines strict ([.text "shared actual String string;", .newline] ++
      (if body.isEmpty then [] else .newline :: Member.piecesList body k) ++
      (if constants.isEmpty then []
       else .newline :: Constant.piecesList constants name (k + Member.tempsList body))) := by
    intro n closers hn
    have hmembers := wholeLines_piecesList hbody k n closers hn
    have hlast := fun k => wholeLines_constants hconstants hname k n closers hn
    split <;> split <;> simp [hn, hmembers, hlast, openAfter]
  have hblock := hlines.braced n closers false hn
  simp only [pieces]
  generalize Piece.braced _ = block at hblock ⊢
  simp [hn, hname, hinterfaces, hblock, openAfter]

end TypeDecl

/-! ## Files -/

theorem wholeLines_types {ts : List TypeDecl} (h : ∀ t ∈ ts, t.Fits strict) (k : Nat) :
    WholeLines strict (TypeDecl.piecesList ts k) := by
  intro n closers hn
  fun_induction TypeDecl.piecesList ts k with
  | case1 => rfl
  | case2 t k => exact h t (List.mem_singleton_self t) k n closers hn
  | case3 t ts k _ ih =>
    obtain ⟨ht, hts⟩ := List.forall_mem_cons.mp h
    simp [ht k n closers hn, ih hts]

/-- A package with what is imported from it. -/
structure ImportEntryFits (strict : Bool) (entry : String × ImportEntry) : Prop where
  package : isClean strict entry.1 = true
  names : ∀ name ∈ entry.2.listed, isClean strict name = true

theorem wholeLines_memberPieces {names : List String}
    (h : ∀ name ∈ names, isClean strict name = true) :
    WholeLines strict (ImportTable.memberPieces names) := by
  intro n closers hn
  fun_induction ImportTable.memberPieces names with
  | case1 => rfl
  | case2 name => simp [h name, hn]
  | case3 name names _ ih =>
    obtain ⟨hname, hnames⟩ := List.forall_mem_cons.mp h
    simp [hname, hn, ih hnames, openAfter]

theorem wholeLines_imports {table : ImportTable} (h : ∀ entry ∈ table, ImportEntryFits strict entry) :
    WholeLines strict table.pieces := by
  have hentries : WholeLines strict (table.flatMap ImportTable.entryPieces) := by
    refine WholeLines.flatMap fun (package, entry) hentry n closers hn => ?_
    obtain ⟨hpackage, hnames⟩ := h _ hentry
    simp [ImportTable.entryPieces, hn, hpackage, (wholeLines_memberPieces hnames).braced n closers,
      openAfter]
  intro n closers hn
  unfold ImportTable.pieces
  split
  · rfl
  · simp [hentries n closers hn]

theorem Source.wholeLines_pieces {s : Source} (himports : ∀ entry ∈ s.imports, ImportEntryFits strict entry)
    (htypes : ∀ t ∈ s.types, t.Fits strict) (k : Nat) : WholeLines strict (s.pieces k) :=
  (wholeLines_imports himports).append (wholeLines_types htypes k)

end CeylonFromJava.Ceylon
