import CeylonFromJava.Proofs.Ceylon.TempLedger

/-! Trees whose temporaries are in order.

A tree is orderly if its text, started with any number, takes the numbers that its count says, and if
the names in it are as wanted. An expression that an update writes twice must not take a number. All else
is orderly if its parts are. -/
namespace CeylonFromJava.Ceylon
set_option autoImplicit false

open Output (Piece)
open Token (events names)
open Ledger (Takes takes_nil run_append run_cons)

variable {P : String → Prop}

/-- The events take the numbers from `k` up to `l`, and the names are as wanted. -/
def Token.Orderly (P : String → Prop) (k : Nat) (ts : List Token) (l : Nat) : Prop :=
  Takes k (events ts) l ∧ ∀ x ∈ names ts, P x

namespace Token

theorem orderly_of_views {ts us : List Token} {k l : Nat} (h : Orderly P k us l)
    (hevents : events ts = events us) (hnames : names ts = names us) : Orderly P k ts l := by
  rw [Orderly, hevents, hnames]
  exact h

theorem Orderly.append {ts us : List Token} {k l m : Nat} (h : Orderly P k ts l)
    (h' : Orderly P l us m) : Orderly P k (ts ++ us) m := by
  rw [Orderly, events_append, names_append, List.forall_mem_append]
  exact ⟨h.1.append h'.1, h.2, h'.2⟩

theorem orderly_nil (k : Nat) : Orderly P k [] k := ⟨takes_nil k, nofun⟩

@[simp] theorem events_braced (ts : List Token) : events (Piece.braced ts) = events ts := by
  simp [Piece.braced]

@[simp] theorem names_braced (ts : List Token) : names (Piece.braced ts) = names ts := by
  simp [Piece.braced]

@[simp] theorem events_separated (between : String) (tss : List (List Token)) :
    events (Piece.separated between tss) = events tss.flatten := by
  induction tss with
  | nil => rfl
  | cons ts rest ih => cases rest <;> simp_all [Piece.separated]

@[simp] theorem names_separated (between : String) (tss : List (List Token)) :
    names (Piece.separated between tss) = names tss.flatten := by
  induction tss with
  | nil => rfl
  | cons ts rest ih => cases rest <;> simp_all [Piece.separated]

@[simp] theorem events_numbered (wanted : Bool) (n : Nat) (ts : List Token) :
    events (numbered wanted n ts) =
      if wanted then .opens n :: events ts ++ [.closes n] else events ts := by
  cases wanted <;> simp [numbered]

@[simp] theorem names_numbered (wanted : Bool) (n : Nat) (ts : List Token) :
    names (numbered wanted n ts) = names ts := by
  cases wanted <;> simp [numbered]

/-! Bindings on lines of their own. -/

@[simp] theorem events_valueLines (tss : List (List Token)) :
    events (tss.flatMap fun ts => .text "value " :: (ts ++ [.text ";", .newline])) =
      events tss.flatten := by
  induction tss with
  | nil => rfl
  | cons ts tss ih => simp [ih]

@[simp] theorem names_valueLines (tss : List (List Token)) :
    names (tss.flatMap fun ts => .text "value " :: (ts ++ [.text ";", .newline])) =
      names tss.flatten := by
  induction tss with
  | nil => rfl
  | cons ts tss ih => simp [ih]

end Token

/-! ## Expressions -/

def Expr.Orderly (P : String → Prop) (e : Expr) : Prop :=
  ∀ k, Token.Orderly P k (e.tokens k) (k + e.temps)

/-- What is written in place takes no number. -/
def Slot.Orderly (P : String → Prop) : Slot → Prop
  | .direct e => e.Orderly P ∧ e.temps = 0
  | .bound e => e.Orderly P

namespace Slot

/-- The temporary that a slot binds in the update `n`. -/
def own (s : Slot) (role : Role) (n : Nat) : List TempRef := if s.isBound then [(role, n)] else []

theorem mem_own {s : Slot} {role : Role} {n : Nat} {t : TempRef} :
    t ∈ s.own role n ↔ s.isBound = true ∧ t = (role, n) := by
  unfold own
  split <;> simp_all

theorem events_direct {e : Expr} (h : (direct e).Orderly P) (k : Nat) : events (e.tokens k) = [] := by
  have htakes := (h.1 k).1
  rw [h.2] at htakes
  exact htakes.eq_nil

section

variable {s : Slot} (hs : s.Orderly P) {role : Role} {n k : Nat} (opened : List Nat)
  {bound : List TempRef}

include hs

theorem run_bindings (hbound : ∀ t ∈ bound, t.2 < k) (hn : n < k) (hfresh : (role, n) ∉ bound) :
    ∃ more : List TempRef, (∀ m, (∃ r, (r, m) ∈ more) ↔ k ≤ m ∧ m < k + s.temps) ∧
      Ledger.run ⟨k, n :: opened, bound⟩ (events (s.bindingTokens role n k).flatten) =
        some ⟨k + s.temps, n :: opened, bound ++ (s.own role n ++ more)⟩ := by
  cases s with
  | direct e =>
    refine ⟨[], ?_, ?_⟩
    · simp [Slot.temps, hs.2]
    · simp [Slot.temps, hs.2, bindingPieces, own, isBound]
  | bound e =>
    have hbound' : ∀ t ∈ bound ++ [(role, n)], t.2 < k := by
      rw [List.forall_mem_append, List.forall_mem_singleton]
      exact ⟨hbound, hn⟩
    obtain ⟨more, hmore, hrun⟩ := (hs k).1.run (n :: opened) _ hbound'
    refine ⟨more, hmore, ?_⟩
    simp [bindingPieces, run_cons, Ledger.step, hfresh, hrun, own, isBound, Slot.temps]

theorem run_uses (hbound : ∀ t ∈ s.own role n, t ∈ bound) :
    Ledger.run ⟨k, n :: opened, bound⟩ (events (s.useTokens role n)) =
      some ⟨k, n :: opened, bound⟩ := by
  cases s with
  | direct e => simp [usePieces, events_direct hs]
  | bound e =>
    have hmem : (role, n) ∈ bound := hbound _ (mem_own.mpr ⟨rfl, rfl⟩)
    simp [usePieces, run_cons, Ledger.step, hmem]

theorem names_bindings : ∀ x ∈ names (s.bindingTokens role n k).flatten, P x := by
  cases s with
  | direct e => simp [bindingPieces]
  | bound e => simpa [bindingPieces] using (hs k).2

theorem names_uses : ∀ x ∈ names (s.useTokens role n), P x := by
  cases s with
  | direct e => exact (hs.1 n).2
  | bound e => simp [usePieces]

end

/-- The tokens of an update without the signs between them. -/
def updateTokens (array index : Slot) (value : Expr) (k : Nat) : List Token :=
  let first := k + ownTemps array index
  let second := first + array.temps
  let uses := array.useTokens .array k ++ index.useTokens .index k
  Token.numbered (array.isBound || index.isBound) k
    ((array.bindingTokens .array k first).flatten ++ (index.bindingTokens .index k second).flatten ++
      (uses ++ uses ++ value.tokens (second + index.temps)))

section

variable {array index : Slot} (harray : array.Orderly P) (hindex : index.Orderly P)

include harray hindex

/-- The bindings of the update `k`: its own temporaries, and those of the updates inside. -/
theorem run_bothBindings (hown : (array.isBound || index.isBound) = true) {k : Nat}
    (opened : List Nat) {bound : List TempRef} (hbound : ∀ t ∈ bound, t.2 < k) :
    ∃ more : List TempRef,
      (∀ m, (∃ r, (r, m) ∈ more) ↔ k ≤ m ∧ m < k + 1 + array.temps + index.temps) ∧
      (∀ t ∈ array.own .array k ++ index.own .index k, t ∈ more) ∧
      Ledger.run ⟨k + 1, k :: opened, bound⟩
        (events ((array.bindingTokens .array k (k + 1)).flatten ++
          (index.bindingTokens .index k (k + 1 + array.temps)).flatten)) =
        some ⟨k + 1 + array.temps + index.temps, k :: opened, bound ++ more⟩ := by
  have hlt : ∀ t ∈ bound, t.2 < k + 1 := fun t ht => Nat.lt_succ_of_lt (hbound t ht)
  have hnew : ∀ role, (role, k) ∉ bound := fun role hmem => Nat.lt_irrefl k (hbound _ hmem)
  obtain ⟨inArray, hinArray, hrunArray⟩ := run_bindings harray opened hlt
    (Nat.lt_succ_self k) (hnew .array)
  have hlt' : ∀ t ∈ bound ++ (array.own .array k ++ inArray), t.2 < k + 1 + array.temps := by
    simp only [List.forall_mem_append, mem_own]
    refine ⟨fun t ht => Nat.lt_add_right _ (hlt t ht), ?_, fun t ht => ?_⟩
    · rintro _ ⟨-, rfl⟩
      exact Nat.lt_add_right _ (Nat.lt_succ_self k)
    · exact ((hinArray t.2).mp ⟨t.1, ht⟩).2
  have hnew' : (Role.index, k) ∉ bound ++ (array.own .array k ++ inArray) := by
    simp only [List.mem_append, mem_own]
    rintro (hmem | ⟨-, ⟨⟩⟩ | hmem)
    · exact hnew _ hmem
    · have hnumber := (hinArray k).mp ⟨_, hmem⟩
      omega
  obtain ⟨inIndex, hinIndex, hrunIndex⟩ := run_bindings hindex opened hlt'
    (Nat.lt_add_right _ (Nat.lt_succ_self k)) hnew'
  refine ⟨array.own .array k ++ inArray ++ (index.own .index k ++ inIndex), fun m => ?_, ?_, ?_⟩
  · simp only [List.mem_append, mem_own, Prod.mk.injEq, exists_or, hinArray, hinIndex,
      exists_and_left, exists_eq_left, Bool.or_eq_true] at hown ⊢
    grind
  · simp only [List.mem_append]
    grind
  · rw [Token.events_append, run_append, hrunArray, Option.bind_some, hrunIndex]
    simp

theorem run_bothUses (k n : Nat) (opened : List Nat) {bound : List TempRef}
    (hbound : ∀ t ∈ array.own .array n ++ index.own .index n, t ∈ bound) :
    Ledger.run ⟨k, n :: opened, bound⟩
      (events (array.useTokens .array n ++ index.useTokens .index n)) =
        some ⟨k, n :: opened, bound⟩ := by
  obtain ⟨hown, hown'⟩ := List.forall_mem_append.mp hbound
  rw [Token.events_append, run_append, run_uses harray opened hown, Option.bind_some,
    run_uses hindex opened hown']

/-- The update takes its number, binds what it has to bind, uses it twice and writes its value. -/
theorem takes_update (hown : (array.isBound || index.isBound) = true) {value : Expr}
    (hvalue : value.Orderly P) (k : Nat) :
    Takes k (events (updateTokens array index value k))
      (k + (1 + array.temps + index.temps + value.temps)) := by
  refine ⟨Nat.le_add_right _ _, fun opened bound hbound => ?_⟩
  obtain ⟨more, hmore, hmem, hrun⟩ := run_bothBindings harray hindex hown opened hbound
  have hlt : ∀ t ∈ bound ++ more, t.2 < k + 1 + array.temps + index.temps := by
    rw [List.forall_mem_append]
    refine ⟨fun t ht => ?_, fun t ht => ((hmore t.2).mp ⟨t.1, ht⟩).2⟩
    have := hbound t ht
    omega
  have huses := run_bothUses harray hindex (k + 1 + array.temps + index.temps) k opened
    fun t ht => List.mem_append_right bound (hmem t ht)
  obtain ⟨inValue, hinValue, hrunValue⟩ := (hvalue _).1.run (k :: opened) _ hlt
  refine ⟨more ++ inValue, fun m => ?_, ?_⟩
  · simp only [List.mem_append, exists_or, hmore, hinValue]
    omega
  · have hopen : Ledger.step ⟨k, opened, bound⟩ (.opens k) = some ⟨k + 1, k :: opened, bound⟩ :=
      if_pos rfl
    simp only [updateTokens, ownTemps, hown, Token.numbered, if_true]
    rw [List.cons_append, Token.events, run_cons, hopen, Option.bind_some, Token.events_append,
      run_append, Token.events_append, run_append, hrun, Option.bind_some, Token.events_append,
      run_append, Token.events_append, run_append, huses, Option.bind_some, huses, Option.bind_some,
      hrunValue, Option.bind_some]
    simp [run_cons, Ledger.step, Nat.add_assoc]

/-- An update is orderly, whether it needs a number or not. -/
theorem orderly_update {value : Expr} (hvalue : value.Orderly P) (k : Nat) :
    Token.Orderly P k (updateTokens array index value k)
      (k + (ownTemps array index + array.temps + index.temps + value.temps)) := by
  constructor
  · by_cases hown : (array.isBound || index.isBound) = true
    · rw [ownTemps, if_pos hown]
      exact takes_update harray hindex hown hvalue k
    · obtain ⟨e, rfl⟩ : ∃ e, array = .direct e := by cases array <;> simp_all [isBound]
      obtain ⟨e', rfl⟩ : ∃ e', index = .direct e' := by cases index <;> simp_all [isBound]
      simpa [updateTokens, bindingPieces, usePieces, ownTemps, isBound, Slot.temps, harray.2,
        hindex.2, events_direct harray, events_direct hindex] using (hvalue k).1
  · simp only [updateTokens, Token.names_numbered, Token.names_append, List.forall_mem_append]
    exact ⟨⟨names_bindings harray, names_bindings hindex⟩,
      ⟨⟨names_uses harray, names_uses hindex⟩, names_uses harray, names_uses hindex⟩, (hvalue _).2⟩

end

end Slot

/-- The value of an update comes after its bindings and the places where they are used. -/
theorem Stmt.tokens_update (array index : Slot) (hown : (array.isBound || index.isBound) = true)
    (op : Java.ArithOp) (value : Expr) (k : Nat) :
    ∃ before after, (Stmt.update array index op value).tokens k =
        before ++ value.tokens (k + 1 + array.temps + index.temps) ++ after ∧
      events before = .opens k :: events ((array.bindingTokens .array k (k + 1)).flatten ++
        (index.bindingTokens .index k (k + 1 + array.temps)).flatten ++
        (array.useTokens .array k ++ index.useTokens .index k) ++
        (array.useTokens .array k ++ index.useTokens .index k)) := by
  let a := array.useTokens .array k
  let i := index.useTokens .index k
  refine ⟨.temp (.opens k) :: (((array.bindingTokens .array k (k + 1) ++
      index.bindingTokens .index k (k + 1 + array.temps)).flatMap fun b =>
        .text "value " :: b ++ [.text ";", .newline]) ++
      (a ++ .text ".set(" :: i ++ .text ", " :: a ++ .text ".get(" :: i ++
        [.text ") ", .text op.symbol, .text " "])),
    [.text ")", .text ";", .newline, .temp (.closes k)], ?_, ?_⟩
  · simp [Stmt.pieces, Slot.ownTemps, hown, Token.numbered, a, i]
  · simp [a, i]

/-! ## Proper trees -/

mutual
/-- The names in expressions are as wanted, and what an update writes twice takes no number. -/
def Expr.Proper (P : String → Prop) : Expr → Prop
  | .literal _ | .thisRef | .superRef => True
  | .name x => P x
  | .paren e | .before _ e | .after e _ | .existence _ _ e | .isType e _ => e.Proper P
  | .property e x => e.Proper P ∧ P x
  | .call target x _ args => Expr.ProperOption P target ∧ P x ∧ Expr.ProperList P args
  | .instantiate _ args | .array args => Expr.ProperList P args
  | .object _ args body => Expr.ProperList P args ∧ Member.ProperList P body
  | .get a b | .assign a _ b | .binary a _ b => a.Proper P ∧ b.Proper P
  | .set a b c => a.Proper P ∧ b.Proper P ∧ c.Proper P
  | .update array index _ value => array.Proper P ∧ index.Proper P ∧ value.Proper P
  | .conditional conditions a b => Condition.ProperList P conditions ∧ a.Proper P ∧ b.Proper P

def Expr.ProperOption (P : String → Prop) : Option Expr → Prop
  | none => True
  | some e => e.Proper P

def Expr.ProperList (P : String → Prop) : List Expr → Prop
  | [] => True
  | e :: es => e.Proper P ∧ Expr.ProperList P es

def Slot.Proper (P : String → Prop) : Slot → Prop
  | .direct e => e.Proper P ∧ e.temps = 0
  | .bound e => e.Proper P

def Condition.Proper (P : String → Prop) : Condition → Prop
  | .isType _ e | .holds e => e.Proper P

def Condition.ProperList (P : String → Prop) : List Condition → Prop
  | [] => True
  | c :: cs => c.Proper P ∧ Condition.ProperList P cs

def Stmt.Proper (P : String → Prop) : Stmt → Prop
  | .block body => Stmt.ProperList P body
  | .declare _ _ _ init => Expr.ProperOption P init
  | .assertType _ _ e | .expr e | .breakIf e | .throwValue e => e.Proper P
  | .update array index _ value => array.Proper P ∧ index.Proper P ∧ value.Proper P
  | .ifElse conditions body otherwise =>
    Condition.ProperList P conditions ∧ Stmt.ProperList P body ∧ otherwise.Proper P
  | .whileLoop e body | .forIn _ _ e body => e.Proper P ∧ Stmt.ProperList P body
  | .breakLoop | .continueLoop => True
  | .switch selector cases otherwise =>
    selector.Proper P ∧ Case.ProperList P cases ∧ Stmt.ProperOption P otherwise
  | .delegate _ args => Expr.ProperList P args
  | .returnValue value => Expr.ProperOption P value
  | .tryCatch resources body catches last =>
    Resource.ProperList P resources ∧ Stmt.ProperList P body ∧ Catch.ProperList P catches ∧
      Stmt.ProperOption P last

def Stmt.ProperOption (P : String → Prop) : Option (List Stmt) → Prop
  | none => True
  | some body => Stmt.ProperList P body

def Stmt.ProperList (P : String → Prop) : List Stmt → Prop
  | [] => True
  | s :: ss => s.Proper P ∧ Stmt.ProperList P ss

def Else.Proper (P : String → Prop) : Else → Prop
  | .absent => True
  | .block body => Stmt.ProperList P body
  | .chained conditions body otherwise =>
    Condition.ProperList P conditions ∧ Stmt.ProperList P body ∧ otherwise.Proper P

def Case.ProperList (P : String → Prop) : List Case → Prop
  | [] => True
  | ⟨label, body⟩ :: cases => label.Proper P ∧ Stmt.ProperList P body ∧ Case.ProperList P cases

def Resource.ProperList (P : String → Prop) : List Resource → Prop
  | [] => True
  | ⟨_, _, init⟩ :: resources => init.Proper P ∧ Resource.ProperList P resources

def Catch.ProperList (P : String → Prop) : List Catch → Prop
  | [] => True
  | ⟨_, _, body⟩ :: catches => Stmt.ProperList P body ∧ Catch.ProperList P catches

def Declarator.ProperList (P : String → Prop) : List Declarator → Prop
  | [] => True
  | ⟨_, init⟩ :: declarators => Expr.ProperOption P init ∧ Declarator.ProperList P declarators

def Member.Proper (P : String → Prop) : Member → Prop
  | .fields _ _ _ declarators => Declarator.ProperList P declarators
  | .method ⟨_, _, _, _, _, _, _, body⟩ => Stmt.ProperOption P body
  | .constructor _ _ body | .enumConstructor _ _ body | .statements body => Stmt.ProperList P body
  | .type decl => decl.Proper P

def Member.ProperList (P : String → Prop) : List Member → Prop
  | [] => True
  | m :: ms => m.Proper P ∧ Member.ProperList P ms

def Constant.ProperList (P : String → Prop) : List Constant → Prop
  | [] => True
  | ⟨_, args⟩ :: constants => Expr.ProperList P args ∧ Constant.ProperList P constants

def TypeDecl.Proper (P : String → Prop) : TypeDecl → Prop
  | .ofClass ⟨_, _, _, _, _, _, _, body⟩ | .ofInterface ⟨_, _, _, _, body⟩ =>
    Member.ProperList P body
  | .ofEnumeration ⟨_, _, _, body, constants⟩ =>
    Member.ProperList P body ∧ Constant.ProperList P constants
end

/-! ### Lists -/

theorem Expr.properList_iff {es : List Expr} :
    Expr.ProperList P es ↔ ∀ e ∈ es, e.Proper P := by
  induction es with
  | nil => simp [Expr.ProperList]
  | cons e es ih => simp [Expr.ProperList, ih]

theorem Condition.properList_iff {cs : List Condition} :
    Condition.ProperList P cs ↔ ∀ c ∈ cs, c.Proper P := by
  induction cs with
  | nil => simp [Condition.ProperList]
  | cons c cs ih => simp [Condition.ProperList, ih]

theorem Stmt.properList_iff {ss : List Stmt} :
    Stmt.ProperList P ss ↔ ∀ s ∈ ss, s.Proper P := by
  induction ss with
  | nil => simp [Stmt.ProperList]
  | cons s ss ih => simp [Stmt.ProperList, ih]

theorem Stmt.properOption_iff {b : Option (List Stmt)} :
    Stmt.ProperOption P b ↔ ∀ ss ∈ b, Stmt.ProperList P ss := by
  cases b <;> simp [Stmt.ProperOption]

theorem Case.properList_iff {cs : List Case} :
    Case.ProperList P cs ↔ ∀ c ∈ cs, c.label.Proper P ∧ Stmt.ProperList P c.body := by
  induction cs with
  | nil => simp [Case.ProperList]
  | cons c cs ih =>
    cases c
    simp [Case.ProperList, ih, and_assoc]

theorem Resource.properList_iff {rs : List Resource} :
    Resource.ProperList P rs ↔ ∀ r ∈ rs, r.init.Proper P := by
  induction rs with
  | nil => simp [Resource.ProperList]
  | cons r rs ih =>
    cases r
    simp [Resource.ProperList, ih]

theorem Catch.properList_iff {cs : List Catch} :
    Catch.ProperList P cs ↔ ∀ c ∈ cs, Stmt.ProperList P c.body := by
  induction cs with
  | nil => simp [Catch.ProperList]
  | cons c cs ih =>
    cases c
    simp [Catch.ProperList, ih]

theorem Declarator.properList_iff {ds : List Declarator} :
    Declarator.ProperList P ds ↔ ∀ d ∈ ds, Expr.ProperOption P d.init := by
  induction ds with
  | nil => simp [Declarator.ProperList]
  | cons d ds ih =>
    cases d
    simp [Declarator.ProperList, ih]

theorem Member.properList_iff {ms : List Member} :
    Member.ProperList P ms ↔ ∀ m ∈ ms, m.Proper P := by
  induction ms with
  | nil => simp [Member.ProperList]
  | cons m ms ih => simp [Member.ProperList, ih]

theorem Constant.properList_iff {cs : List Constant} :
    Constant.ProperList P cs ↔ ∀ c ∈ cs, Expr.ProperList P c.args := by
  induction cs with
  | nil => simp [Constant.ProperList]
  | cons c cs ih =>
    cases c
    simp [Constant.ProperList, ih]

/-! ## Proper trees are orderly -/

mutual
theorem Expr.orderly : (e : Expr) → e.Proper P → e.Orderly P
  | .literal _, _, k | .thisRef, _, k | .superRef, _, k | .array [], _, k => by
    simp [Token.Orderly, Expr.pieces, Expr.temps, Expr.tempsList, takes_nil]
  | .name x, h, k => by
    have hx : P x := h
    simp [Token.Orderly, Expr.pieces, Expr.temps, takes_nil, hx]
  | .paren e, h, k | .before _ e, h, k | .after e _, h, k | .isType e _, h, k => by
    simpa [Token.Orderly, Expr.pieces, Expr.temps] using Expr.orderly e h k
  | .existence _ binding e, h, k => by
    cases binding <;> simpa [Token.Orderly, Expr.pieces, Expr.temps] using Expr.orderly e h k
  | .property e x, h, k => by
    have hx : P x := h.2
    simpa [Token.Orderly, Expr.pieces, Expr.temps, or_imp, forall_and, hx] using
      Expr.orderly e h.1 k
  | .call target x _ args, h, k => by
    have hx : P x := h.2.1
    simpa [Token.Orderly, Expr.pieces, Expr.temps, or_imp, forall_and, hx, ← Nat.add_assoc] using
      (Expr.orderly_target target h.1 k).append (Expr.orderly_list args h.2.2 _)
  | .instantiate _ args, h, k => by
    simpa [Token.Orderly, Expr.pieces, Expr.temps] using Expr.orderly_list args h k
  | .array (e :: es), h, k => by
    simpa [Token.Orderly, Expr.pieces, Expr.temps] using Expr.orderly_list (e :: es) h k
  | .object _ [] body, h, k => by
    simpa [Token.Orderly, Expr.pieces, Expr.temps, Expr.tempsList] using
      Member.orderly_list body h.2 k
  | .object _ (e :: es) body, h, k => by
    simpa [Token.Orderly, Expr.pieces, Expr.temps, ← Nat.add_assoc] using
      (Expr.orderly_list (e :: es) h.1 k).append (Member.orderly_list body h.2 _)
  | .get a b, h, k | .assign a _ b, h, k | .binary a _ b, h, k => by
    simpa [Token.Orderly, Expr.pieces, Expr.temps, ← Nat.add_assoc] using
      (Expr.orderly a h.1 k).append (Expr.orderly b h.2 _)
  | .set a b c, h, k => by
    simpa [Token.Orderly, Expr.pieces, Expr.temps, ← Nat.add_assoc] using
      (Expr.orderly a h.1 k).append ((Expr.orderly b h.2.1 _).append (Expr.orderly c h.2.2 _))
  | .update array index _ value, h, k => by
    have hupdate := Slot.orderly_update (Slot.orderly array h.1) (Slot.orderly index h.2.1)
      (Expr.orderly value h.2.2) k
    refine Token.orderly_of_views hupdate ?_ ?_ <;> simp only [Expr.pieces, Slot.updateTokens] <;>
      split <;> simp_all
  | .conditional conditions a b, h, k => by
    simpa [Token.Orderly, Expr.pieces, Expr.temps, ← Nat.add_assoc] using
      (Condition.orderly_list conditions h.1 k).append
        ((Expr.orderly a h.2.1 _).append (Expr.orderly b h.2.2 _))
termination_by structural e => e

theorem Expr.orderly_target : (e : Option Expr) → Expr.ProperOption P e → (k : Nat) →
    Token.Orderly P k (Expr.targetPieces e k) (k + Expr.tempsOption e)
  | none, _, k => Token.orderly_nil k
  | some e, h, k => by
    simpa [Token.Orderly, Expr.targetPieces, Expr.tempsOption] using Expr.orderly e h k
termination_by structural e => e

theorem Expr.orderly_list : (es : List Expr) → Expr.ProperList P es → (k : Nat) →
    Token.Orderly P k (Expr.piecesList es k) (k + Expr.tempsList es)
  | [], _, k => Token.orderly_nil k
  | [e], h, k => by
    simpa [Token.Orderly, Expr.piecesList, Expr.tempsList] using Expr.orderly e h.1 k
  | e :: e' :: es, h, k => by
    simpa [Token.Orderly, Expr.piecesList, Expr.tempsList, ← Nat.add_assoc] using
      (Expr.orderly e h.1 k).append (Expr.orderly_list (e' :: es) h.2 _)
termination_by structural es => es

theorem Slot.orderly : (s : Slot) → s.Proper P → s.Orderly P
  | .direct e, h => ⟨Expr.orderly e h.1, h.2⟩
  | .bound e, h => Expr.orderly e h
termination_by structural s => s

theorem Condition.orderly : (c : Condition) → c.Proper P → (k : Nat) →
    Token.Orderly P k (c.pieces k) (k + c.temps)
  | .isType _ e, h, k | .holds e, h, k => by
    simpa [Token.Orderly, Condition.pieces, Condition.temps] using Expr.orderly e h k
termination_by structural c => c

theorem Condition.orderly_list : (cs : List Condition) → Condition.ProperList P cs → (k : Nat) →
    Token.Orderly P k (Condition.piecesList cs k) (k + Condition.tempsList cs)
  | [], _, k => Token.orderly_nil k
  | [c], h, k => by
    simpa [Token.Orderly, Condition.piecesList, Condition.tempsList] using
      Condition.orderly c h.1 k
  | c :: c' :: cs, h, k => by
    simpa [Token.Orderly, Condition.piecesList, Condition.tempsList, ← Nat.add_assoc] using
      (Condition.orderly c h.1 k).append (Condition.orderly_list (c' :: cs) h.2 _)
termination_by structural cs => cs

theorem Stmt.orderly : (s : Stmt) → s.Proper P → (k : Nat) →
    Token.Orderly P k (s.tokens k) (k + s.temps)
  | .block body, h, k => by
    simpa [Token.Orderly, Stmt.pieces, Stmt.temps] using Stmt.orderly_list body h k
  | .declare _ _ _ init, h, k => by
    simpa [Token.Orderly, Stmt.pieces, Stmt.temps] using Expr.orderly_init init h k
  | .assertType _ _ e, h, k | .expr e, h, k | .breakIf e, h, k | .throwValue e, h, k
  | .returnValue (some e), h, k => by
    simpa [Token.Orderly, Stmt.pieces, Stmt.temps, Expr.tempsOption] using Expr.orderly e h k
  | .update array index _ value, h, k => by
    have hupdate := Slot.orderly_update (Slot.orderly array h.1) (Slot.orderly index h.2.1)
      (Expr.orderly value h.2.2) k
    refine Token.orderly_of_views hupdate ?_ ?_ <;> simp [Stmt.pieces, Slot.updateTokens]
  | .ifElse conditions body otherwise, h, k => by
    simpa [Token.Orderly, Stmt.pieces, Stmt.temps, ← Nat.add_assoc] using
      (Condition.orderly_list conditions h.1 k).append
        ((Stmt.orderly_list body h.2.1 _).append (Else.orderly otherwise h.2.2 _))
  | .whileLoop e body, h, k | .forIn _ _ e body, h, k => by
    simpa [Token.Orderly, Stmt.pieces, Stmt.temps, ← Nat.add_assoc] using
      (Expr.orderly e h.1 k).append (Stmt.orderly_list body h.2 _)
  | .breakLoop, _, k | .continueLoop, _, k | .returnValue none, _, k => by
    simp [Token.Orderly, Stmt.pieces, Stmt.temps, Expr.tempsOption, takes_nil]
  | .switch selector cases otherwise, h, k => by
    simpa [Token.Orderly, Stmt.pieces, Stmt.temps, ← Nat.add_assoc] using
      (Expr.orderly selector h.1 k).append
        ((Case.orderly_list cases h.2.1 _).append (Stmt.orderly_else otherwise h.2.2 _))
  | .delegate _ args, h, k => by
    simpa [Token.Orderly, Stmt.pieces, Stmt.temps] using Expr.orderly_list args h k
  | .tryCatch resources body catches last, h, k => by
    simpa [Token.Orderly, Stmt.pieces, Stmt.temps, ← Nat.add_assoc] using
      (Resource.orderly_list resources h.1 k).append ((Stmt.orderly_list body h.2.1 _).append
        ((Catch.orderly_list catches h.2.2.1 _).append (Stmt.orderly_finally last h.2.2.2 _)))
termination_by structural s => s

theorem Expr.orderly_init : (e : Option Expr) → Expr.ProperOption P e → (k : Nat) →
    Token.Orderly P k (Expr.initPieces e k) (k + Expr.tempsOption e)
  | none, _, k => Token.orderly_nil k
  | some e, h, k => by
    simpa [Token.Orderly, Expr.initPieces, Expr.tempsOption] using Expr.orderly e h k
termination_by structural e => e

theorem Stmt.orderly_list : (ss : List Stmt) → Stmt.ProperList P ss → (k : Nat) →
    Token.Orderly P k (Stmt.piecesList ss k) (k + Stmt.tempsList ss)
  | [], _, k => Token.orderly_nil k
  | s :: ss, h, k => by
    simpa [Token.Orderly, Stmt.piecesList, Stmt.tempsList, ← Nat.add_assoc] using
      (Stmt.orderly s h.1 k).append (Stmt.orderly_list ss h.2 _)
termination_by structural ss => ss

theorem Stmt.orderly_else : (b : Option (List Stmt)) → Stmt.ProperOption P b → (k : Nat) →
    Token.Orderly P k (Stmt.elsePieces b k) (k + Stmt.tempsOption b)
  | none, _, k => by simp [Token.Orderly, Stmt.elsePieces, Stmt.tempsOption, takes_nil]
  | some b, h, k => by
    simpa [Token.Orderly, Stmt.elsePieces, Stmt.tempsOption] using Stmt.orderly_list b h k
termination_by structural b => b

theorem Stmt.orderly_finally : (b : Option (List Stmt)) → Stmt.ProperOption P b → (k : Nat) →
    Token.Orderly P k (Stmt.finallyPieces b k) (k + Stmt.tempsOption b)
  | none, _, k => Token.orderly_nil k
  | some b, h, k => by
    simpa [Token.Orderly, Stmt.finallyPieces, Stmt.tempsOption] using Stmt.orderly_list b h k
termination_by structural b => b

theorem Else.orderly : (e : Else) → e.Proper P → (k : Nat) →
    Token.Orderly P k (e.pieces k) (k + e.temps)
  | .absent, _, k => Token.orderly_nil k
  | .block body, h, k => by
    simpa [Token.Orderly, Else.pieces, Else.temps] using Stmt.orderly_list body h k
  | .chained conditions body otherwise, h, k => by
    simpa [Token.Orderly, Else.pieces, Else.temps, ← Nat.add_assoc] using
      (Condition.orderly_list conditions h.1 k).append
        ((Stmt.orderly_list body h.2.1 _).append (Else.orderly otherwise h.2.2 _))
termination_by structural e => e

theorem Case.orderly_list : (cs : List Case) → Case.ProperList P cs → (k : Nat) →
    Token.Orderly P k (Case.piecesList cs k) (k + Case.tempsList cs)
  | [], _, k => Token.orderly_nil k
  | ⟨label, body⟩ :: cs, h, k => by
    simpa [Token.Orderly, Case.piecesList, Case.tempsList, ← Nat.add_assoc] using
      (Expr.orderly label h.1 k).append
        ((Stmt.orderly_list body h.2.1 _).append (Case.orderly_list cs h.2.2 _))
termination_by structural cs => cs

theorem Resource.orderly_list : (rs : List Resource) → Resource.ProperList P rs → (k : Nat) →
    Token.Orderly P k (Resource.listPieces rs k) (k + Resource.tempsList rs)
  | [], _, k => Token.orderly_nil k
  | ⟨_, _, init⟩ :: rs, h, k => by
    simpa [Token.Orderly, Resource.listPieces, Resource.tempsList, ← Nat.add_assoc] using
      (Expr.orderly init h.1 k).append (Resource.orderly_further rs h.2 _)
termination_by structural rs => rs

theorem Resource.orderly_further : (rs : List Resource) → Resource.ProperList P rs → (k : Nat) →
    Token.Orderly P k (Resource.furtherPieces rs k) (k + Resource.tempsList rs)
  | [], _, k => Token.orderly_nil k
  | ⟨_, _, init⟩ :: rs, h, k => by
    simpa [Token.Orderly, Resource.furtherPieces, Resource.tempsList, ← Nat.add_assoc] using
      (Expr.orderly init h.1 k).append (Resource.orderly_further rs h.2 _)
termination_by structural rs => rs

theorem Catch.orderly_list : (cs : List Catch) → Catch.ProperList P cs → (k : Nat) →
    Token.Orderly P k (Catch.piecesList cs k) (k + Catch.tempsList cs)
  | [], _, k => Token.orderly_nil k
  | ⟨_, _, body⟩ :: cs, h, k => by
    simpa [Token.Orderly, Catch.piecesList, Catch.tempsList, ← Nat.add_assoc] using
      (Stmt.orderly_list body h.1 k).append (Catch.orderly_list cs h.2 _)
termination_by structural cs => cs

theorem Declarator.orderly_fields (isShared isVariable : Bool) (ty : Ty) :
    (ds : List Declarator) → Declarator.ProperList P ds → (k : Nat) →
      Token.Orderly P k (Declarator.fieldPieces ds isShared isVariable ty k)
        (k + Declarator.tempsList ds)
  | [], _, k => Token.orderly_nil k
  | ⟨_, init⟩ :: ds, h, k => by
    simpa [Token.Orderly, Declarator.fieldPieces, Declarator.tempsList, ← Nat.add_assoc] using
      (Expr.orderly_init init h.1 k).append
        (Declarator.orderly_fields isShared isVariable ty ds h.2 _)
termination_by structural ds => ds

theorem Stmt.orderly_body : (b : Option (List Stmt)) → Stmt.ProperOption P b → (k : Nat) →
    Token.Orderly P k (Stmt.bodyPieces b k) (k + Stmt.tempsOption b)
  | none, _, k => by simp [Token.Orderly, Stmt.bodyPieces, Stmt.tempsOption, takes_nil]
  | some b, h, k => by
    simpa [Token.Orderly, Stmt.bodyPieces, Stmt.tempsOption] using Stmt.orderly_list b h k
termination_by structural b => b

theorem Member.orderly : (m : Member) → m.Proper P → (k : Nat) →
    Token.Orderly P k (m.pieces k) (k + m.temps)
  | .fields isShared isVariable ty ds, h, k => by
    simpa [Member.pieces, Member.temps] using Declarator.orderly_fields isShared isVariable ty ds h k
  | .method ⟨_, _, _, _, _, _, _, body⟩, h, k => by
    simpa [Token.Orderly, Member.pieces, Method.pieces, Member.temps] using
      Stmt.orderly_body body h k
  | .constructor _ _ body, h, k | .enumConstructor _ _ body, h, k | .statements body, h, k => by
    simpa [Token.Orderly, Member.pieces, Member.temps] using Stmt.orderly_list body h k
  | .type decl, h, k => by simpa [Member.pieces, Member.temps] using TypeDecl.orderly decl h k
termination_by structural m => m

theorem Member.orderly_list : (ms : List Member) → Member.ProperList P ms → (k : Nat) →
    Token.Orderly P k (Member.piecesList ms k) (k + Member.tempsList ms)
  | [], _, k => Token.orderly_nil k
  | [m], h, k => by
    simpa [Token.Orderly, Member.piecesList, Member.tempsList] using Member.orderly m h.1 k
  | m :: m' :: ms, h, k => by
    simpa [Token.Orderly, Member.piecesList, Member.tempsList, apply_ite events, apply_ite names,
      ← Nat.add_assoc] using (Member.orderly m h.1 k).append (Member.orderly_list (m' :: ms) h.2 _)
termination_by structural ms => ms

theorem Constant.orderly_list (enumName : String) : (cs : List Constant) →
    Constant.ProperList P cs → (k : Nat) →
      Token.Orderly P k (Constant.piecesList cs enumName k) (k + Constant.tempsList cs)
  | [], _, k => Token.orderly_nil k
  | ⟨_, []⟩ :: cs, h, k => by
    simpa [Token.Orderly, Constant.piecesList, Constant.tempsList, Expr.tempsList] using
      Constant.orderly_list enumName cs h.2 k
  | ⟨_, e :: es⟩ :: cs, h, k => by
    simpa [Token.Orderly, Constant.piecesList, Constant.tempsList, ← Nat.add_assoc] using
      (Expr.orderly_list (e :: es) h.1 k).append (Constant.orderly_list enumName cs h.2 _)
termination_by structural cs => cs

theorem TypeDecl.orderly : (t : TypeDecl) → t.Proper P → (k : Nat) →
    Token.Orderly P k (t.pieces k) (k + t.temps)
  | .ofClass ⟨_, _, _, _, _, superclass, _, body⟩, h, k => by
    cases superclass <;> simpa [Token.Orderly, TypeDecl.pieces, TypeDecl.temps] using
      Member.orderly_list body h k
  | .ofInterface ⟨_, _, _, _, body⟩, h, k => by
    simpa [Token.Orderly, TypeDecl.pieces, TypeDecl.temps] using Member.orderly_list body h k
  | .ofEnumeration ⟨_, name, _, body, constants⟩, h, k => by
    have hparts := (Member.orderly_list body h.1 k).append
      (Constant.orderly_list name constants h.2 (k + Member.tempsList body))
    rw [TypeDecl.temps, ← Nat.add_assoc]
    refine Token.orderly_of_views hparts ?_ ?_ <;> cases body <;> cases constants <;>
      simp [TypeDecl.pieces, Member.piecesList, Constant.piecesList]
termination_by structural t => t
end

theorem TypeDecl.orderly_list {ts : List TypeDecl} (h : ∀ t ∈ ts, t.Proper P) (k : Nat) :
    Token.Orderly P k (TypeDecl.piecesList ts k) (k + TypeDecl.tempsList ts) := by
  induction ts generalizing k with
  | nil => exact Token.orderly_nil k
  | cons t ts ih =>
    obtain ⟨ht, hts⟩ := List.forall_mem_cons.mp h
    have hboth := (TypeDecl.orderly t ht k).append (ih hts (k + t.temps))
    rw [TypeDecl.tempsList, ← Nat.add_assoc]
    cases ts <;> exact Token.orderly_of_views hboth (by simp [TypeDecl.piecesList])
      (by simp [TypeDecl.piecesList])

theorem Source.orderly {s : Source} (h : ∀ t ∈ s.types, t.Proper P) (k : Nat) :
    Token.Orderly P k (s.tokens k) (k + s.temps) := by
  simpa [Token.Orderly, Source.pieces, Source.temps] using TypeDecl.orderly_list h k

end CeylonFromJava.Ceylon
