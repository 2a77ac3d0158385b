import CeylonFromJava.Proofs.Ceylon.Tokens

/-! A ledger of temporary values.

The ledger is kept along the events of a text. It has the next number, the updates that are open and
the temporaries that are bound so far. An event that is out of order has no place in it: a number that is
not the next, a temporary bound twice, or one that is bound or used outside its own update or before it
is bound. So the events of a text are in order if the ledger gets through them. -/
namespace CeylonFromJava.Ceylon
set_option autoImplicit false

/-- A temporary: what it stands for, and the number of its update. -/
abbrev TempRef := Role × Nat

def TempRef.name (t : TempRef) : String := tempName t.1.word t.2

/-- Different temporaries have different names. -/
theorem TempRef.name_injective : Function.Injective TempRef.name := by
  rintro ⟨role, n⟩ ⟨role', n'⟩ h
  have hdigits : ∀ m m' : Nat, Nat.toDigits 10 m = Nat.toDigits 10 m' → m = m' := by
    intro m m' h
    simpa using congrArg (fun digits => Nat.ofDigitChars 10 digits 0) h
  have hchars : role.word.toList ++ Nat.toDigits 10 n = role'.word.toList ++ Nat.toDigits 10 n' := by
    simpa [TempRef.name, tempName] using congrArg String.toList h
  cases role <;> cases role' <;> simp [Role.word, arrayRole, indexRole] at hchars
  · rw [hdigits n n' hchars]
  · rw [hdigits n n' hchars]

namespace TempEvent

/-! ## Views of histories -/

/-- The numbers taken, in the order of the text. -/
def openings : List TempEvent → List Nat
  | [] => []
  | .opens n :: es => n :: openings es
  | .binds _ _ :: es | .uses _ _ :: es | .closes _ :: es => openings es

/-- The temporaries bound, in the order of the text. -/
def bindings : List TempEvent → List TempRef
  | [] => []
  | .binds role n :: es => (role, n) :: bindings es
  | .opens _ :: es | .uses _ _ :: es | .closes _ :: es => bindings es

/-- The updates that are open after the events, the innermost first. -/
def pending : List Nat → List TempEvent → List Nat
  | opened, [] => opened
  | opened, .opens n :: es => pending (n :: opened) es
  | opened, .closes _ :: es => pending opened.tail es
  | opened, .binds _ _ :: es | opened, .uses _ _ :: es => pending opened es

attribute [simp] openings bindings pending

theorem mem_bindings {t : TempRef} {es : List TempEvent} :
    t ∈ bindings es ↔ .binds t.1 t.2 ∈ es := by
  obtain ⟨role, n⟩ := t
  induction es with
  | nil => simp
  | cons e es ih => cases e <;> simp [ih]

section

variable (es es' : List TempEvent)

theorem openings_append : openings (es ++ es') = openings es ++ openings es' := by
  induction es with
  | nil => rfl
  | cons e es ih => cases e <;> simp [ih]

theorem bindings_append : bindings (es ++ es') = bindings es ++ bindings es' := by
  induction es with
  | nil => rfl
  | cons e es ih => cases e <;> simp [ih]

theorem pending_append (opened : List Nat) :
    pending opened (es ++ es') = pending (pending opened es) es' := by
  induction es generalizing opened with
  | nil => rfl
  | cons e es ih => cases e <;> simp [ih]

end

end TempEvent

open TempEvent (openings bindings pending)

/-- The next number, the updates that are open with the innermost first, and what is bound so far. -/
structure Ledger where
  next : Nat
  opened : List Nat
  bound : List TempRef
  deriving DecidableEq

namespace Ledger

/-- The ledger of a new writer. -/
def blank : Ledger := ⟨0, [], []⟩

def step (l : Ledger) : TempEvent → Option Ledger
  | .opens n => if n = l.next then some ⟨n + 1, n :: l.opened, l.bound⟩ else none
  | .binds role n =>
    if l.opened.head? = some n ∧ (role, n) ∉ l.bound then
      some ⟨l.next, l.opened, l.bound ++ [(role, n)]⟩
    else none
  | .uses role n => if l.opened.head? = some n ∧ (role, n) ∈ l.bound then some l else none
  | .closes n => if l.opened.head? = some n then some ⟨l.next, l.opened.tail, l.bound⟩ else none

def run (l : Ledger) : List TempEvent → Option Ledger
  | [] => some l
  | e :: es => (l.step e).bind fun l' => l'.run es

@[simp] theorem run_nil (l : Ledger) : l.run [] = some l := rfl

theorem run_cons (l : Ledger) (e : TempEvent) (es : List TempEvent) :
    l.run (e :: es) = (l.step e).bind fun l' => l'.run es := rfl

theorem run_append (l : Ledger) (es es' : List TempEvent) :
    l.run (es ++ es') = (l.run es).bind fun l' => l'.run es' := by
  induction es generalizing l with
  | nil => rfl
  | cons e es ih =>
    rw [List.cons_append, run_cons, run_cons, Option.bind_assoc]
    simp only [ih]

/-! ## What a history tells -/

/-- The ledger `l'` follows `l` after the events: it has taken the numbers that they take, one after
another, and has bound what they bind, nothing of it twice. -/
structure Follows (l : Ledger) (es : List TempEvent) (l' : Ledger) : Prop where
  numbers : openings es = List.range' l.next (l'.next - l.next)
  next_le : l.next ≤ l'.next
  opened : l'.opened = pending l.opened es
  bound : l'.bound = l.bound ++ bindings es
  nodup : l.bound.Nodup → l'.bound.Nodup

theorem step_follows {l l' : Ledger} {e : TempEvent} (h : l.step e = some l') : l.Follows [e] l' := by
  cases e with
  | opens n =>
    rw [step, Option.ite_none_right_eq_some] at h
    obtain ⟨rfl, ⟨⟩⟩ := h
    exact ⟨by simp, Nat.le_succ _, rfl, by simp, id⟩
  | binds role n =>
    rw [step, Option.ite_none_right_eq_some] at h
    obtain ⟨⟨-, hfresh⟩, ⟨⟩⟩ := h
    refine ⟨by simp, Nat.le_refl _, rfl, rfl, fun hbound => ?_⟩
    rw [List.nodup_append]
    refine ⟨hbound, by simp, ?_⟩
    rintro t ht _ hmem rfl
    exact hfresh (List.mem_singleton.mp hmem ▸ ht)
  | uses role n =>
    rw [step, Option.ite_none_right_eq_some] at h
    obtain ⟨-, ⟨⟩⟩ := h
    exact ⟨by simp, Nat.le_refl _, rfl, by simp, id⟩
  | closes n =>
    rw [step, Option.ite_none_right_eq_some] at h
    obtain ⟨-, ⟨⟩⟩ := h
    exact ⟨by simp, Nat.le_refl _, rfl, by simp, id⟩

theorem Follows.trans {l m l' : Ledger} {es es' : List TempEvent} (h : l.Follows es m)
    (h' : m.Follows es' l') : l.Follows (es ++ es') l' := by
  have hle := h.next_le
  have hle' := h'.next_le
  refine ⟨?_, Nat.le_trans hle hle', ?_, ?_, fun hbound => h'.nodup (h.nodup hbound)⟩
  · have hnext : l.next + 1 * (m.next - l.next) = m.next := by omega
    have hcount : l'.next - l.next = (m.next - l.next) + (l'.next - m.next) := by omega
    rw [TempEvent.openings_append, h.numbers, h'.numbers, hcount, ← List.range'_append, hnext]
  · rw [TempEvent.pending_append, ← h.opened, h'.opened]
  · rw [TempEvent.bindings_append, ← List.append_assoc, ← h.bound, h'.bound]

theorem run_follows {l l' : Ledger} {es : List TempEvent} (h : l.run es = some l') :
    l.Follows es l' := by
  induction es generalizing l with
  | nil =>
    cases h
    exact ⟨by simp, Nat.le_refl _, rfl, by simp, id⟩
  | cons e es ih =>
    rw [run_cons, Option.bind_eq_some_iff] at h
    obtain ⟨m, hstep, hrun⟩ := h
    exact (step_follows hstep).trans (ih hrun)

/-- The ledger takes every event of a history that it gets through. -/
theorem exists_step_of_run {l l' : Ledger} {before after : List TempEvent} {e : TempEvent}
    (h : l.run (before ++ e :: after) = some l') :
    ∃ m m', l.Follows before m ∧ m.step e = some m' := by
  rw [run_append, Option.bind_eq_some_iff] at h
  obtain ⟨m, hbefore, hrest⟩ := h
  rw [run_cons, Option.bind_eq_some_iff] at hrest
  obtain ⟨m', hstep, -⟩ := hrest
  exact ⟨m, m', run_follows hbefore, hstep⟩

section

variable {l' : Ledger} {before after : List TempEvent} {role : Role} {n : Nat}

theorem innermost_of_binds (h : blank.run (before ++ .binds role n :: after) = some l') :
    (pending [] before).head? = some n := by
  obtain ⟨m, m', hbefore, hstep⟩ := exists_step_of_run h
  rw [step, Option.ite_none_right_eq_some, hbefore.opened] at hstep
  exact hstep.1.1

theorem innermost_of_uses (h : blank.run (before ++ .uses role n :: after) = some l') :
    (pending [] before).head? = some n ∧ .binds role n ∈ before := by
  obtain ⟨m, m', hbefore, hstep⟩ := exists_step_of_run h
  rw [step, Option.ite_none_right_eq_some, hbefore.opened, hbefore.bound] at hstep
  exact ⟨hstep.1.1, TempEvent.mem_bindings.mp hstep.1.2⟩

end

/-! ## Histories that take the numbers from `k` up to `l` -/

/-- From a ledger that goes on with `k` the history is in order. It binds temporaries of all numbers from
`k` up to `l` and of no others, and the updates that it opens are closed again. -/
structure Takes (k : Nat) (es : List TempEvent) (l : Nat) : Prop where
  le : k ≤ l
  run : ∀ opened bound, (∀ t ∈ bound, t.2 < k) → ∃ more : List TempRef,
    (∀ n, (∃ role, (role, n) ∈ more) ↔ k ≤ n ∧ n < l) ∧
      Ledger.run ⟨k, opened, bound⟩ es = some ⟨l, opened, bound ++ more⟩

theorem takes_nil (k : Nat) : Takes k [] k :=
  ⟨Nat.le_refl k, fun _ bound _ => ⟨[], by simp, by simp⟩⟩

theorem Takes.append {k l m : Nat} {es es' : List TempEvent} (h : Takes k es l)
    (h' : Takes l es' m) : Takes k (es ++ es') m := by
  refine ⟨Nat.le_trans h.le h'.le, fun opened bound hbound => ?_⟩
  have hle := h.le
  have hle' := h'.le
  obtain ⟨first, hfirst, hrun⟩ := h.run opened bound hbound
  have hall : ∀ t ∈ bound ++ first, t.2 < l := by
    intro t ht
    rcases List.mem_append.mp ht with hold | hnew
    · exact Nat.lt_of_lt_of_le (hbound t hold) hle
    · exact ((hfirst t.2).mp ⟨t.1, hnew⟩).2
  obtain ⟨second, hsecond, hrun'⟩ := h'.run opened (bound ++ first) hall
  refine ⟨first ++ second, fun n => ?_, ?_⟩
  · simp only [List.mem_append, exists_or, hfirst, hsecond]
    omega
  · rw [run_append, hrun, Option.bind_some, hrun', List.append_assoc]

theorem Takes.mem_bindings {k l : Nat} {es : List TempEvent} (h : Takes k es l) (n : Nat) :
    (∃ role, (role, n) ∈ bindings es) ↔ k ≤ n ∧ n < l := by
  obtain ⟨more, hmore, hrun⟩ := h.run [] [] nofun
  have hbound : more = bindings es := (run_follows hrun).bound
  rw [← hbound, hmore]

theorem Takes.pending_eq_nil {k l : Nat} {es : List TempEvent} (h : Takes k es l) :
    pending [] es = [] := by
  obtain ⟨more, -, hrun⟩ := h.run [] [] nofun
  exact (run_follows hrun).opened.symm

/-- A history that takes no number is empty: outside an update nothing else can come first. -/
theorem Takes.eq_nil {k : Nat} {es : List TempEvent} (h : Takes k es k) : es = [] := by
  obtain ⟨more, -, hrun⟩ := h.run [] [] nofun
  cases es with
  | nil => rfl
  | cons e es =>
    rw [run_cons, Option.bind_eq_some_iff] at hrun
    obtain ⟨m, hstep, hrest⟩ := hrun
    cases e with
    | opens n =>
      rw [step, Option.ite_none_right_eq_some] at hstep
      obtain ⟨rfl, ⟨⟩⟩ := hstep
      have hle := (run_follows hrest).next_le
      exact absurd hle (Nat.not_succ_le_self _)
    | binds role n | uses role n | closes n => simp [step] at hstep

end Ledger

end CeylonFromJava.Ceylon
