import CeylonFromJava.Proofs.Java.CountingLoop

/-! Loops that test last.

A `do` loop runs its body, tests its condition, and goes round again if the condition holds. Which of
the two answers sends it round is a parameter here: a loop that repeats a guard at the end of each round
and before each `continue` is a loop of this kind, and the guard decides which one. -/
namespace CeylonFromJava.Java
set_option autoImplicit false

variable {σ V : Type}

namespace Run

/-- Rounds that are each followed by a test, with another round if the test says `again`. A round that
continues is tested like one that ends normally; `break` ends the loop untested. -/
inductive doLoop (again : Bool) (round : Run σ V) (test : σ → Except V Bool → σ → Prop) : Run σ V
  | again {s m m' s' : σ} {c d : Completion V} : round s c m → c = .normal ∨ c = .continued →
    test m (.ok again) m' → doLoop again round test m' d s' → doLoop again round test s d s'
  | done {s m s' : σ} {c : Completion V} : round s c m → c = .normal ∨ c = .continued →
    test m (.ok !again) s' → doLoop again round test s .normal s'
  | failed {s m s' : σ} {c : Completion V} {v : V} : round s c m → c = .normal ∨ c = .continued →
    test m (.error v) s' → doLoop again round test s (.thrown v) s'
  | broken {s s' : σ} : round s .broken s' → doLoop again round test s .normal s'
  | left {s s' : σ} {c : Completion V} : round s c s' → c ≠ .normal → c ≠ .continued →
    c ≠ .broken → doLoop again round test s c s'

variable {again leave : Bool} {round tail : Run σ V} {test : σ → Except V Bool → σ → Prop} {s s' : σ}
  {c : Completion V}

theorem stays_doLoop : Stays (doLoop again round test) := by
  intro s s' hl
  generalize hc : Completion.continued = c at hl
  induction hl with
  | again _ _ _ _ ih => exact ih hc
  | done _ _ _ | failed _ _ _ | broken _ => cases hc
  | left _ _ hn _ => exact hn hc.symm

/-- A loop that ends normally ends with a test that does not say `again`, or with a `break`. -/
theorem doLoop_normal (h : doLoop again round test s .normal s') :
    (∃ m, test m (.ok !again) s') ∨ ∃ m, round m .broken s' := by
  generalize hc : Completion.normal = c at h
  induction h with
  | again _ _ _ _ ih => exact ih hc
  | done _ _ ht => exact .inl ⟨_, ht⟩
  | failed _ _ _ => cases hc
  | broken hr => exact .inr ⟨_, hr⟩
  | left _ hn _ _ => exact absurd hc.symm hn

/-! ## Guards -/

/-- Breaks if the test says `leave`. -/
def guard (leave : Bool) (test : σ → Except V Bool → σ → Prop) : Run σ V :=
  bind test fun holds => if holds = leave then stop .broken else skip

theorem guard_normal : guard leave test s .normal s' ↔ test s (.ok !leave) s' := by
  constructor
  · rintro (⟨holds, m, ht, h⟩ | ⟨v, _, hc⟩)
    · split at h
      · cases h.1
      · rename_i hne
        obtain ⟨_, rfl⟩ := h
        rwa [← Bool.eq_not.mpr hne]
    · cases hc
  · intro ht
    refine .inl ⟨!leave, s', ht, ?_⟩
    simp [skip]

theorem guard_broken : guard leave test s .broken s' ↔ test s (.ok leave) s' := by
  constructor
  · rintro (⟨holds, m, ht, h⟩ | ⟨v, _, hc⟩)
    · split at h
      · rename_i heq
        obtain ⟨_, rfl⟩ := h
        rwa [← heq]
      · cases h.1
    · cases hc
  · intro ht
    refine .inl ⟨leave, s', ht, ?_⟩
    simp [stop]

theorem guard_thrown {v : V} : guard leave test s (.thrown v) s' ↔ test s (.error v) s' := by
  constructor
  · rintro (⟨holds, m, _, h⟩ | ⟨v', ht, hc⟩)
    · split at h
      · cases h.1
      · cases h.1
    · cases hc
      exact ht
  · exact fun ht => .inr ⟨v, ht, rfl⟩

/-- A guard breaks, throws or lets pass. -/
theorem guard_completion (h : guard leave test s c s') :
    c = .normal ∨ c = .broken ∨ ∃ v, c = .thrown v := by
  rcases h with ⟨holds, m, _, h⟩ | ⟨v, _, rfl⟩
  · split at h
    · exact .inr (.inl h.1)
    · exact .inl h.1
  · exact .inr (.inr ⟨v, rfl⟩)

/-! ## Rounds with a guard in them -/

/-- Where the round with a tail in it comes from, if the tail may end in any way. -/
theorem round_of_seq_withTail (h : seq (withTail tail round) tail s c s') :
    (∃ d m, round s d m ∧ (d = .normal ∨ d = .continued) ∧
      ((tail m .normal s' ∧ c = d) ∨ (tail m c s' ∧ c ≠ .normal))) ∨
      (round s c s' ∧ c ≠ .normal ∧ c ≠ .continued) := by
  rcases h with ⟨m, hr, ht⟩ | ⟨⟨hr, hc⟩ | ⟨m, hr, ht⟩, hn⟩
  · refine .inl ⟨.normal, m, withTail_normal.mp hr, .inl rfl, ?_⟩
    by_cases hc : c = .normal
    · subst hc
      exact .inl ⟨ht, rfl⟩
    · exact .inr ⟨ht, hc⟩
  · exact .inr ⟨hr, hn, hc⟩
  · refine .inl ⟨.continued, m, hr, .inr rfl, ?_⟩
    rcases ht with ⟨m', ht, rfl, rfl⟩ | ⟨ht, hc⟩
    · exact .inl ⟨ht, rfl⟩
    · exact .inr ⟨ht, hc⟩

/-- A test that always holds. -/
def always : σ → Except V Bool → σ → Prop := fun s r s' => r = .ok true ∧ s' = s

/-- An endless loop with a guard at the end of each round and before each `continue` goes round again
where the guard lets it pass. -/
theorem loop_always_guard (leave : Bool) (round : Run σ V) (test : σ → Except V Bool → σ → Prop) :
    loop always (seq (withTail (guard leave test) round) (guard leave test)) skip =
      doLoop (!leave) round test := by
  refine ext fun s c s' => ?_
  constructor
  · intro h
    induction h with
    | done ht => cases ht.1
    | failed ht => cases ht.1
    | again ht hr hc ha _ ih =>
      obtain ⟨_, rfl⟩ := ht
      obtain ⟨_, rfl⟩ := ha
      rcases round_of_seq_withTail hr with ⟨d, m, hround, hd, ⟨hg, _⟩ | ⟨hg, hn⟩⟩ | ⟨_, hn, hn'⟩
      · exact .again hround hd (guard_normal.mp hg) ih
      · rcases guard_completion hg with rfl | rfl | ⟨v, rfl⟩
        · exact absurd rfl hn
        · rcases hc with hc | hc <;> cases hc
        · rcases hc with hc | hc <;> cases hc
      · rcases hc with rfl | rfl
        · exact absurd rfl hn
        · exact absurd rfl hn'
    | stuck _ _ _ ha hd => exact absurd ha.1 hd
    | broken ht hr =>
      obtain ⟨_, rfl⟩ := ht
      rcases round_of_seq_withTail hr with ⟨d, m, hround, hd, ⟨_, rfl⟩ | ⟨hg, _⟩⟩ | ⟨hround, _, _⟩
      · rcases hd with hd | hd <;> cases hd
      · refine .done hround hd ?_
        rw [Bool.not_not]
        exact guard_broken.mp hg
      · exact .broken hround
    | left ht hr hn hc hb =>
      obtain ⟨_, rfl⟩ := ht
      rcases round_of_seq_withTail hr with ⟨d, m, hround, hd, ⟨_, rfl⟩ | ⟨hg, _⟩⟩ | ⟨hround, _, _⟩
      · rcases hd with rfl | rfl
        · exact absurd rfl hn
        · exact absurd rfl hc
      · rcases guard_completion hg with rfl | rfl | ⟨v, rfl⟩
        · exact absurd rfl hn
        · exact absurd rfl hb
        · exact .failed hround hd (guard_thrown.mp hg)
      · exact .left hround hn hc hb
  · intro h
    induction h with
    | again hr hc ht _ ih =>
      obtain ⟨c', hc', hround⟩ := seq_withTail_of_tail hr hc (guard_normal.mpr ht)
      exact .again ⟨rfl, rfl⟩ hround hc' ⟨rfl, rfl⟩ ih
    | done hr hc ht =>
      rw [Bool.not_not] at ht
      exact .broken ⟨rfl, rfl⟩ (seq_withTail_of_failed hr hc (guard_broken.mpr ht) (by simp))
    | failed hr hc ht =>
      exact .left ⟨rfl, rfl⟩ (seq_withTail_of_failed hr hc (guard_thrown.mpr ht) (by simp)) (by simp)
        (by simp) (by simp)
    | broken hr => exact .broken ⟨rfl, rfl⟩ (seq_withTail_of_early hr (by simp) (by simp))
    | left hr hn hc hb => exact .left ⟨rfl, rfl⟩ (seq_withTail_of_early hr hn hc) hn hc hb

theorem withTail_skip (r : Run σ V) : withTail skip r = r := by
  refine ext fun s c s' => ?_
  rw [withTail, skip_seq]
  constructor
  · rintro (⟨hr, _⟩ | ⟨m, hr, rfl, rfl⟩)
    · exact hr
    · exact hr
  · intro hr
    by_cases hc : c = .continued
    · subst hc
      exact .inr ⟨s', hr, rfl, rfl⟩
    · exact .inl ⟨hr, hc⟩

end Run

/-! ## Runs of statements with `do` loops -/

namespace Interpretation

variable (m : Interpretation σ V)

mutual
/-- Runs where `do` loops go round while their conditions are `again`; that is `true` for the loops as
they are meant. -/
def runsDo (again : Bool) : Stmt → Run σ V
  | .block b => runsDoList again b
  | .ifElse cond then' otherwise =>
    .bind (m.cond cond) fun holds =>
      if holds then runsDo again then' else runsDoOption again otherwise
  | .whileLoop cond body => .loop (m.cond cond) (runsDo again body) .skip
  | .doWhile body cond => .doLoop again (runsDo again body) (m.cond cond)
  | .forLoop init cond update body =>
    .seq (m.init init) (.loop (m.loopTest cond) (runsDo again body) (m.effects update))
  | .forEach ty name iterable body =>
    .bind (m.eval iterable) fun v => .loop (m.elementTest ty name v) (runsDo again body) .skip
  | s => m.runs s

def runsDoOption (again : Bool) : Option Stmt → Run σ V
  | none => .skip
  | some s => runsDo again s

def runsDoList (again : Bool) : List Stmt → Run σ V
  | [] => .skip
  | s :: ss => .seq (runsDo again s) (runsDoList again ss)
end

attribute [simp] runsDo runsDoOption runsDoList

end Interpretation

end CeylonFromJava.Java
