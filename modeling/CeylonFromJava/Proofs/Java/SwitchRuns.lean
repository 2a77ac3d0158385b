import CeylonFromJava.Proofs.Java.Executions

/-! Runs of a `switch`.

The statements in the groups are opaque: a meaning gives each of them runs of its own, of which it is
only known that a `break` leaves and that a statement without one does not. A value is looked up among
the labels; from the group that has it, or else from the default group, the statements run on through
the groups that follow until one of them ends early. -/
namespace CeylonFromJava.Java
set_option autoImplicit false

/-! ## Breaks that leave -/

mutual
/-- Whether a `break` in the statement leaves the `switch` or the loop around it. Loops and `switch`es
keep the ones inside them. -/
def Stmt.leaves : Stmt → Bool
  | .breakTo none => true
  | .block b | .synchronized _ b => Stmt.leavesList b
  | .ifElse _ then' otherwise => then'.leaves || Stmt.leavesOption otherwise
  | .labeled _ s => s.leaves
  | .tryCatch _ b catches last =>
    Stmt.leavesList b || CatchClause.leavesList catches || Stmt.leavesBlock last
  | .localVar _ | .expr _ | .whileLoop _ _ | .doWhile _ _ | .forLoop _ _ _ _ | .forEach _ _ _ _
  | .switch _ _ | .breakTo (some _) | .continueTo _ | .constructorCall _ _ | .returnValue _
  | .throwValue _ | .empty => false

def Stmt.leavesOption : Option Stmt → Bool
  | none => false
  | some s => s.leaves

def Stmt.leavesBlock : Option (List Stmt) → Bool
  | none => false
  | some b => Stmt.leavesList b

def Stmt.leavesList : List Stmt → Bool
  | [] => false
  | s :: ss => s.leaves || Stmt.leavesList ss

def CatchClause.leavesList : List CatchClause → Bool
  | [] => false
  | ⟨_, _, b⟩ :: cs => Stmt.leavesList b || CatchClause.leavesList cs
end

/-! ## Runs of lists -/

variable {σ V : Type}

namespace Run

def all {α : Type} (run : α → Run σ V) : List α → Run σ V
  | [] => skip
  | x :: xs => seq (run x) (all run xs)

theorem all_append {α : Type} (run : α → Run σ V) (xs ys : List α) :
    all run (xs ++ ys) = seq (all run xs) (all run ys) := by
  induction xs with
  | nil => exact (skip_seq _).symm
  | cons x xs ih => rw [List.cons_append, all, all, ih, seq_assoc]

/-- Runs that do not break what is around them. -/
def Keeps (r : Run σ V) : Prop := ∀ s s', ¬ r s .broken s'

theorem keeps_all {α : Type} {run : α → Run σ V} {xs : List α} (h : ∀ x ∈ xs, Keeps (run x)) :
    Keeps (all run xs) := by
  induction xs with
  | nil =>
    rintro s s' ⟨hc, _⟩
    cases hc
  | cons x xs ih =>
    rintro s s' (⟨m, _, hxs⟩ | ⟨hx, _⟩)
    · exact ih (fun y hy => h y (List.mem_cons_of_mem _ hy)) m s' hxs
    · exact h x (List.mem_cons_self ..) s s' hx

/-- What is around a `break` ends normally with it. -/
def breakable (r : Run σ V) : Run σ V := fun s c s' =>
  (r s .broken s' ∧ c = .normal) ∨ (r s c s' ∧ c ≠ .broken)

theorem breakable_skip : breakable (skip : Run σ V) = skip := by
  refine ext fun s c s' => ?_
  constructor
  · rintro (⟨⟨hc, _⟩, _⟩ | ⟨h, _⟩)
    · cases hc
    · exact h
  · rintro ⟨rfl, rfl⟩
    exact .inr ⟨⟨rfl, rfl⟩, by simp⟩

/-- Nothing after a `break` is run. -/
theorem breakable_seq_break {r : Run σ V} (h : Keeps r) (rest : Run σ V) :
    breakable (seq r (seq (stop .broken) rest)) = r := by
  refine ext fun s c s' => ?_
  constructor
  · rintro (⟨⟨m, hr, ⟨_, ⟨hc, _⟩, _⟩ | ⟨⟨_, rfl⟩, _⟩⟩ | ⟨hr, _⟩, rfl⟩ |
      ⟨⟨m, hr, ⟨_, ⟨hc, _⟩, _⟩ | ⟨⟨hc, _⟩, _⟩⟩ | ⟨hr, _⟩, hn⟩)
    · cases hc
    · exact hr
    · exact absurd hr (h s s')
    · cases hc
    · exact absurd hc hn
    · exact hr
  · intro hr
    by_cases hc : c = .normal
    · subst hc
      exact .inl ⟨.inl ⟨s', hr, .inr ⟨⟨rfl, rfl⟩, by simp⟩⟩, rfl⟩
    · refine .inr ⟨.inr ⟨hr, hc⟩, ?_⟩
      rintro rfl
      exact h s s' hr

/-- Nothing is run after what never ends normally. -/
theorem breakable_seq_of_not_normal {r : Run σ V} (h : Keeps r) (hn : ∀ s s', ¬ r s .normal s')
    (rest : Run σ V) : breakable (seq r rest) = r := by
  refine ext fun s c s' => ?_
  constructor
  · rintro (⟨⟨m, hr, _⟩ | ⟨hr, _⟩, _⟩ | ⟨⟨m, hr, _⟩ | ⟨hr, _⟩, _⟩)
    · exact absurd hr (hn s m)
    · exact absurd hr (h s s')
    · exact absurd hr (hn s m)
    · exact hr
  · intro hr
    refine .inr ⟨.inr ⟨hr, ?_⟩, ?_⟩
    · rintro rfl
      exact hn s s' hr
    · rintro rfl
      exact h s s' hr

end Run

/-! ## Groups -/

/-- What the statements of a `switch` do, and the values of its labels. -/
structure Meaning (σ V : Type) where
  run : Stmt → Run σ V
  value : Expr → V
  run_break : run (.breakTo none) = .stop .broken
  keeps : ∀ s : Stmt, s.leaves = false → (run s).Keeps

/-- The expressions of the `case` labels. -/
def SwitchGroup.caseLabels (g : SwitchGroup) : List Expr :=
  g.labels.filterMap fun
    | .case e => some e
    | .default => none

namespace Meaning

variable (m : Meaning σ V)

/-- Statements after which the next group is not reached: their only `break` that leaves is the last
one, or they have none and do not end normally. -/
inductive Closed : List Stmt → Prop
  | last {front : List Stmt} : Stmt.leavesList front = false → Closed (front ++ [.breakTo none])
  | abrupt {b : List Stmt} : Stmt.leavesList b = false →
    (∀ s s', ¬ Run.all m.run b s .normal s') → Closed b

variable {m}

theorem leaves_of_leavesList {b : List Stmt} (h : Stmt.leavesList b = false) :
    ∀ s ∈ b, s.leaves = false := by
  induction b with
  | nil => simp
  | cons s ss ih =>
    simp only [Stmt.leavesList, Bool.or_eq_false_iff] at h
    intro t ht
    rcases List.mem_cons.mp ht with rfl | ht
    · exact h.1
    · exact ih h.2 t ht

theorem keeps_of_leavesList {b : List Stmt} (h : Stmt.leavesList b = false) :
    (Run.all m.run b).Keeps :=
  Run.keeps_all fun s hs => m.keeps s (leaves_of_leavesList h s hs)

/-- Whatever follows them, closed statements run up to their `break`. -/
theorem Closed.exists_front {b : List Stmt} (h : m.Closed b) :
    ∃ front, Stmt.leavesList front = false ∧ (b = front ∨ b = front ++ [.breakTo none]) ∧
      ∀ rest, (Run.all m.run (b ++ rest)).breakable = Run.all m.run front := by
  cases h with
  | @last front hfront =>
    refine ⟨front, hfront, .inr rfl, fun rest => ?_⟩
    have hrun : Run.all m.run (front ++ [.breakTo none] ++ rest) =
        .seq (Run.all m.run front) (.seq (.stop .broken) (Run.all m.run rest)) := by
      rw [List.append_assoc, Run.all_append, List.singleton_append, Run.all, m.run_break]
    rw [hrun, Run.breakable_seq_break (keeps_of_leavesList hfront)]
  | abrupt hb hn =>
    refine ⟨b, hb, .inl rfl, fun rest => ?_⟩
    rw [Run.all_append, Run.breakable_seq_of_not_normal (keeps_of_leavesList hb) hn]

/-! ## The switch -/

variable [DecidableEq V] (m)

/-- Whether a `case` label of the group has the value. -/
def hits (v : V) (g : SwitchGroup) : Bool := g.caseLabels.any fun e => m.value e = v

/-- The groups from the one on that a value enters. -/
def entered (v : V) (groups : List SwitchGroup) : List SwitchGroup :=
  if groups.any (m.hits v) then groups.dropWhile (!m.hits v ·)
  else groups.dropWhile (!·.isDefault)

def switchRuns (groups : List SwitchGroup) (v : V) : Run σ V :=
  (Run.all m.run ((m.entered v groups).flatMap (·.body))).breakable

/-- The group that a value enters. -/
def groupFor (v : V) (groups : List SwitchGroup) : Option SwitchGroup :=
  (groups.find? (m.hits v)).or (groups.find? (·.isDefault))

variable {m} in
theorem mem_of_groupFor {v : V} {groups : List SwitchGroup} {g : SwitchGroup}
    (h : m.groupFor v groups = some g) : g ∈ groups := by
  rcases Option.or_eq_some_iff.mp h with h | ⟨_, h⟩
  · exact List.mem_of_find?_eq_some h
  · exact List.mem_of_find?_eq_some h

theorem dropWhile_of_find? {p : SwitchGroup → Bool} {groups : List SwitchGroup} {g : SwitchGroup}
    (h : groups.find? p = some g) : ∃ rest, groups.dropWhile (!p ·) = g :: rest := by
  obtain ⟨hg, before, rest, rfl, hbefore⟩ := List.find?_eq_some_iff_append.mp h
  refine ⟨rest, ?_⟩
  rw [List.dropWhile_append_of_pos hbefore, List.dropWhile_cons_of_neg (by simp [hg])]

theorem entered_of_groupFor {v : V} {groups : List SwitchGroup} {g : SwitchGroup}
    (h : m.groupFor v groups = some g) : ∃ rest, m.entered v groups = g :: rest := by
  unfold entered
  cases hfind : groups.find? (m.hits v) with
  | some g' =>
    have hg : g' = g := by simpa [groupFor, hfind] using h
    have hany : groups.any (m.hits v) = true :=
      List.any_eq_true.mpr ⟨g', List.mem_of_find?_eq_some hfind, List.find?_some hfind⟩
    rw [if_pos hany]
    exact dropWhile_of_find? (hg ▸ hfind)
  | none =>
    have hany : ¬ groups.any (m.hits v) = true := by simpa using hfind
    have hdefault : groups.find? (·.isDefault) = some g := by simpa [groupFor, hfind] using h
    rw [if_neg hany]
    exact dropWhile_of_find? hdefault

theorem entered_of_groupFor_none {v : V} {groups : List SwitchGroup} (h : m.groupFor v groups = none) :
    m.entered v groups = [] := by
  obtain ⟨hhits, hdefault⟩ := Option.or_eq_none_iff.mp h
  have hany : ¬ groups.any (m.hits v) = true := by simpa using hhits
  have hdrop : ∀ g ∈ groups, (!g.isDefault) = true := by simpa using hdefault
  have hnil : (groups ++ []).dropWhile (fun g : SwitchGroup => !g.isDefault) = [] :=
    List.dropWhile_append_of_pos hdrop
  rw [entered, if_neg hany]
  rwa [List.append_nil] at hnil

/-! ## Labels that differ -/

variable {m}

theorem pairwise_hits {groups : List SwitchGroup}
    (h : ((groups.flatMap (·.caseLabels)).map m.value).Nodup) (v : V) :
    groups.Pairwise fun g g' => m.hits v g = true → m.hits v g' = false := by
  rw [List.Nodup, List.pairwise_map, List.pairwise_flatMap] at h
  refine h.2.imp fun {g g'} hne hg => ?_
  obtain ⟨e, he, hv⟩ := List.any_eq_true.mp hg
  rw [hits, List.any_eq_false]
  intro e' he' hv'
  have hsame : m.value e = m.value e' := by rw [of_decide_eq_true hv, of_decide_eq_true hv']
  exact hne e he e' he' hsame

theorem find?_isDefault {before rest : List SwitchGroup} {g : SwitchGroup}
    (hone : (before ++ g :: rest).countP (·.isDefault) ≤ 1) (hg : g.isDefault = true) :
    (before ++ g :: rest).find? (·.isDefault) = some g := by
  have hcount : before.countP (·.isDefault) = 0 := by
    rw [List.countP_append, List.countP_cons_of_pos hg] at hone
    omega
  have hbefore : ∀ g' ∈ before, g'.isDefault = false := by simpa using hcount
  refine List.find?_eq_some_iff_append.mpr ⟨hg, before, rest, rfl, fun g' hg' => ?_⟩
  rw [hbefore g' hg']
  rfl

/-- With one default group and labels that differ, a value that no other group has enters the default
group. -/
theorem groupFor_eq {groups : List SwitchGroup} (hone : groups.countP (·.isDefault) ≤ 1)
    (hlabels : ((groups.flatMap (·.caseLabels)).map m.value).Nodup) (v : V) :
    m.groupFor v groups =
      (groups.find? fun g => !g.isDefault && m.hits v g).or (groups.find? (·.isDefault)) := by
  unfold groupFor
  cases hfind : groups.find? (m.hits v) with
  | none =>
    have hplain : groups.find? (fun g => !g.isDefault && m.hits v g) = none := by
      rw [List.find?_eq_none] at hfind ⊢
      intro g hg
      simp [hfind g hg]
    rw [hplain]
  | some g =>
    obtain ⟨hg, before, rest, rfl, hbefore⟩ := List.find?_eq_some_iff_append.mp hfind
    have hskip : before.find? (fun g => !g.isDefault && m.hits v g) = none := by
      rw [List.find?_eq_none]
      intro g' hg'
      have hmiss : m.hits v g' = false := by simpa using hbefore g' hg'
      simp [hmiss]
    cases hd : g.isDefault with
    | false =>
      have hplain : (before ++ g :: rest).find? (fun g => !g.isDefault && m.hits v g) = some g := by
        rw [List.find?_append, hskip, List.find?_cons_of_pos (by simp [hd, hg])]
        rfl
      rw [hplain]
    | true =>
      -- the group is entered through a label that it shares with the default
      have hrest : rest.find? (fun g => !g.isDefault && m.hits v g) = none := by
        have hpairs := (List.pairwise_append.mp (pairwise_hits hlabels v)).2.1
        rw [List.find?_eq_none]
        intro g' hg'
        simp [(List.pairwise_cons.mp hpairs).1 g' hg' hg]
      have hplain : (before ++ g :: rest).find? (fun g => !g.isDefault && m.hits v g) = none := by
        rw [List.find?_append, hskip, List.find?_cons_of_neg (by simp [hd]), hrest]
        rfl
      rw [hplain, find?_isDefault hone hd, Option.none_or, Option.some_or]

end Meaning

end CeylonFromJava.Java
