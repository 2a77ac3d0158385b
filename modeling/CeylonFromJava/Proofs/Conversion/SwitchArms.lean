import CeylonFromJava.Ceylon.Source
import CeylonFromJava.Proofs.Conversion.StmtContext
import CeylonFromJava.Proofs.Java.SwitchRuns

/-! A `switch` without fall-through as a chain of cases.

The groups become the arms of a chain of which one at most is run. The default group is the last arm
wherever it stands, and a value it shares with a `case` label comes to it because no other arm has that
value. -/
namespace CeylonFromJava.Ceylon
set_option autoImplicit false

/-- What statements do, and the values of labels. -/
structure Meaning (σ V : Type) where
  run : Stmt → Java.Run σ V
  value : Expr → V

namespace Meaning

variable {σ V : Type} [DecidableEq V] (m : Meaning σ V)

/-- The arm that is run: the first case with the value, or the last arm if there is none. -/
def chosen (cases : List Case) (otherwise : Option (List Stmt)) (v : V) : List Stmt :=
  match cases.find? fun c => m.value c.label = v with
  | some c => c.body
  | none => otherwise.getD []

def chainRuns (cases : List Case) (otherwise : Option (List Stmt)) (v : V) : Java.Run σ V :=
  .all m.run (m.chosen cases otherwise v)

theorem chosen_eq (cases : List Case) (otherwise : Option (List Stmt)) (v : V) :
    m.chosen cases otherwise v =
      (((cases.find? fun c => m.value c.label = v).map (·.body)).or otherwise).getD [] := by
  unfold chosen
  cases cases.find? fun c => m.value c.label = v with
  | none => rfl
  | some c => rfl

end Meaning

end CeylonFromJava.Ceylon

namespace CeylonFromJava.Conversion
set_option autoImplicit false

variable {env : Env} {scope : Scope}

/-! ## Arms -/

theorem exists_label {g : Java.SwitchGroup} (hg : g.isDefault = false) (h : g.labels.length = 1) :
    ∃ e, g.labels = [.case e] := by
  obtain ⟨labels, b⟩ := g
  obtain ⟨label, rfl⟩ := List.length_eq_one_iff.mp h
  cases label with
  | «case» e => exact ⟨e, rfl⟩
  | default => cases hg

theorem cases_cons_default {g : Java.SwitchGroup} (hg : g.isDefault = true)
    (groups : List Java.SwitchGroup) : cases env (g :: groups) scope = cases env groups scope := by
  rw [cases_eq_filterMap, cases_eq_filterMap, List.filter_cons_of_neg (by simp [hg])]

theorem cases_cons_case {g : Java.SwitchGroup} {e : Java.Expr} (hg : g.labels = [.case e])
    (groups : List Java.SwitchGroup) :
    cases env (g :: groups) scope =
      ⟨expr env e scope, caseBody env g.body scope⟩ :: cases env groups scope := by
  obtain ⟨labels, b⟩ := g
  subst hg
  rfl

theorem cases_append (groups groups' : List Java.SwitchGroup) :
    cases env (groups ++ groups') scope = cases env groups scope ++ cases env groups' scope := by
  simp only [cases_eq_filterMap, List.filter_append, List.filterMap_append]

/-- Every group but the default has its case. -/
theorem map_some_cases {groups : List Java.SwitchGroup}
    (h : ∀ g ∈ groups, g.isDefault = false → g.labels.length = 1) :
    (cases env groups scope).map some = (groups.filter (!·.isDefault)).map (arm env scope) := by
  induction groups with
  | nil => rfl
  | cons g groups ih =>
    have hrest := ih fun g' hg' => h g' (List.mem_cons_of_mem _ hg')
    cases hg : g.isDefault with
    | true => rw [cases_cons_default hg, List.filter_cons_of_neg (by simp [hg]), hrest]
    | false =>
      obtain ⟨e, he⟩ := exists_label hg (h g (List.mem_cons_self ..) hg)
      have harm : arm env scope g = some ⟨expr env e scope, caseBody env g.body scope⟩ := by
        rw [arm, Java.SwitchGroup.firstCase, he]
        rfl
      rw [cases_cons_case he, List.filter_cons_of_pos (by simp [hg]), List.map_cons, List.map_cons,
        harm, hrest]

/-! ## The default group in another place -/

theorem switch_move_default {before rest before' rest' : List Java.SwitchGroup}
    {d : Java.SwitchGroup} (hd : d.isDefault = true)
    (hone : (before ++ d :: rest).countP (·.isDefault) ≤ 1) (h : before ++ rest = before' ++ rest')
    (selector : Java.Expr) :
    stmt env (.switch selector (before' ++ d :: rest')) scope =
      stmt env (.switch selector (before ++ d :: rest)) scope := by
  have hcases : ∀ before rest, cases env (before ++ d :: rest) scope =
      cases env (before ++ rest) scope := by
    intro before rest
    rw [cases_append, cases_append, cases_cons_default hd]
  have hdefault : ∀ before rest, (before ++ d :: rest).countP (·.isDefault) ≤ 1 →
      defaultBody env (before ++ d :: rest) scope = some (caseBody env d.body scope) := by
    intro before rest hone
    have hfind := Java.Meaning.find?_isDefault hone hd
    rw [defaultBody_eq, hfind, Option.map_some]
  have hone' : (before' ++ d :: rest').countP (·.isDefault) ≤ 1 := by
    have hcount := congrArg (List.countP (·.isDefault)) h
    simp only [List.countP_append, List.countP_cons, hd, if_true] at hone hcount ⊢
    omega
  rw [stmt, stmt, hcases before' rest', hcases before rest, hdefault before' rest' hone',
    hdefault before rest hone, h]

/-! ## The same runs -/

section

variable {σ V : Type} {m : Java.Meaning σ V} {m' : Ceylon.Meaning σ V}

theorem caseBody_append (b b' : List Java.Stmt) :
    caseBody env (b ++ b') scope = caseBody env b scope ++ caseBody env b' scope := by
  induction b with
  | nil => rfl
  | cons s b ih => rw [List.cons_append, caseBody_cons, caseBody_cons, ih, List.append_assoc]

theorem endsCase_of_leaves {s : Java.Stmt} (h : s.leaves = false) : endsCase s = false := by
  cases s with
  | breakTo label =>
    cases label with
    | none => cases h
    | some _ => rfl
  | _ => rfl

theorem all_caseBody {b : List Java.Stmt} (hb : Java.Stmt.leavesList b = false)
    (h : ∀ s ∈ b, endsCase s = false → Java.Run.all m'.run (stmt env s scope) = m.run s) :
    Java.Run.all m'.run (caseBody env b scope) = Java.Run.all m.run b := by
  induction b with
  | nil => rfl
  | cons s b ih =>
    simp only [Java.Stmt.leavesList, Bool.or_eq_false_iff] at hb
    have hs := endsCase_of_leaves hb.1
    have hrest := ih hb.2 fun t ht => h t (List.mem_cons_of_mem _ ht)
    rw [caseBody_cons, hs, if_neg Bool.false_ne_true, Java.Run.all_append, hrest,
      h s (List.mem_cons_self ..) hs, Java.Run.all]

/-- An arm runs what its group runs, whatever groups follow. -/
theorem breakable_all_caseBody {b : List Java.Stmt} (hb : m.Closed b)
    (h : ∀ s ∈ b, endsCase s = false → Java.Run.all m'.run (stmt env s scope) = m.run s)
    (rest : List Java.Stmt) :
    (Java.Run.all m.run (b ++ rest)).breakable = Java.Run.all m'.run (caseBody env b scope) := by
  obtain ⟨front, hfront, hshape, hruns⟩ := hb.exists_front
  have hmem : ∀ s ∈ front, s ∈ b := by
    rcases hshape with rfl | rfl
    · exact fun s hs => hs
    · exact fun s hs => List.mem_append_left _ hs
  have hbody : caseBody env b scope = caseBody env front scope := by
    rcases hshape with rfl | rfl
    · rfl
    · rw [caseBody_append]
      exact List.append_nil _
  rw [hruns, hbody, all_caseBody hfront fun s hs => h s (hmem s hs)]

variable [DecidableEq V]

theorem hits_of_label {g : Java.SwitchGroup} {e : Java.Expr} (hg : g.labels = [.case e])
    (h : m'.value (expr env e scope) = m.value e) (v : V) :
    m.hits v g = decide (m'.value (expr env e scope) = v) := by
  rw [Java.Meaning.hits, Java.SwitchGroup.caseLabels, hg, h]
  simp

theorem find?_cases {groups : List Java.SwitchGroup}
    (hsingle : ∀ g ∈ groups, g.isDefault = false → g.labels.length = 1)
    (hvalues : ∀ g ∈ groups, ∀ e ∈ g.caseLabels, m'.value (expr env e scope) = m.value e) (v : V) :
    ((cases env groups scope).find? fun c => m'.value c.label = v).map (·.body) =
      (groups.find? fun g => !g.isDefault && m.hits v g).map fun g => caseBody env g.body scope := by
  induction groups with
  | nil => rfl
  | cons g groups ih =>
    have hrest := ih (fun g' hg' => hsingle g' (List.mem_cons_of_mem _ hg'))
      fun g' hg' => hvalues g' (List.mem_cons_of_mem _ hg')
    cases hg : g.isDefault with
    | true => rw [cases_cons_default hg, List.find?_cons_of_neg (by simp [hg]), hrest]
    | false =>
      obtain ⟨e, he⟩ := exists_label hg (hsingle g (List.mem_cons_self ..) hg)
      have hvalue : m'.value (expr env e scope) = m.value e :=
        hvalues g (List.mem_cons_self ..) e (by simp [Java.SwitchGroup.caseLabels, he])
      have hhits := hits_of_label he hvalue v
      rw [cases_cons_case he]
      by_cases hv : m'.value (expr env e scope) = v
      · rw [List.find?_cons_of_pos (by simp [hv]), List.find?_cons_of_pos (by simp [hg, hhits, hv])]
        rfl
      · rw [List.find?_cons_of_neg (by simp [hv]), List.find?_cons_of_neg (by simp [hg, hhits, hv]),
          hrest]

theorem chainRuns_eq_switchRuns {groups : List Java.SwitchGroup}
    (hone : groups.countP (·.isDefault) ≤ 1)
    (hlabels : ((groups.flatMap (·.caseLabels)).map m.value).Nodup)
    (hsingle : ∀ g ∈ groups, g.isDefault = false → g.labels.length = 1)
    (hclosed : ∀ g ∈ groups, m.Closed g.body)
    (hstmts : ∀ g ∈ groups, ∀ s ∈ g.body, endsCase s = false →
      Java.Run.all m'.run (stmt env s scope) = m.run s)
    (hvalues : ∀ g ∈ groups, ∀ e ∈ g.caseLabels, m'.value (expr env e scope) = m.value e) (v : V) :
    m'.chainRuns (cases env groups scope) (defaultBody env groups scope) v =
      m.switchRuns groups v := by
  have hchosen : m'.chosen (cases env groups scope) (defaultBody env groups scope) v =
      ((m.groupFor v groups).map fun g => caseBody env g.body scope).getD [] := by
    rw [Ceylon.Meaning.chosen_eq, find?_cases hsingle hvalues, defaultBody_eq,
      Java.Meaning.groupFor_eq hone hlabels, Option.map_or]
  rw [Ceylon.Meaning.chainRuns, hchosen, Java.Meaning.switchRuns]
  cases hgroup : m.groupFor v groups with
  | none =>
    rw [Java.Meaning.entered_of_groupFor_none m hgroup]
    exact Java.Run.breakable_skip.symm
  | some g =>
    obtain ⟨rest, hrest⟩ := Java.Meaning.entered_of_groupFor m hgroup
    have hg : g ∈ groups := Java.Meaning.mem_of_groupFor hgroup
    rw [hrest, List.flatMap_cons, breakable_all_caseBody (hclosed g hg) (hstmts g hg)]
    rfl

/-- A `switch` in which no group falls through is written as one case for each group but the default,
in their order, and then one last arm. The chain of arms runs what the `switch` runs, for every value,
and is the same wherever the default group stands. -/
theorem switch_without_fall_through (env : Env) (scope : Scope) (selector : Java.Expr)
    {groups : List Java.SwitchGroup} (m : Java.Meaning σ V) (m' : Ceylon.Meaning σ V)
    (hone : groups.countP (·.isDefault) ≤ 1)
    (hlabels : ((groups.flatMap (·.caseLabels)).map m.value).Nodup)
    (hsingle : ∀ g ∈ groups, g.isDefault = false → g.labels.length = 1)
    (hclosed : ∀ g ∈ groups, m.Closed g.body)
    (hstmts : ∀ g ∈ groups, ∀ s ∈ g.body, endsCase s = false →
      Java.Run.all m'.run (stmt env s scope) = m.run s)
    (hvalues : ∀ g ∈ groups, ∀ e ∈ g.caseLabels, m'.value (expr env e scope) = m.value e) :
    ∃ arms otherwise,
      stmt env (.switch selector groups) scope =
        [.switch (expr env selector scope) arms otherwise] ∧
      (∀ v, m'.chainRuns arms otherwise v = m.switchRuns groups v) ∧
      arms.map some = (groups.filter (!·.isDefault)).map (arm env scope) ∧
      otherwise = (groups.find? (·.isDefault)).map (fun g => caseBody env g.body scope) ∧
      (∀ k, Ceylon.Stmt.piecesList (stmt env (.switch selector groups) scope) k =
        .text "switch (" :: (expr env selector scope).pieces k ++ [.text ")", .newline] ++
          Ceylon.Case.piecesList arms (k + (expr env selector scope).temps) ++
          Ceylon.Stmt.elsePieces otherwise
            (k + (expr env selector scope).temps + Ceylon.Case.tempsList arms) ++ [.newline]) ∧
      ∀ before d rest before' rest', groups = before ++ d :: rest → d.isDefault = true →
        before ++ rest = before' ++ rest' →
          stmt env (.switch selector (before' ++ d :: rest')) scope =
            stmt env (.switch selector groups) scope := by
  refine ⟨cases env groups scope, defaultBody env groups scope, rfl, ?_, map_some_cases hsingle,
    defaultBody_eq groups, fun _ => List.append_nil _, ?_⟩
  · exact chainRuns_eq_switchRuns hone hlabels hsingle hclosed hstmts hvalues
  · rintro before d rest before' rest' rfl hd h
    exact switch_move_default hd hone h selector

end

/-- Calls leave their names in the store. -/
def tracing : Java.Meaning (List String) String where
  run
    | .breakTo none => .stop .broken
    | .returnValue none => .stop (.returned none)
    | .expr (.call none _ name _) => fun s c s' => c = .normal ∧ s' = s ++ [name]
    | _ => .skip
  value
    | .literal (.number text) => text
    | _ => ""
  run_break := rfl
  keeps := by
    intro s hs a b h
    split at h
    · cases hs
    · cases h.1
    · cases h.1
    · cases h.1

def tracingForms : Ceylon.Meaning (List String) String where
  run
    | .returnValue none => .stop (.returned none)
    | .expr (.call none name _ _) => fun s c s' => c = .normal ∧ s' = s ++ [name]
    | _ => .skip
  value
    | .literal (.number text) => text
    | _ => ""

/-- `case 1: default: a(); break; case 2: b(); return; case 3: c(); break;`: the first group comes
last, and is run for 1 and for all that is neither 2 nor 3. -/
theorem switch_without_fall_through_default_first :
    let call (name : String) : Java.Stmt := .expr (.call none [] name [])
    let label (text : String) : Java.SwitchLabel := .case (.literal (.number text))
    let first : Java.SwitchGroup := ⟨[label "1", .default], [call "a", .breakTo none]⟩
    let second : Java.SwitchGroup := ⟨[label "2"], [call "b", .returnValue none]⟩
    let third : Java.SwitchGroup := ⟨[label "3"], [call "c", .breakTo none]⟩
    let env := Env.upTo .default (fun _ _ => []) 0
    let written (groups : List Java.SwitchGroup) := stmt env (.switch (.name "n") groups) []
    Output.Piece.render (Ceylon.Stmt.piecesList (written [first, second, third]) 0) =
      "switch (n)\ncase (2) \x7b\n    b();\n    return;\n\x7d\ncase (3) \x7b\n    c();\n\x7d\n" ++
      "else \x7b\n    a();\n\x7d\n" ∧
    written [second, first, third] = written [first, second, third] ∧
    ∃ arms otherwise, written [first, second, third] = [.switch (.name "n") arms otherwise] ∧
      ∀ v, tracingForms.chainRuns arms otherwise v =
        tracing.switchRuns [first, second, third] v := by
  intro call label first second third env written
  have hclosed : ∀ g ∈ [first, second, third], tracing.Closed g.body := by
    have hbreak (name : String) : tracing.Closed ([call name] ++ [.breakTo none]) := .last rfl
    have hreturn : tracing.Closed second.body := by
      refine .abrupt rfl ?_
      rintro s s' (⟨_, _, ⟨_, ⟨hc, _⟩, _⟩ | ⟨_, hn⟩⟩ | ⟨_, hn⟩)
      · cases hc
      · exact hn rfl
      · exact hn rfl
    simp only [List.forall_mem_cons, List.not_mem_nil, false_imp_iff, implies_true, and_true]
    exact ⟨hbreak "a", hreturn, hbreak "c"⟩
  have hstmts : ∀ g ∈ [first, second, third], ∀ s ∈ g.body, endsCase s = false →
      Java.Run.all tracingForms.run (stmt env s []) = tracing.run s := by
    have hcall (name : String) (h : stmt env (call name) [] = [.expr (.call none name [] [])]) :
        Java.Run.all tracingForms.run (stmt env (call name) []) = tracing.run (call name) := by
      rw [h]
      exact Java.Run.seq_skip _
    have hreturn : Java.Run.all tracingForms.run (stmt env (.returnValue none) []) =
        tracing.run (.returnValue none) := Java.Run.seq_skip _
    have hbreak : ¬ endsCase (.breakTo none) = false := by decide
    simp only [first, second, third, List.forall_mem_cons, List.not_mem_nil, false_imp_iff,
      implies_true, and_true]
    exact ⟨⟨fun _ => hcall "a" rfl, fun h => absurd h hbreak⟩, ⟨fun _ => hcall "b" rfl,
      fun _ => hreturn⟩, fun _ => hcall "c" rfl, fun h => absurd h hbreak⟩
  obtain ⟨arms, otherwise, htree, hruns, -, -, -, hmove⟩ :=
    switch_without_fall_through env [] (.name "n") tracing tracingForms (by decide) (by decide)
      (by decide) hclosed hstmts (by decide)
  exact ⟨by decide, hmove [] first [second, third] [second] [third] rfl rfl rfl, arms, otherwise,
    htree, hruns⟩

end CeylonFromJava.Conversion
