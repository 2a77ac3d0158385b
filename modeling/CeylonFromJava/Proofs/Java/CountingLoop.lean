import CeylonFromJava.Proofs.Java.Executions

/-! Counting loops as `while` loops.

`whileForm init cond update body` are the statements that a counting loop comes down to: the initial
part, then a `while` loop whose body ends with the updates and has them in front of each `continue`
that belongs to it. They have the runs of the loop, `runsList_whileForm`. -/
namespace CeylonFromJava.Java
set_option autoImplicit false

/-! ## The statements -/

/-- The statements of a branch or a loop. -/
def Stmt.parts : Stmt → List Stmt
  | .block b => b
  | s => [s]

/-- Statements where one may stand. -/
def Stmt.single : List Stmt → Stmt
  | [s] => s
  | ss => .block ss

mutual
/-- The statement with `tail` in front of each `continue` of the loop around it; the `continue`s of
loops inside it are not its own. -/
def Stmt.withTail (tail : List Stmt) : Stmt → List Stmt
  | .continueTo none => tail ++ [.continueTo none]
  | .block b => [.block (Stmt.withTailList tail b)]
  | .ifElse cond then' otherwise =>
    [.ifElse cond (Stmt.single (then'.withTail tail)) (Stmt.withTailOption tail otherwise)]
  | s => [s]

def Stmt.withTailOption (tail : List Stmt) : Option Stmt → Option Stmt
  | none => none
  | some s => some (Stmt.single (s.withTail tail))

def Stmt.withTailList (tail : List Stmt) : List Stmt → List Stmt
  | [] => []
  | s :: ss => s.withTail tail ++ Stmt.withTailList tail ss
end

/-- What a counting loop runs first, as statements. -/
def ForInit.statements : Option ForInit → List Stmt
  | none => []
  | some (.declare decl) => [.localVar decl]
  | some (.exprs es) => es.map .expr

def Stmt.whileForm (init : Option ForInit) (cond : Option Expr) (update : List Expr) (body : Stmt) :
    List Stmt :=
  ForInit.statements init ++
    [.whileLoop (cond.getD (.literal (.bool true)))
      (.block (Stmt.withTailList (update.map .expr) body.parts ++ update.map .expr))]

/-! ## A tail in front of `continue` -/

variable {σ V : Type}

namespace Run

/-- The runs of `r`, with those of `tail` where it continues. -/
def withTail (tail r : Run σ V) : Run σ V := fun s c s' =>
  (r s c s' ∧ c ≠ .continued) ∨ (∃ m, r s .continued m ∧ seq tail (stop .continued) m c s')

theorem not_normal_seq_stop {tail : Run σ V} {s s' : σ} :
    ¬ seq tail (stop .continued) s .normal s' := by
  rintro (⟨_, _, hc, _⟩ | ⟨_, hn⟩)
  · cases hc
  · exact hn rfl

theorem withTail_normal {tail r : Run σ V} {s s' : σ} :
    withTail tail r s .normal s' ↔ r s .normal s' := by
  constructor
  · rintro (⟨hr, _⟩ | ⟨m, _, hm⟩)
    · exact hr
    · exact absurd hm not_normal_seq_stop
  · exact fun hr => .inl ⟨hr, by simp⟩

theorem withTail_seq (tail r q : Run σ V) :
    withTail tail (seq r q) = seq (withTail tail r) (withTail tail q) := by
  refine ext fun s c s' => ?_
  constructor
  · rintro (⟨⟨m, hr, hq⟩ | ⟨hr, hn⟩, hc⟩ | ⟨m, ⟨m', hr, hq⟩ | ⟨hr, hn⟩, hm⟩)
    · exact .inl ⟨m, withTail_normal.mpr hr, .inl ⟨hq, hc⟩⟩
    · exact .inr ⟨.inl ⟨hr, hc⟩, hn⟩
    · exact .inl ⟨m', withTail_normal.mpr hr, .inr ⟨m, hq, hm⟩⟩
    · refine .inr ⟨.inr ⟨m, hr, hm⟩, ?_⟩
      rintro rfl
      exact not_normal_seq_stop hm
  · rintro (⟨m, hr, ⟨hq, hc⟩ | ⟨m', hq, hm⟩⟩ | ⟨⟨hr, hc⟩ | ⟨m, hr, hm⟩, hn⟩)
    · exact .inl ⟨.inl ⟨m, withTail_normal.mp hr, hq⟩, hc⟩
    · exact .inr ⟨m', .inl ⟨m, withTail_normal.mp hr, hq⟩, hm⟩
    · exact .inl ⟨.inr ⟨hr, hn⟩, hc⟩
    · exact .inr ⟨m, .inr ⟨hr, by simp⟩, hm⟩

theorem withTail_bind {α : Type} (tail : Run σ V) (e : σ → Except V α → σ → Prop)
    (use : α → Run σ V) :
    withTail tail (bind e use) = bind e fun a => withTail tail (use a) := by
  refine ext fun s c s' => ?_
  constructor
  · rintro (⟨⟨a, m, he, hu⟩ | ⟨v, he, rfl⟩, hc⟩ | ⟨m, ⟨a, m', he, hu⟩ | ⟨v, _, hv⟩, hm⟩)
    · exact .inl ⟨a, m, he, .inl ⟨hu, hc⟩⟩
    · exact .inr ⟨v, he, rfl⟩
    · exact .inl ⟨a, m', he, .inr ⟨m, hu, hm⟩⟩
    · cases hv
  · rintro (⟨a, m, he, ⟨hu, hc⟩ | ⟨m', hu, hm⟩⟩ | ⟨v, he, rfl⟩)
    · exact .inl ⟨.inl ⟨a, m, he, hu⟩, hc⟩
    · exact .inr ⟨m', .inl ⟨a, m, he, hu⟩, hm⟩
    · exact .inl ⟨.inr ⟨v, he, rfl⟩, by simp⟩

/-- Runs that do not continue the loop around. -/
def Stays (r : Run σ V) : Prop := ∀ s s', ¬ r s .continued s'

theorem withTail_eq_self {tail r : Run σ V} (h : Stays r) : withTail tail r = r := by
  refine ext fun s c s' => ?_
  constructor
  · rintro (⟨hr, _⟩ | ⟨m, hr, _⟩)
    · exact hr
    · exact absurd hr (h s m)
  · refine fun hr => .inl ⟨hr, ?_⟩
    rintro rfl
    exact h s s' hr

theorem withTail_stop_continued (tail : Run σ V) :
    withTail tail (stop .continued) = seq tail (stop .continued) := by
  refine ext fun s c s' => ?_
  constructor
  · rintro (⟨⟨hc, _⟩, hn⟩ | ⟨m, ⟨_, rfl⟩, hm⟩)
    · exact absurd hc hn
    · exact hm
  · exact fun h => .inr ⟨s, ⟨rfl, rfl⟩, h⟩

/-- Runs that end normally or throw. -/
def Simple (r : Run σ V) : Prop := ∀ s c s', r s c s' → c = .normal ∨ ∃ v, c = .thrown v

theorem simple_skip : Simple (skip : Run σ V) := fun _ _ _ h => .inl h.1

theorem Simple.seq {r q : Run σ V} (hr : Simple r) (hq : Simple q) : Simple (seq r q) := by
  rintro s c s' (⟨m, _, h⟩ | ⟨h, _⟩)
  · exact hq m c s' h
  · exact hr s c s' h

theorem Simple.bind {α : Type} {e : σ → Except V α → σ → Prop} {use : α → Run σ V}
    (h : ∀ a, Simple (use a)) : Simple (bind e use) := by
  rintro s c s' (⟨a, m, _, hu⟩ | ⟨v, _, rfl⟩)
  · exact h a m c s' hu
  · exact .inr ⟨v, rfl⟩

theorem Simple.stays {r : Run σ V} (h : Simple r) : Stays r := by
  intro s s' hr
  rcases h s .continued s' hr with hc | ⟨v, hc⟩ <;> cases hc

theorem stays_stop {c : Completion V} (h : c ≠ .continued) : Stays (stop c : Run σ V) :=
  fun _ _ hc => h hc.1.symm

theorem Stays.seq {r q : Run σ V} (hr : Stays r) (hq : Stays q) : Stays (seq r q) := by
  rintro s s' (⟨m, _, h⟩ | ⟨h, _⟩)
  · exact hq m s' h
  · exact hr s s' h

theorem Stays.bind {α : Type} {e : σ → Except V α → σ → Prop} {use : α → Run σ V}
    (h : ∀ a, Stays (use a)) : Stays (bind e use) := by
  rintro s s' (⟨a, m, _, hu⟩ | ⟨v, _, hc⟩)
  · exact h a m s' hu
  · cases hc

theorem stays_loop {test : σ → Except V Bool → σ → Prop} {round after : Run σ V}
    (h : Simple after) : Stays (loop test round after) := by
  intro s s' hl
  generalize hc : Completion.continued = c at hl
  induction hl with
  | done _ | failed _ | broken _ _ => cases hc
  | again _ _ _ _ _ ih => exact ih hc
  | stuck _ _ _ ha _ =>
    subst hc
    exact h.stays _ _ ha
  | left _ _ _ hn _ => exact hn hc.symm

end Run

namespace Interpretation

variable (m : Interpretation σ V)

theorem simple_effect (e : Expr) : (m.effect e).Simple := Run.Simple.bind fun _ => Run.simple_skip

theorem simple_effects (es : List Expr) : (m.effects es).Simple := by
  induction es with
  | nil => exact Run.simple_skip
  | cons e es ih => exact (m.simple_effect e).seq ih

theorem simple_declare (ty : TypeRef) (ds : List Declarator) : (m.declare ty ds).Simple := by
  induction ds with
  | nil => exact Run.simple_skip
  | cons d ds ih =>
    obtain ⟨name, _ | init⟩ := d
    · exact ih
    · exact (Run.Simple.bind fun _ _ _ _ h => .inl h.1).seq ih

theorem simple_init (init : Option ForInit) : (m.init init).Simple := by
  match init with
  | none => exact Run.simple_skip
  | some (.declare decl) => exact m.simple_declare decl.ty decl.declarators
  | some (.exprs es) => exact m.simple_effects es

/-! ## Statements with a tail -/

theorem runsList_append (ss ss' : List Stmt) :
    m.runsList (ss ++ ss') = .seq (m.runsList ss) (m.runsList ss') := by
  induction ss with
  | nil => exact (Run.skip_seq _).symm
  | cons s ss ih => rw [List.cons_append, runsList, runsList, ih, Run.seq_assoc]

theorem runsList_singleton (s : Stmt) : m.runsList [s] = m.runs s := Run.seq_skip _

theorem runsList_map_expr (es : List Expr) : m.runsList (es.map .expr) = m.effects es := by
  induction es with
  | nil => rfl
  | cons e es ih => rw [List.map_cons, runsList, effects, ih, runs]

theorem runs_single (ss : List Stmt) : m.runs (.single ss) = m.runsList ss := by
  match ss with
  | [] | _ :: _ :: _ => rw [Stmt.single, runs]; simp
  | [s] => exact (m.runsList_singleton s).symm

theorem runsList_parts (s : Stmt) : m.runsList s.parts = m.runs s := by
  cases s with
  | block b => rw [Stmt.parts, runs]
  | _ => exact m.runsList_singleton _

theorem runsList_withTail_self {tail : List Stmt} {s : Stmt} (hs : s.withTail tail = [s])
    (h : (m.runs s).Stays) :
    m.runsList (s.withTail tail) = .withTail (m.runsList tail) (m.runs s) := by
  rw [hs, runsList_singleton, Run.withTail_eq_self h]

mutual
theorem runsList_withTail (tail : List Stmt) :
    (s : Stmt) → m.runsList (s.withTail tail) = .withTail (m.runsList tail) (m.runs s)
  | .continueTo none => by
    rw [Stmt.withTail, runsList_append, runsList_singleton, runs, Run.withTail_stop_continued]
  | .block b => by
    rw [Stmt.withTail, runsList_singleton, runs, runs, runsList_withTailList tail b]
  | .ifElse cond then' otherwise => by
    have hthen : m.runs (.single (then'.withTail tail)) = .withTail (m.runsList tail) (m.runs then') := by
      rw [runs_single, runsList_withTail tail then']
    have hother := runsOption_withTail tail otherwise
    rw [Stmt.withTail, runsList_singleton, runs, runs, Run.withTail_bind]
    congr 1
    funext holds
    cases holds
    · exact hother
    · exact hthen
  | .localVar decl =>
    m.runsList_withTail_self rfl (m.simple_declare decl.ty decl.declarators).stays
  | .expr e => m.runsList_withTail_self rfl (m.simple_effect e).stays
  | .whileLoop _ _ => m.runsList_withTail_self rfl (Run.stays_loop Run.simple_skip)
  | .forLoop init _ update _ =>
    m.runsList_withTail_self rfl
      ((m.simple_init init).stays.seq (Run.stays_loop (m.simple_effects update)))
  | .forEach _ _ _ _ =>
    m.runsList_withTail_self rfl (Run.Stays.bind fun _ => Run.stays_loop Run.simple_skip)
  | .breakTo none => m.runsList_withTail_self rfl (Run.stays_stop (by simp))
  | .constructorCall _ _ =>
    m.runsList_withTail_self rfl (Run.Simple.bind fun _ => Run.simple_skip).stays
  | .returnValue none => m.runsList_withTail_self rfl (Run.stays_stop (by simp))
  | .returnValue (some _) | .throwValue _ =>
    m.runsList_withTail_self rfl (Run.Stays.bind fun _ => Run.stays_stop (by simp))
  | .empty => m.runsList_withTail_self rfl Run.simple_skip.stays
  | .breakTo (some _) | .continueTo (some _) | .labeled _ _ | .doWhile _ _ | .switch _ _
  | .synchronized _ _ | .tryCatch _ _ _ _ => m.runsList_withTail_self rfl fun _ _ h => h

theorem runsOption_withTail (tail : List Stmt) :
    (o : Option Stmt) → m.runsOption (Stmt.withTailOption tail o) =
      .withTail (m.runsList tail) (m.runsOption o)
  | none => by
    rw [Stmt.withTailOption, runsOption, Run.withTail_eq_self Run.simple_skip.stays]
  | some s => by
    rw [Stmt.withTailOption, runsOption, runsOption, runs_single, runsList_withTail tail s]

theorem runsList_withTailList (tail : List Stmt) :
    (ss : List Stmt) → m.runsList (Stmt.withTailList tail ss) =
      .withTail (m.runsList tail) (m.runsList ss)
  | [] => by
    rw [Stmt.withTailList, runsList, Run.withTail_eq_self Run.simple_skip.stays]
  | s :: ss => by
    rw [Stmt.withTailList, runsList_append, runsList_withTail tail s, runsList_withTailList tail ss,
      ← Run.withTail_seq, runsList]
end

end Interpretation

/-! ## Rounds -/

namespace Run

variable {test : σ → Except V Bool → σ → Prop} {round tail : Run σ V} {s s' : σ} {c : Completion V}

theorem seq_withTail_of_early (h : round s c s') (hn : c ≠ .normal) (hc : c ≠ .continued) :
    seq (withTail tail round) tail s c s' :=
  .inr ⟨.inl ⟨h, hc⟩, hn⟩

/-- A round that is followed by the tail goes on if the tail does. -/
theorem seq_withTail_of_tail {m : σ} (h : round s c m) (hc : c = .normal ∨ c = .continued)
    (ht : tail m .normal s') :
    ∃ c', (c' = .normal ∨ c' = .continued) ∧ seq (withTail tail round) tail s c' s' := by
  rcases hc with rfl | rfl
  · exact ⟨.normal, .inl rfl, .inl ⟨m, withTail_normal.mpr h, ht⟩⟩
  · refine ⟨.continued, .inr rfl, .inr ⟨.inr ⟨m, h, .inl ⟨s', ht, rfl, rfl⟩⟩, by simp⟩⟩

theorem seq_withTail_of_failed {m : σ} {d : Completion V} (h : round s c m)
    (hc : c = .normal ∨ c = .continued) (ht : tail m d s') (hd : d ≠ .normal) :
    seq (withTail tail round) tail s d s' := by
  rcases hc with rfl | rfl
  · exact .inl ⟨m, withTail_normal.mpr h, ht⟩
  · exact .inr ⟨.inr ⟨m, h, .inr ⟨ht, hd⟩⟩, hd⟩

/-- Where the round with the tail in it comes from. -/
theorem of_seq_withTail (htail : Simple tail) (h : seq (withTail tail round) tail s c s') :
    (∃ d m, round s d m ∧ (d = .normal ∨ d = .continued) ∧
      ((tail m .normal s' ∧ (c = .normal ∨ c = .continued)) ∨
        ∃ v, tail m (.thrown v) s' ∧ c = .thrown v)) ∨
      (round s c s' ∧ c ≠ .normal ∧ c ≠ .continued) := by
  rcases h with ⟨m, hr, ht⟩ | ⟨⟨hr, hc⟩ | ⟨m, hr, ht⟩, hn⟩
  · refine .inl ⟨.normal, m, withTail_normal.mp hr, .inl rfl, ?_⟩
    rcases htail m c s' ht with rfl | ⟨v, rfl⟩
    · exact .inl ⟨ht, .inl rfl⟩
    · exact .inr ⟨v, ht, rfl⟩
  · exact .inr ⟨hr, hn, hc⟩
  · refine .inl ⟨.continued, m, hr, .inr rfl, ?_⟩
    rcases ht with ⟨m', ht, rfl, rfl⟩ | ⟨ht, _⟩
    · exact .inl ⟨ht, .inr rfl⟩
    · rcases htail m c s' ht with rfl | ⟨v, rfl⟩
      · exact absurd rfl hn
      · exact .inr ⟨v, ht, rfl⟩

/-- A loop with a tail after each round is a loop with the tail inside its rounds. -/
theorem loop_withTail (htail : Simple tail) :
    loop test round tail = loop test (seq (withTail tail round) tail) skip := by
  refine ext fun s c s' => ?_
  constructor
  · intro h
    induction h with
    | done ht => exact .done ht
    | failed ht => exact .failed ht
    | again ht hr hc ha _ ih =>
      obtain ⟨c', hc', hround⟩ := seq_withTail_of_tail hr hc ha
      exact .again ht hround hc' ⟨rfl, rfl⟩ ih
    | stuck ht hr hc ha hd =>
      have hround := seq_withTail_of_failed hr hc ha hd
      rcases htail _ _ _ ha with rfl | ⟨v, rfl⟩
      · exact absurd rfl hd
      · exact .left ht hround (by simp) (by simp) (by simp)
    | broken ht hr => exact .broken ht (seq_withTail_of_early hr (by simp) (by simp))
    | left ht hr hn hc hb => exact .left ht (seq_withTail_of_early hr hn hc) hn hc hb
  · intro h
    induction h with
    | done ht => exact .done ht
    | failed ht => exact .failed ht
    | again ht hr hc ha _ ih =>
      obtain ⟨_, rfl⟩ := ha
      rcases of_seq_withTail htail hr with ⟨d, m, hround, hd, ⟨htail, _⟩ | ⟨v, _, rfl⟩⟩ | ⟨_, hn, hn'⟩
      · exact .again ht hround hd htail ih
      · rcases hc with hc | hc <;> cases hc
      · rcases hc with rfl | rfl
        · exact absurd rfl hn
        · exact absurd rfl hn'
    | stuck _ _ _ ha hd => exact absurd ha.1 hd
    | broken ht hr =>
      rcases of_seq_withTail htail hr with ⟨d, m, _, _, ⟨_, hc | hc⟩ | ⟨v, _, hc⟩⟩ | ⟨hround, _, _⟩
      · cases hc
      · cases hc
      · cases hc
      · exact .broken ht hround
    | left ht hr hn hc hb =>
      rcases of_seq_withTail htail hr with ⟨d, m, hround, hd, ⟨_, h | h⟩ | ⟨v, ha, rfl⟩⟩ | ⟨hround, _, _⟩
      · exact absurd h hn
      · exact absurd h hc
      · exact .stuck ht hround hd ha (by simp)
      · exact .left ht hround hn hc hb

end Run

/-- The `while` form has the runs of the counting loop. -/
theorem Interpretation.runsList_whileForm (m : Interpretation σ V) (init : Option ForInit)
    (cond : Option Expr) (update : List Expr) (body : Stmt) :
    m.runsList (Stmt.whileForm init cond update body) = m.runs (.forLoop init cond update body) := by
  have hinit : m.runsList (ForInit.statements init) = m.init init := by
    match init with
    | none => rfl
    | some (.declare decl) => exact m.runsList_singleton _
    | some (.exprs es) => exact m.runsList_map_expr es
  have htest : m.cond (cond.getD (.literal (.bool true))) = m.loopTest cond := by
    cases cond with
    | none =>
      funext s r s'
      exact propext (m.cond_true s r s')
    | some cond => rfl
  rw [Stmt.whileForm, runsList_append, runsList_singleton, runs, runs, runs, hinit, htest,
    runsList_append, runsList_withTailList, runsList_map_expr, runsList_parts,
    ← Run.loop_withTail (m.simple_effects update)]

end CeylonFromJava.Java
