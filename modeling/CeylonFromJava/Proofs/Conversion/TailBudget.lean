import CeylonFromJava.Conversion.Unit
import CeylonFromJava.Proofs.Conversion.VariableMarkers
import CeylonFromJava.Proofs.Java.Continues

/-! A unit uses up no more than its depth of tails.

A `continue` repeats the tail of the loop around it, which is no part of the statement. The tail may
hold anonymous classes with loops of their own, and a `continue` in there repeats a tail again. If
each `continue` has a loop of its own body around it, that second tail lies inside the first, so its
depth is smaller. That two budgets give the same tree is the case of a marking that changes nothing. -/
namespace CeylonFromJava
set_option autoImplicit false

/-! ## Depth of parts that may be absent -/

namespace Java

def Stmt.tailDepthOption : Option Stmt → Nat
  | none => 0
  | some s => s.tailDepth

def Stmt.tailDepthBlock : Option (List Stmt) → Nat
  | none => 0
  | some body => Stmt.tailDepthList body

theorem Stmt.tailDepth_ifElse (cond : Expr) (s : Stmt) (otherwise : Option Stmt) :
    (Stmt.ifElse cond s otherwise).tailDepth =
      max cond.tailDepth (max s.tailDepth (Stmt.tailDepthOption otherwise)) := by
  cases otherwise <;> simp [Stmt.tailDepth, Stmt.tailDepthOption]

theorem Stmt.tailDepth_tryCatch (rs : List Resource) (body : List Stmt) (cs : List CatchClause)
    (last : Option (List Stmt)) :
    (Stmt.tryCatch rs body cs last).tailDepth =
      max (max (Resource.tailDepthList rs) (Stmt.tailDepthList body))
        (max (CatchClause.tailDepthList cs) (Stmt.tailDepthBlock last)) := by
  cases last <;> simp [Stmt.tailDepth, Stmt.tailDepthBlock, Nat.max_assoc]

theorem Member.tailDepth_method (ms : List Modifier) (ts : List TypeParam) (result : Option TypeRef)
    (name : String) (ps : List Param) (body : Option (List Stmt)) :
    (Member.method ⟨ms, ts, result, name, ps, body⟩).tailDepth = Stmt.tailDepthBlock body := by
  cases body <;> rfl

end Java

namespace Conversion

/-! ## Trees of bounded depth -/

/-- A depth of `d` at most, where each `continue` has a loop. -/
structure Within (d depth : Nat) (bound : Bool) : Prop where
  depth_le : depth ≤ d
  bound : bound = true

def LoopTail.continuesBound : LoopTail → Bool
  | .native => true
  | .update es => Java.Expr.continuesBoundList es
  | .guard cond => cond.continuesBound

/-- The loop around, if there is one, has a tail of depth `d` at most. -/
def Scope.TailWithin (d : Nat) (scope : Scope) : Prop :=
  ∀ t, scope.loopTail? = some t → Within d t.depth t.continuesBound

/-- The same of statements, which may be in a loop: then its tail counts as well. -/
def InBody (d depth : Nat) (bound : Bool → Bool) (scope : Scope) : Prop :=
  ∃ inLoop, (inLoop = true → scope.TailWithin d) ∧ Within d depth (bound inLoop)

def withinTails (d : Nat) : Property where
  expr e _ := Within d e.tailDepth e.continuesBound
  stmt s := InBody d s.tailDepth s.continuesBound
  otherwise s := InBody d (Java.Stmt.tailDepthOption s) (Java.Stmt.continuesBoundOption s)
  member _ m _ := Within d m.tailDepth m.continuesBound
  typeDecl t _ := Within d t.tailDepth t.continuesBound

section

variable {d : Nat} {scope : Scope}

namespace Within

theorem left {n n' : Nat} {b b' : Bool} (h : Within d (max n n') (b && b')) : Within d n b :=
  ⟨(Nat.max_le.mp h.depth_le).1, (Bool.and_eq_true_iff.mp h.bound).1⟩

theorem right {n n' : Nat} {b b' : Bool} (h : Within d (max n n') (b && b')) : Within d n' b' :=
  ⟨(Nat.max_le.mp h.depth_le).2, (Bool.and_eq_true_iff.mp h.bound).2⟩

theorem exprs {es : List Java.Expr}
    (h : Within d (Java.Expr.tailDepthList es) (Java.Expr.continuesBoundList es)) :
    (withinTails d).exprs es scope := by
  induction es with
  | nil => exact List.forall_mem_nil _
  | cons e es ih => exact List.forall_mem_cons.mpr ⟨h.left, ih h.right⟩

theorem exprOption {e : Option Java.Expr}
    (h : Within d (Java.Expr.tailDepthOption e) (Java.Expr.continuesBoundOption e)) :
    (withinTails d).exprOption e scope := by
  rintro _ ⟨⟩
  exact h

theorem inits {ds : List Java.Declarator}
    (h : Within d (Java.Declarator.tailDepthList ds) (Java.Declarator.continuesBoundList ds)) :
    (withinTails d).inits ds scope := by
  induction ds with
  | nil => exact List.forall_mem_nil _
  | cons decl ds ih =>
    cases decl
    exact List.forall_mem_cons.mpr ⟨h.left.exprOption, ih h.right⟩

theorem forInit {init : Option Java.ForInit}
    (h : Within d (Java.ForInit.tailDepth init) (Java.ForInit.continuesBound init)) :
    (withinTails d).forInit init scope := by
  match init with
  | none => trivial
  | some (.declare ⟨_, _, _⟩) => exact h.inits
  | some (.exprs _) => exact h.exprs

theorem labels {ls : List Java.SwitchLabel}
    (h : Within d (Java.SwitchLabel.tailDepthList ls) (Java.SwitchLabel.continuesBoundList ls)) :
    (withinTails d).labels ls scope := by
  induction ls with
  | nil =>
    intro e he
    cases he
  | cons label ls ih =>
    intro e he
    cases label with
    | «case» value =>
      obtain rfl | he := by simpa using he
      · exact h.left
      · exact ih h.right e he
    | default => exact ih h e (by simpa using he)

theorem resources {rs : List Java.Resource}
    (h : Within d (Java.Resource.tailDepthList rs) (Java.Resource.continuesBoundList rs)) :
    ∀ r ∈ rs, (withinTails d).expr r.init scope := by
  induction rs with
  | nil => exact List.forall_mem_nil _
  | cons r rs ih =>
    cases r
    exact List.forall_mem_cons.mpr ⟨h.left, ih h.right⟩

theorem members {owner : Owner} {ms : List Java.Member}
    (h : Within d (Java.Member.tailDepthList ms) (Java.Member.continuesBoundList ms)) :
    (withinTails d).members owner ms scope := by
  induction ms with
  | nil => exact List.forall_mem_nil _
  | cons m ms ih => exact List.forall_mem_cons.mpr ⟨h.left, ih h.right⟩

theorem constants {cs : List Java.EnumConstant}
    (h : Within d (Java.EnumConstant.tailDepthList cs) (Java.EnumConstant.continuesBoundList cs)) :
    ∀ c ∈ cs, (withinTails d).exprs c.args scope := by
  induction cs with
  | nil => exact List.forall_mem_nil _
  | cons c cs ih =>
    cases c
    exact List.forall_mem_cons.mpr ⟨h.left.exprs, ih h.right⟩

/-- What a tail is made of is less deep. -/
theorem tailOf {t : LoopTail} (h : Within (d + 1) t.depth t.continuesBound) :
    (withinTails d).tail t scope := by
  cases t with
  | native => trivial
  | update es => exact exprs ⟨Nat.le_of_succ_le_succ h.depth_le, h.bound⟩
  | guard cond => exact ⟨Nat.le_of_succ_le_succ h.depth_le, h.bound⟩

/-- The bodies of members start outside loops, whatever is around. -/
theorem start {n : Nat} {bound : Bool → Bool} (h : Within d n (bound false)) :
    InBody d n bound scope :=
  ⟨false, nofun, h⟩

/-- In the body of a loop it is the tail of that loop that counts. -/
theorem inLoop {n : Nat} {bound : Bool → Bool} (h : Within d n (bound true)) {t : LoopTail}
    (ht : Within d t.depth t.continuesBound) : InBody d n bound (.loop t :: scope) := by
  refine ⟨true, fun _ => ?_, h⟩
  rintro _ ⟨⟩
  exact ht

end Within

theorem within_native : Within d LoopTail.native.depth LoopTail.native.continuesBound :=
  ⟨Nat.zero_le d, rfl⟩

namespace InBody

theorem stmts {ss : List Java.Stmt}
    (h : InBody d (Java.Stmt.tailDepthList ss) (Java.Stmt.continuesBoundList ss) scope) :
    (withinTails d).stmts ss scope := by
  obtain ⟨inLoop, ht, h⟩ := h
  induction ss with
  | nil => exact List.forall_mem_nil _
  | cons s ss ih => exact List.forall_mem_cons.mpr ⟨⟨inLoop, ht, h.left⟩, ih h.right⟩

theorem blockOption {b : Option (List Java.Stmt)}
    (h : InBody d (Java.Stmt.tailDepthBlock b) (Java.Stmt.continuesBoundBlock b) scope) :
    (withinTails d).blockOption b scope := by
  rintro _ ⟨⟩
  exact h.stmts

theorem groups {gs : List Java.SwitchGroup}
    (h : InBody d (Java.SwitchGroup.tailDepthList gs) (Java.SwitchGroup.continuesBoundList gs) scope) :
    (withinTails d).groups gs scope := by
  obtain ⟨inLoop, ht, h⟩ := h
  induction gs with
  | nil => exact List.forall_mem_nil _
  | cons g gs ih =>
    cases g
    exact List.forall_mem_cons.mpr
      ⟨⟨h.left.left.labels, stmts ⟨inLoop, ht, h.left.right⟩⟩, ih h.right⟩

theorem catches {cs : List Java.CatchClause}
    (h : InBody d (Java.CatchClause.tailDepthList cs) (Java.CatchClause.continuesBoundList cs) scope) :
    ∀ c ∈ cs, (withinTails d).stmts c.body scope := by
  obtain ⟨inLoop, ht, h⟩ := h
  induction cs with
  | nil => exact List.forall_mem_nil _
  | cons c cs ih =>
    cases c
    exact List.forall_mem_cons.mpr ⟨stmts ⟨inLoop, ht, h.left⟩, ih h.right⟩

end InBody

theorem withinTails_hereditary : (withinTails d).Hereditary where
  paren h := h
  field h := h
  call h := ⟨h.left.exprOption, h.right.exprs⟩
  create h := h.exprs
  object h := ⟨h.left.exprs, h.right.members⟩
  createArray h := h.exprs
  arrayOf h := h.right.exprs
  arrayInit h := h.exprs
  index h := ⟨h.left, h.right⟩
  assign h := ⟨h.left, h.right⟩
  unary h := h
  binary h := ⟨h.left, h.right⟩
  instanceOf h := h
  conditional h := by
    obtain ⟨ha, hb, hc⟩ := (Nat.max_le.mp h.depth_le).imp_right Nat.max_le.mp
    obtain ⟨⟨ha', hb'⟩, hc'⟩ := (Bool.and_eq_true_iff.mp h.bound).imp_left Bool.and_eq_true_iff.mp
    exact ⟨⟨ha, ha'⟩, ⟨hb, hb'⟩, ⟨hc, hc'⟩⟩
  cast h := h
  block h := h.stmts
  localVar {decl _} h := by
    cases decl
    obtain ⟨_, _, h⟩ := h
    exact h.inits
  exprStmt h := by
    obtain ⟨_, _, h⟩ := h
    exact h
  ifElse h := by
    obtain ⟨inLoop, ht, hd, hb⟩ := h
    rw [Java.Stmt.tailDepth_ifElse, Nat.max_le, Nat.max_le] at hd
    rw [Java.Stmt.continuesBound, Bool.and_eq_true, Bool.and_eq_true] at hb
    exact ⟨⟨hd.1, hb.1.1⟩, ⟨inLoop, ht, hd.2.1, hb.1.2⟩, ⟨inLoop, ht, hd.2.2, hb.2⟩⟩
  whileLoop h := by
    obtain ⟨_, _, h⟩ := h
    exact ⟨h.left, h.right.inLoop within_native⟩
  doWhile h := by
    obtain ⟨_, _, h⟩ := h
    exact ⟨h.left.inLoop h.right, ⟨Nat.le_of_succ_le h.right.depth_le, h.right.bound⟩⟩
  forLoop h := by
    obtain ⟨_, _, hd, hb⟩ := h
    rw [Java.Stmt.tailDepth, Nat.max_le, Nat.max_le, Nat.max_le] at hd
    rw [Java.Stmt.continuesBound, Bool.and_eq_true, Bool.and_eq_true, Bool.and_eq_true] at hb
    obtain ⟨⟨hinit, hcond⟩, hupdate, hbody⟩ := hd
    obtain ⟨⟨⟨hinit', hcond'⟩, hupdate'⟩, hbody'⟩ := hb
    exact ⟨Within.forInit ⟨hinit, hinit'⟩, Within.exprOption ⟨hcond, hcond'⟩,
      Within.exprs ⟨Nat.le_of_succ_le hupdate, hupdate'⟩,
      Within.inLoop ⟨hbody, hbody'⟩ ⟨hupdate, hupdate'⟩⟩
  forEach h := by
    obtain ⟨_, _, h⟩ := h
    exact ⟨h.left, h.right.inLoop within_native⟩
  switch h := by
    obtain ⟨inLoop, ht, h⟩ := h
    exact ⟨h.left, InBody.groups ⟨inLoop, ht, h.right⟩⟩
  labeled h := h
  synchronized h := by
    obtain ⟨inLoop, ht, h⟩ := h
    exact InBody.stmts ⟨inLoop, ht, h.right⟩
  constructorCall h := by
    obtain ⟨_, _, h⟩ := h
    exact h.exprs
  returnValue h := by
    obtain ⟨_, _, h⟩ := h
    exact h.exprOption
  throwValue h := by
    obtain ⟨_, _, h⟩ := h
    exact h
  tryCatch h := by
    obtain ⟨inLoop, ht, hd, hb⟩ := h
    rw [Java.Stmt.tailDepth_tryCatch, Nat.max_le, Nat.max_le, Nat.max_le] at hd
    rw [Java.Stmt.continuesBound, Bool.and_eq_true, Bool.and_eq_true, Bool.and_eq_true] at hb
    obtain ⟨⟨hresources, hbody⟩, hcatches, hlast⟩ := hd
    obtain ⟨⟨⟨hresources', hbody'⟩, hcatches'⟩, hlast'⟩ := hb
    exact ⟨Within.resources ⟨hresources, hresources'⟩, InBody.stmts ⟨inLoop, ht, hbody, hbody'⟩,
      InBody.catches ⟨inLoop, ht, hcatches, hcatches'⟩,
      InBody.blockOption ⟨inLoop, ht, hlast, hlast'⟩⟩
  chained h := h
  alternative _ h := h
  fields {_ decl _} h := by
    cases decl
    exact h.inits
  method {_ decl _} h := by
    obtain ⟨_, _, _, _, _, b⟩ := decl
    have h : Within d (Java.Stmt.tailDepthBlock b) (Java.Stmt.continuesBoundBlock b false) :=
      ⟨Java.Member.tailDepth_method .. ▸ h.depth_le, h.bound⟩
    exact h.start.blockOption
  constructor {_ decl _} h := by
    cases decl
    exact InBody.stmts (Within.start h)
  type h := h
  initializer h := InBody.stmts (Within.start h)
  ofClass {decl _} h := by
    cases decl
    exact h.members
  ofInterface {decl _} h := by
    cases decl
    exact h.members
  ofEnum {decl _} h := by
    cases decl
    exact ⟨h.right.members, h.left.constants⟩

end

/-! ## Budgets -/

/-- One more level of tails is the same as tails in place of the last ones. -/
theorem Env.upTo_succ (config : Config) (last : Scope → LoopTail → List Ceylon.Stmt) (n : Nat) :
    Env.upTo config last (n + 1) = Env.upTo config (tail ⟨config, last⟩) n := by
  induction n with
  | zero => rfl
  | succ n ih =>
    show Env.mk config (tail (Env.upTo config last (n + 1))) = _
    rw [ih]
    rfl

section

variable {config : Config} {last last' : Scope → LoopTail → List Ceylon.Stmt}

theorem Env.repeatTail_native (hlast : ∀ scope, last scope .native = []) (n : Nat) (scope : Scope) :
    (Env.upTo config last n).repeatTail scope .native = [] := by
  cases n with
  | zero => exact hlast scope
  | succ n => rfl

/-- Tails of depth `d` look at no tail beyond a budget of `d`, so what stands there does not matter. -/
theorem Env.remarked_budgets (config : Config) (hlast : ∀ scope, last scope .native = [])
    (hlast' : ∀ scope, last' scope .native = []) (d : Nat) {n n' : Nat} (hn : d ≤ n) (hn' : d ≤ n') :
    Env.Remarked (withinTails d) (.ofFlag config.declareMutable) (Env.upTo config last n)
      (Env.upTo config last' n') := by
  induction d generalizing n n' with
  | zero =>
    refine ⟨by simp [Env.config_upTo], by simp [Env.config_upTo], by simp, ?_⟩
    rintro _ scope t ⟨_, ht, _, rfl⟩ hloop
    have ht := (ht rfl t hloop).depth_le
    cases t with
    | native =>
      rw [Env.repeatTail_native hlast, Env.repeatTail_native hlast']
      rfl
    | update es => exact absurd ht (Nat.not_succ_le_zero _)
    | guard cond => exact absurd ht (Nat.not_succ_le_zero _)
  | succ d ih =>
    obtain ⟨k, rfl⟩ : ∃ k, n = k + 1 := ⟨n - 1, by omega⟩
    obtain ⟨k', rfl⟩ : ∃ k', n' = k' + 1 := ⟨n' - 1, by omega⟩
    have hbelow := ih (by omega : d ≤ k) (by omega : d ≤ k')
    refine ⟨by simp [Env.config_upTo], by simp [Env.config_upTo], by simp, ?_⟩
    rintro _ scope t ⟨_, ht, _, rfl⟩ hloop
    exact tail_marked ((markedTrees_closed hbelow).tail withinTails_hereditary (ht rfl t hloop).tailOf)

theorem typeDecl_upTo_eq (hlast : ∀ scope, last scope .native = [])
    (hlast' : ∀ scope, last' scope .native = []) {d : Nat} {t : Java.TypeDecl} {scope : Scope}
    (ht : Within d t.tailDepth t.continuesBound) {n n' : Nat} (hn : d ≤ n) (hn' : d ≤ n') :
    typeDecl (Env.upTo config last n) t scope = typeDecl (Env.upTo config last' n') t scope := by
  have hself := markedTrees_closed (Env.remarked_budgets config hlast hlast d hn hn)
  have hother := markedTrees_closed (Env.remarked_budgets config hlast hlast' d hn hn')
  calc typeDecl (Env.upTo config last n) t scope
      = (typeDecl (Env.upTo config last n) t scope).marked (.ofFlag config.declareMutable) :=
        hself.typeDecl withinTails_hereditary t scope ht
    _ = typeDecl (Env.upTo config last' n') t scope :=
        (hother.typeDecl withinTails_hereditary t scope ht).symm

theorem exprLines_upTo_eq (hlast : ∀ scope, last scope .native = [])
    (hlast' : ∀ scope, last' scope .native = []) {d : Nat} {es : List Java.Expr} {scope : Scope}
    (hes : Within d (Java.Expr.tailDepthList es) (Java.Expr.continuesBoundList es)) {n n' : Nat}
    (hn : d ≤ n) (hn' : d ≤ n') :
    exprLines (Env.upTo config last n) es scope = exprLines (Env.upTo config last' n') es scope := by
  have hself := markedTrees_closed (Env.remarked_budgets config hlast hlast d hn hn)
  have hother := markedTrees_closed (Env.remarked_budgets config hlast hlast' d hn hn')
  calc exprLines (Env.upTo config last n) es scope
      = Ceylon.Stmt.markedList (.ofFlag config.declareMutable)
          (exprLines (Env.upTo config last n) es scope) :=
        exprLines_marked (hself.exprs withinTails_hereditary es scope hes.exprs)
    _ = exprLines (Env.upTo config last' n') es scope :=
        (exprLines_marked (hother.exprs withinTails_hereditary es scope hes.exprs)).symm

end

theorem tailDepth_le_of_mem {t : Java.TypeDecl} {ts : List Java.TypeDecl} (h : t ∈ ts) :
    t.tailDepth ≤ ts.foldr (fun t n => max t.tailDepth n) 0 := by
  induction ts with
  | nil => cases h
  | cons t' ts ih =>
    rw [List.foldr_cons]
    rcases List.mem_cons.mp h with rfl | hmem
    · exact Nat.le_max_left _ _
    · exact Nat.le_trans (ih hmem) (Nat.le_max_right _ _)

/-- With a budget above the depth of its tails, a unit never gets to what stands for further tails:
every budget from there on gives the same source, which is the one that is written. -/
theorem unitUpTo_eq_unit (config : Config) (last : Scope → LoopTail → List Ceylon.Stmt)
    (scope : Scope) (u : Java.CompilationUnit) (h : u.continuesBound = true) (n : Nat)
    (hn : u.tailDepth < n) : unitUpTo config last n scope u = unit config scope u := by
  obtain ⟨m, rfl⟩ : ∃ m, n = m + 1 := ⟨n - 1, by omega⟩
  rw [unit, unitUpTo, unitUpTo, Env.upTo_succ]
  congr 1
  refine List.map_congr_left fun t ht => ?_
  have hwithin : Within u.tailDepth t.tailDepth t.continuesBound :=
    ⟨tailDepth_le_of_mem ht, List.all_eq_true.mp h t ht⟩
  exact typeDecl_upTo_eq (fun _ => rfl) (fun _ => rfl) hwithin (by omega) (Nat.le_max_left _ _)

/-- `do continue; while (new T() { { for (; ; new U() { { do continue; while (go); } }) continue; } });`:
each tail holds the loop of the next `continue`. -/
theorem unitUpTo_eq_unit_nested :
    let innermost : Java.Stmt := .doWhile (.continueTo none) (.name "go")
    let inner : Java.Stmt := .forLoop none none
      [.create [⟨"U", []⟩] [] (some [.initializer [innermost]])] (.continueTo none)
    let outer : Java.Stmt := .doWhile (.continueTo none)
      (.create [⟨"T", []⟩] [] (some [.initializer [inner]]))
    let u : Java.CompilationUnit :=
      ⟨none, [], [.ofClass ⟨[], "A", [], none, [], [.initializer [outer]]⟩]⟩
    u.continuesBound = true ∧ u.tailDepth = 3 ∧
      unitUpTo .default (fun _ _ => [.breakLoop]) 4 [] u = unit .default [] u := by
  intro innermost inner outer u
  have hbound : u.continuesBound = true := by decide
  have hdepth : u.tailDepth = 3 := by decide
  exact ⟨hbound, hdepth, unitUpTo_eq_unit .default _ [] u hbound 4 (by rw [hdepth]; decide)⟩

end Conversion

end CeylonFromJava
