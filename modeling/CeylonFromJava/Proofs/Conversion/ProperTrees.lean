import CeylonFromJava.Conversion.Unit
import CeylonFromJava.Proofs.Ceylon.TempOrder
import CeylonFromJava.Proofs.Conversion.PureOperands
import CeylonFromJava.Proofs.Conversion.TreeInduction
import CeylonFromJava.Proofs.Java.Words

/-! Trees are converted to proper trees.

An operand that may run twice has no assignment in it, so it takes no number. Names in expressions come
from names, fields and methods of the source, and a few from the conversion itself. -/
namespace CeylonFromJava.Conversion
set_option autoImplicit false

variable {Good : Java.Word → Prop} {P : String → Prop}

/-! ## Surroundings -/

/-- What is written for good words is as wanted, and so is what the conversion adds. -/
structure Admits (config : Config) (Good : Java.Word → Prop) (P : String → Prop) : Prop where
  name : ∀ x, Good (.name x) → P (Ceylon.Name.word x)
  field : ∀ x, Good (.field x) → P (Ceylon.Name.small x)
  method : ∀ x, Good (.method x) → P (Ceylon.Name.small x)
  property : ∀ x property, config.convertGetters = true → Good (.method x) →
    Ceylon.Name.property x = some property → P (Ceylon.Name.small property)
  print : P "print"
  not : P "not"

theorem admits_anything (config : Config) : Admits config (fun _ => True) (fun _ => True) := by
  constructor <;> intros <;> trivial

def LoopTail.words : LoopTail → List Java.Word
  | .native => []
  | .update es => Java.Expr.wordsList es
  | .guard cond => cond.words

/-- The words that a `continue` may repeat. -/
def Scope.words (scope : Scope) : List Java.Word := (scope.loopTail?.map LoopTail.words).getD []

/-- Good tails are repeated as proper statements. -/
structure Env.Proper (Good : Java.Word → Prop) (P : String → Prop) (env : Env) : Prop where
  admits : Admits env.config Good P
  tails : ∀ (scope : Scope) (t : LoopTail), (∀ w ∈ scope.words, Good w) → (∀ w ∈ t.words, Good w) →
    Ceylon.Stmt.ProperList P (env.repeatTail scope t)

theorem Scope.words_of_loopTail {scope : Scope} {t : LoopTail} (h : scope.loopTail? = some t) :
    scope.words = t.words := by
  rw [Scope.words, h]
  rfl

theorem properList_append {ss ss' : List Ceylon.Stmt} (h : Ceylon.Stmt.ProperList P ss)
    (h' : Ceylon.Stmt.ProperList P ss') : Ceylon.Stmt.ProperList P (ss ++ ss') := by
  rw [Ceylon.Stmt.properList_iff] at h h' ⊢
  exact List.forall_mem_append.mpr ⟨h, h'⟩

theorem proper_grouped {e : Ceylon.Expr} (h : e.Proper P) (needed : Bool) :
    (grouped needed e).Proper P := by
  cases needed <;> exact h

/-! ## Operands that may run twice -/

theorem temps_grouped (needed : Bool) (e : Ceylon.Expr) : (grouped needed e).temps = e.temps := by
  cases needed <;> rfl

/-- Both operands are proper, and one that may be written twice takes no number. -/
structure Element.Proper (P : String → Prop) (e : Element) : Prop where
  array : e.array.Proper P
  index : e.index.Proper P
  arrayTemps : e.arrayPure = true → e.array.temps = 0
  indexTemps : e.indexPure = true → e.index.temps = 0

section

variable {e : Element} (h : e.Proper P)

include h

theorem Element.Proper.target : e.target.Proper P := proper_grouped h.array _

theorem Element.Proper.arraySlot : e.arraySlot.Proper P := by
  unfold Element.arraySlot
  split
  · next hpure =>
    refine ⟨h.target, ?_⟩
    rw [Element.target, temps_grouped, h.arrayTemps hpure]
  · exact h.array

theorem Element.Proper.indexSlot : e.indexSlot.Proper P := by
  unfold Element.indexSlot
  split
  · next hpure => exact ⟨h.index, h.indexTemps hpure⟩
  · exact h.index

end

/-! ## Good words -/

/-- Good words, in surroundings with good words. -/
def GoodHere (Good : Java.Word → Prop) (ws : List Java.Word) (scope : Scope) : Prop :=
  (∀ w ∈ ws, Good w) ∧ ∀ w ∈ scope.words, Good w

def goodWords (Good : Java.Word → Prop) : Property where
  expr e := GoodHere Good e.words
  stmt s := GoodHere Good s.words
  otherwise s := GoodHere Good (Java.Stmt.wordsOption s)
  member _ m := GoodHere Good m.words
  typeDecl t := GoodHere Good t.words

namespace GoodHere

variable {ws ws' : List Java.Word} {scope : Scope}

theorem left (h : GoodHere Good (ws ++ ws') scope) : GoodHere Good ws scope :=
  ⟨(List.forall_mem_append.mp h.1).1, h.2⟩

theorem right (h : GoodHere Good (ws ++ ws') scope) : GoodHere Good ws' scope :=
  ⟨(List.forall_mem_append.mp h.1).2, h.2⟩

theorem tail {w : Java.Word} (h : GoodHere Good (w :: ws) scope) : GoodHere Good ws scope :=
  ⟨(List.forall_mem_cons.mp h.1).2, h.2⟩

theorem flatMap {α : Type} {f : α → List Java.Word} {xs : List α}
    (h : GoodHere Good (xs.flatMap f) scope) : ∀ x ∈ xs, GoodHere Good (f x) scope :=
  fun x hx => ⟨List.forall_mem_flatMap.mp h.1 x hx, h.2⟩

theorem exprs {es : List Java.Expr} (h : GoodHere Good (Java.Expr.wordsList es) scope) :
    (goodWords Good).exprs es scope :=
  (Java.Expr.wordsList_eq es ▸ h).flatMap

theorem exprOption {e : Option Java.Expr} (h : GoodHere Good (Java.Expr.wordsOption e) scope) :
    (goodWords Good).exprOption e scope := by
  rintro _ ⟨⟩
  exact h

theorem stmts {ss : List Java.Stmt} (h : GoodHere Good (Java.Stmt.wordsList ss) scope) :
    (goodWords Good).stmts ss scope :=
  (Java.Stmt.wordsList_eq ss ▸ h).flatMap

theorem blockOption {b : Option (List Java.Stmt)}
    (h : GoodHere Good (Java.Stmt.wordsBlock b) scope) : (goodWords Good).blockOption b scope := by
  rintro _ ⟨⟩
  exact h.stmts

theorem members {owner : Owner} {ms : List Java.Member}
    (h : GoodHere Good (Java.Member.wordsList ms) scope) : (goodWords Good).members owner ms scope :=
  (Java.Member.wordsList_eq ms ▸ h).flatMap

theorem inits {ds : List Java.Declarator} (h : GoodHere Good (Java.Declarator.wordsList ds) scope) :
    (goodWords Good).inits ds scope :=
  fun d hd => ((Java.Declarator.wordsList_eq ds ▸ h).flatMap d hd).tail.exprOption

theorem forInit {init : Option Java.ForInit} (h : GoodHere Good (Java.ForInit.words init) scope) :
    (goodWords Good).forInit init scope := by
  match init with
  | none => trivial
  | some (.declare ⟨_, _, _⟩) => exact h.right.inits
  | some (.exprs _) => exact h.exprs

theorem groups {gs : List Java.SwitchGroup}
    (h : GoodHere Good (Java.SwitchGroup.wordsList gs) scope) : (goodWords Good).groups gs scope := by
  intro g hg
  have hg := (Java.SwitchGroup.wordsList_eq gs ▸ h).flatMap g hg
  exact ⟨fun e he => (Java.SwitchLabel.wordsList_eq g.labels ▸ hg.left).flatMap _ he, hg.right.stmts⟩

theorem tailOf {t : LoopTail} (h : GoodHere Good t.words scope) : (goodWords Good).tail t scope := by
  cases t with
  | native => trivial
  | update _ => exact h.exprs
  | guard _ => exact h

end GoodHere

theorem goodWords_hereditary : (goodWords Good).Hereditary where
  paren h := h
  field h := h.left
  call h := ⟨h.left.left.exprOption, h.right.tail.exprs⟩
  create h := h.right.exprs
  object h := ⟨h.left.right.exprs, h.right.members⟩
  createArray h := h.right.exprs
  arrayOf h := h.right.exprs
  arrayInit h := h.exprs
  index h := ⟨h.left, h.right⟩
  assign h := ⟨h.left, h.right⟩
  unary h := h
  binary h := ⟨h.left, h.right⟩
  instanceOf h := h.left
  conditional h := ⟨h.left.left, h.left.right, h.right⟩
  cast h := h.right
  block h := h.stmts
  localVar {decl _} h := by
    cases decl
    exact h.right.inits
  exprStmt h := h
  ifElse h := ⟨h.left.left, h.left.right, h.right⟩
  whileLoop h := ⟨h.left, h.right.1, nofun⟩
  doWhile h := ⟨⟨h.right.1, h.left.1⟩, h.left⟩
  forLoop h := ⟨h.left.left.left.forInit, h.left.left.right.exprOption, h.left.right.exprs, h.right.1,
    h.left.right.1⟩
  forEach h := ⟨h.left.right.tail, h.right.1, nofun⟩
  switch h := ⟨h.left, h.right.groups⟩
  labeled h := h.tail
  synchronized h := h.right.stmts
  constructorCall h := h.exprs
  returnValue h := h.exprOption
  throwValue h := h
  tryCatch {rs _ cs _ _} h := by
    refine ⟨fun r hr => ?_, h.left.left.right.stmts, fun c hc => ?_, h.right.blockOption⟩
    · exact ((Java.Resource.wordsList_eq rs ▸ h.left.left.left).flatMap r hr).right.tail
    · exact ((Java.CatchClause.wordsList_eq cs ▸ h.left.right).flatMap c hc).right.tail.stmts
  chained h := h
  alternative _ h := h
  fields {_ decl _} h := by
    cases decl
    exact h.right.inits
  method {_ decl _} h := by
    cases decl
    exact h.right.blockOption
  constructor {_ decl _} h := by
    cases decl
    exact h.right.stmts
  type h := h
  initializer h := h.stmts
  ofClass {decl _} h := by
    cases decl
    exact h.right.members
  ofInterface {decl _} h := by
    cases decl
    exact h.right.members
  ofEnum {decl _} h := by
    obtain ⟨_, _, _, constants, _⟩ := decl
    refine ⟨h.right.members, fun c hc => ?_⟩
    exact ((Java.EnumConstant.wordsList_eq constants ▸ h.left.right).flatMap c hc).tail.exprs

/-! ## Trees -/

def properTrees (P : String → Prop) (env : Env) : Property where
  expr e scope := (expr env e scope).Proper P
  stmt s scope := Ceylon.Stmt.ProperList P (stmt env s scope)
  otherwise s scope := (elseBranch env s scope).Proper P
  member owner m scope := (member env owner m scope).Proper P
  typeDecl t scope := (typeDecl env t scope).Proper P

section

variable {env : Env} {scope : Scope}

theorem proper_exprs {es : List Java.Expr} (h : (properTrees P env).exprs es scope) :
    Ceylon.Expr.ProperList P (exprs env es scope) := by
  rw [exprs_eq_map, Ceylon.Expr.properList_iff]
  exact List.forall_mem_map.mpr h

theorem proper_exprLines {es : List Java.Expr} (h : (properTrees P env).exprs es scope) :
    Ceylon.Stmt.ProperList P (exprLines env es scope) := by
  rw [exprLines_eq_map, Ceylon.Stmt.properList_iff]
  exact List.forall_mem_map.mpr h

theorem proper_conditions {cond : Java.Expr} (h : (properTrees P env).conditions cond scope) :
    Ceylon.Condition.ProperList P (conditions env cond scope fun _ => expr env cond scope) := by
  rw [conditions_eq_map, Ceylon.Condition.properList_iff, List.forall_mem_map]
  intro e he
  have hitem := h e he
  cases e <;> exact hitem

theorem proper_element {target : Java.Expr} (h : (properTrees P env).element target scope) :
    ∀ e ∈ element env target scope, e.Proper P := by
  intro e he
  obtain ⟨array, index, htarget, rfl⟩ := element_eq_some he
  obtain ⟨ha, hi⟩ := h array index htarget
  exact ⟨ha, hi, fun hpure => (unnumbered_expr array scope hpure).temps,
    fun hpure => (unnumbered_expr index scope hpure).temps⟩

theorem proper_stmts {ss : List Java.Stmt} (h : (properTrees P env).stmts ss scope) :
    Ceylon.Stmt.ProperList P (stmts env ss scope) := by
  rw [stmts_eq_flatMap, Ceylon.Stmt.properList_iff, List.forall_mem_flatMap]
  exact fun s hs => Ceylon.Stmt.properList_iff.mp (h s hs)

theorem proper_body {s : Java.Stmt} (h : (properTrees P env).body s scope) :
    Ceylon.Stmt.ProperList P (body env s scope fun _ => stmt env s scope) := by
  rw [body_eq_stmts]
  exact proper_stmts h

theorem proper_block {b : Option (List Java.Stmt)} (h : (properTrees P env).blockOption b scope) :
    Ceylon.Stmt.ProperOption P (optionalBlock env b scope) := by
  cases b with
  | none => trivial
  | some b => exact proper_stmts (h b rfl)

theorem proper_locals {ds : List Java.Declarator} (h : (properTrees P env).inits ds scope)
    (ty : Java.TypeRef) : Ceylon.Stmt.ProperList P (locals env ds ty scope) := by
  rw [locals_eq_map, Ceylon.Stmt.properList_iff, List.forall_mem_map]
  intro d hd
  have hinit := h d hd
  obtain ⟨name, _ | init⟩ := d
  · trivial
  · rw [localValue]
    split <;> exact hinit init rfl

theorem proper_forInit {init : Option Java.ForInit} (h : (properTrees P env).forInit init scope) :
    Ceylon.Stmt.ProperList P (forInit env init scope) := by
  match init with
  | none => trivial
  | some (.declare ⟨_, ty, _⟩) => exact proper_locals h ty
  | some (.exprs _) => exact proper_exprLines h

theorem proper_cases {gs : List Java.SwitchGroup} (h : (properTrees P env).groups gs scope) :
    Ceylon.Case.ProperList P (cases env gs scope) ∧
      Ceylon.Stmt.ProperOption P (defaultBody env gs scope) := by
  have hbody : ∀ g ∈ gs, Ceylon.Stmt.ProperList P (caseBody env g.body scope) := by
    intro g hg
    rw [caseBody_eq_stmts]
    exact proper_stmts fun s hs => (h g hg).2 s (List.mem_filter.mp hs).1
  constructor
  · rw [cases_eq_filterMap, Ceylon.Case.properList_iff, List.forall_mem_filterMap]
    intro g hg c hc
    have hg := (List.mem_filter.mp hg).1
    obtain ⟨e, he, rfl⟩ := Option.map_eq_some_iff.mp hc
    exact ⟨(h g hg).1 e (mem_labels_of_firstCase he), hbody g hg⟩
  · rw [defaultBody_eq, Ceylon.Stmt.properOption_iff]
    intro b hb
    obtain ⟨g, hg, rfl⟩ := Option.map_eq_some_iff.mp hb
    exact hbody g (List.mem_of_find?_eq_some hg)

theorem proper_members {owner : Owner} {ms : List Java.Member}
    (h : (properTrees P env).members owner ms scope) :
    Ceylon.Member.ProperList P (members env owner ms scope) := by
  rw [members_eq_map, Ceylon.Member.properList_iff]
  exact List.forall_mem_map.mpr h

theorem proper_call (hadmits : Admits env.config Good P) {target : Option Java.Expr} {x : String}
    {args : List Java.Expr} (hx : Good (.method x))
    (htarget : (properTrees P env).exprOption target scope)
    (hargs : (properTrees P env).exprs args scope) (typeArgs : List Java.TypeRef) :
    (expr env (.call target typeArgs x args) scope).Proper P := by
  have htarget : Ceylon.Expr.ProperOption P (callTarget env target scope) := by
    cases target with
    | none => trivial
    | some e => exact proper_grouped (htarget e rfl) _
  rw [expr]
  split
  · exact ⟨trivial, hadmits.print, proper_exprs hargs⟩
  · split
    · next property hproperty =>
      have hsmall : P (Ceylon.Name.small property) := by
        unfold propertyOf at hproperty
        split at hproperty
        · next hgetters =>
          rw [Bool.and_eq_true] at hgetters
          exact hadmits.property x property hgetters.1 hx hproperty
        · cases hproperty
      split
      · exact hsmall
      · next owner howner =>
        rw [howner] at htarget
        exact ⟨htarget, hsmall⟩
    · exact ⟨htarget, hadmits.method x hx, proper_exprs hargs⟩

theorem proper_exprStmt {e : Java.Expr} (he : (properTrees P env).expr e scope)
    (heffect : (properTrees P env).effect e scope) :
    Ceylon.Stmt.ProperList P (stmt env (.expr e) scope) := by
  cases e with
  | assign target op value =>
    obtain ⟨helement, hvalue⟩ := heffect target op value rfl
    cases op with
    | plain => exact ⟨he, trivial⟩
    | compound op =>
      simp only [stmt, exprStmt]
      split
      · next e hsome =>
        have hslots := proper_element helement e hsome
        exact ⟨⟨hslots.arraySlot, hslots.indexSlot, proper_grouped hvalue _⟩, trivial⟩
      · exact ⟨he, trivial⟩
  | _ => exact ⟨he, trivial⟩

theorem properTrees_closed (henv : env.Proper Good P) :
    (goodWords Good).Closed (properTrees P env) where
  literal _ := trivial
  name h := henv.admits.name _ (h.1 _ (List.mem_singleton_self _))
  thisRef := trivial
  superRef := trivial
  paren h := h
  field h he := ⟨proper_grouped he _, henv.admits.field _ (h.right.1 _ (List.mem_singleton_self _))⟩
  call h htarget hargs :=
    proper_call henv.admits (h.right.1 _ (List.mem_cons_self ..)) htarget hargs _
  create _ hargs := proper_exprs hargs
  object _ hargs hms := ⟨proper_exprs hargs, proper_members hms⟩
  createArray _ hdims := proper_exprs hdims
  arrayOf _ hes := proper_exprs hes
  arrayInit _ hes := proper_exprs hes
  index ha hb := ⟨proper_grouped ha _, hb⟩
  assign htarget helement hvalue := by
    have helement := proper_element helement
    simp only [properTrees, expr]
    split
    · exact ⟨htarget, hvalue⟩
    · next e he => exact ⟨(helement e he).target, (helement e he).index, hvalue⟩
    · next e op he =>
      exact ⟨(helement e he).arraySlot, (helement e he).indexSlot, proper_grouped hvalue _⟩
  unary {op _ _} he := by
    cases op with
    | complement => exact ⟨proper_grouped he _, henv.admits.not⟩
    | postIncrement | postDecrement | plus | minus | not | preIncrement | preDecrement =>
      exact proper_grouped he _
  binary ha hb := by
    simp only [properTrees, expr]
    split
    · exact ha
    · exact ⟨proper_grouped ha _, proper_grouped hb _⟩
  instanceOf _ he := proper_grouped he _
  conditional _ _ hcond hb hc := ⟨proper_conditions hcond, hb, hc⟩
  cast he := proper_grouped he _
  block hb := ⟨proper_stmts hb, trivial⟩
  localVar {decl _} _ hinits := by
    cases decl
    exact proper_locals hinits _
  exprStmt he heffect := proper_exprStmt he heffect
  ifElse _ _ hcond hbody hother :=
    have h := ⟨proper_conditions hcond, proper_body hbody, hother⟩
    ⟨⟨h, trivial⟩, h⟩
  whileLoop hcond hbody := ⟨⟨hcond, proper_body hbody⟩, trivial⟩
  doWhile hbody hcond :=
    ⟨⟨trivial, properList_append (proper_body hbody) ⟨hcond, trivial⟩⟩, trivial⟩
  forLoop {_ cond _ _ _} _ hinit hcond hupdate hbody := by
    refine properList_append (proper_forInit hinit) ⟨⟨?_, ?_⟩, trivial⟩
    · cases cond with
      | none => trivial
      | some e => exact hcond e rfl
    · exact properList_append (proper_body hbody) (proper_exprLines hupdate)
  forEach _ he hbody := ⟨⟨he, proper_body hbody⟩, trivial⟩
  switch hselector hgs := ⟨⟨hselector, proper_cases hgs⟩, trivial⟩
  breakTo := ⟨trivial, trivial⟩
  continueTo {_ scope} h := by
    simp only [properTrees, stmt]
    refine properList_append ?_ ⟨trivial, trivial⟩
    cases htail : scope.loopTail? with
    | none => trivial
    | some t => exact henv.tails scope t h.2 (Scope.words_of_loopTail htail ▸ h.2)
  labeled h := h
  synchronized hb := ⟨proper_stmts hb, trivial⟩
  constructorCall hargs := ⟨proper_exprs hargs, trivial⟩
  returnValue {value _} hvalue := by
    cases value with
    | none => exact ⟨trivial, trivial⟩
    | some e => exact ⟨hvalue e rfl, trivial⟩
  throwValue he := ⟨he, trivial⟩
  tryCatch _ hrs hb hcs hlast := by
    refine ⟨⟨?_, proper_stmts hb, ?_, proper_block hlast⟩, trivial⟩
    · rw [resourceList_eq_map, Ceylon.Resource.properList_iff]
      exact List.forall_mem_map.mpr hrs
    · rw [catchList_eq_map, Ceylon.Catch.properList_iff]
      exact List.forall_mem_map.mpr fun c hc => proper_stmts (hcs c hc)
  empty := trivial
  absent := trivial
  alternative hs hbody := by
    simp only [properTrees, elseBranch_of_not_isIf hs]
    exact proper_stmts hbody
  fields {_ decl _} _ hinits := by
    cases decl
    simp only [properTrees, member, Ceylon.Member.Proper, fieldList_eq_map,
      Ceylon.Declarator.properList_iff, List.forall_mem_map]
    intro d hd
    have hinit := hinits d hd
    obtain ⟨_, _ | init⟩ := d
    · trivial
    · exact hinit init rfl
  method {owner decl _} _ hbody := by
    obtain ⟨modifiers, _, _, _, _, b⟩ := decl
    simp only [properTrees, member, Ceylon.Member.Proper]
    split
    · trivial
    · exact proper_block hbody
  constructor {owner decl _} _ hbody := by
    cases decl
    cases owner <;> exact proper_stmts hbody
  type h := h
  initializer hb := proper_stmts hb
  ofClass {decl _} _ hms := by
    cases decl
    exact proper_members hms
  ofInterface {decl _} _ hms := by
    cases decl
    exact proper_members hms
  ofEnum {decl _} _ hms hconstants := by
    cases decl
    refine ⟨proper_members hms, ?_⟩
    rw [constantList_eq_map, Ceylon.Constant.properList_iff]
    exact List.forall_mem_map.mpr fun c hc => proper_exprs (hconstants c hc)

theorem proper_expr (henv : env.Proper Good P) (e : Java.Expr) (scope : Scope)
    (h : GoodHere Good e.words scope) : (expr env e scope).Proper P :=
  (properTrees_closed henv).expr goodWords_hereditary e scope h

end

/-! ## Units -/

theorem proper_tail {env : Env} {t : LoopTail} {scope : Scope} (h : (properTrees P env).tail t scope) :
    Ceylon.Stmt.ProperList P (tail env scope t) := by
  cases t with
  | native => trivial
  | update es => exact proper_exprLines h
  | guard cond => exact ⟨h, trivial⟩

theorem Env.proper_upTo {config : Config} (hadmits : Admits config Good P) (n : Nat) :
    (Env.upTo config (fun _ _ => []) n).Proper Good P := by
  induction n with
  | zero => exact ⟨hadmits, fun _ _ _ _ => trivial⟩
  | succ n ih =>
    refine ⟨hadmits, fun scope t hs ht => proper_tail ?_⟩
    exact (properTrees_closed ih).tail goodWords_hereditary (GoodHere.tailOf ⟨ht, hs⟩)

/-- The text of a unit takes the numbers that the unit counts, and the names in it are as wanted. -/
theorem orderly_unit {config : Config} (hadmits : Admits config Good P) {u : Java.CompilationUnit}
    (h : ∀ w ∈ u.words, Good w) (k : Nat) :
    Ceylon.Token.Orderly P k ((unit config [] u).tokens k) (k + (unit config [] u).temps) := by
  refine Ceylon.Source.orderly (fun t ht => ?_) k
  obtain ⟨t', ht', rfl⟩ := List.mem_map.mp ht
  have hwords : (goodWords Good).typeDecl t' [] :=
    ⟨fun w hw => h w (List.mem_append_right _ (List.mem_flatMap.mpr ⟨t', ht', hw⟩)), nofun⟩
  exact (properTrees_closed (Env.proper_upTo hadmits _)).typeDecl goodWords_hereditary t' [] hwords

end CeylonFromJava.Conversion
