import CeylonFromJava.Conversion.Tree
import CeylonFromJava.Proofs.Java.CountingLoop

/-! The parts of a converted tree.

Lists are converted item by item, and an assignment looks at its target without parentheses. A
condition list has an item for each operand of an `&&` chain, a `switch` has a case for each group
that shows a value. So what stands at a place of the converted tree is found without going through
the parts before it. -/
namespace CeylonFromJava.Conversion
set_option autoImplicit false

open Ceylon (Condition)

variable {env : Env} {scope : Scope}

theorem Env.config_upTo (config : Config) (last : Scope → LoopTail → List Ceylon.Stmt)
    (budget : Nat) : (Env.upTo config last budget).config = config := by
  cases budget <;> rfl

/-! ## Expressions -/

theorem exprs_eq_map (es : List Java.Expr) : exprs env es scope = es.map (expr env · scope) := by
  induction es with
  | nil => rfl
  | cons e es ih => rw [exprs, ih, List.map_cons]

theorem callTarget_eq_map (target : Option Java.Expr) :
    callTarget env target scope =
      target.map fun e => grouped (e.precedence < .postfixed) (expr env e scope) := by
  cases target <;> rfl

/-- The element that `a[i]` is. -/
abbrev elementAt (env : Env) (scope : Scope) (array index : Java.Expr) : Element :=
  ⟨expr env array scope, array.precedence < .postfixed, isPure array, expr env index scope,
    isPure index⟩

theorem element_eq : (target : Java.Expr) → element env target scope =
    match target.unparenthesized with
    | .index array index => some (elementAt env scope array index)
    | _ => none
  | .paren inner => element_eq inner
  | .index _ _ | .literal _ | .name _ | .thisRef | .superRef | .field _ _ | .call _ _ _ _
  | .create _ _ _ | .createArray _ _ _ _ | .arrayInit _ | .assign _ _ _ | .unary _ _ | .binary _ _ _
  | .instanceOf _ _ | .conditional _ _ _ | .cast _ _ => rfl

theorem element_of_unparenthesized {array index : Java.Expr} (target : Java.Expr)
    (h : target.unparenthesized = .index array index) :
    element env target scope = some (elementAt env scope array index) := by
  rw [element_eq, h]

theorem element_eq_some {target : Java.Expr} {e : Element} (h : element env target scope = some e) :
    ∃ array index, target.unparenthesized = .index array index ∧
      e = elementAt env scope array index := by
  rw [element_eq] at h
  split at h
  · next array index hindex => exact ⟨array, index, hindex, (Option.some.inj h).symm⟩
  · cases h

/-- The operands of the `&&` chain from left to right. Parentheses end the chain. -/
def conjuncts : Java.Expr → List Java.Expr
  | .binary left .and right => conjuncts left ++ conjuncts right
  | e => [e]

/-- An operand of the chain as an item of a condition list. -/
def item (env : Env) (scope : Scope) : Java.Expr → Condition
  | .instanceOf operand ty => .isType (typeRef ty) (expr env operand scope)
  | e => .holds (expr env e scope)

/-- The list that is written has an item for each operand of the chain. -/
theorem conditions_eq_map (cond : Java.Expr) :
    (conditions env cond scope fun _ => expr env cond scope) =
      (conjuncts cond).map (item env scope) := by
  fun_induction conjuncts cond with
  | case1 left right ihl ihr => rw [conditions, ihl, ihr, List.map_append]
  | case2 e h =>
    cases e with
    | binary left op right =>
      cases op with
      | and => exact absurd rfl (h left right)
      | _ => rfl
    | _ => rfl

/-! ## Declared names -/

/-- The statement for one local value. -/
def localValue (env : Env) (scope : Scope) (ty : Java.TypeRef) :
    Option Java.Expr → String → Ceylon.Stmt
  | none, name => .declare env.config.declareMutable (typeRef ty) name none
  | some init, name =>
    if isAsserted scope init then .assertType (typeRef ty) name (expr env init scope)
    else .declare env.config.declareMutable (typeRef ty) name (some (expr env init scope))

theorem locals_eq_map (ds : List Java.Declarator) (ty : Java.TypeRef) :
    locals env ds ty scope =
      ds.map fun d => localValue env scope ty d.init (Ceylon.Name.small d.name) := by
  induction ds with
  | nil => rfl
  | cons d ds ih => obtain ⟨name, _ | init⟩ := d <;> rw [locals, ih] <;> rfl

theorem fieldList_eq_map (ds : List Java.Declarator) :
    fieldList env ds scope = ds.map fun d =>
      ⟨Ceylon.Name.small d.name, d.init.map fun init => expr env init scope⟩ := by
  induction ds with
  | nil => rfl
  | cons d ds ih => obtain ⟨name, _ | init⟩ := d <;> rw [fieldList, ih] <;> rfl

/-! ## Statements -/

theorem exprLines_eq_map (es : List Java.Expr) :
    exprLines env es scope = es.map fun e => .expr (expr env e scope) := by
  induction es with
  | nil => rfl
  | cons e es ih => rw [exprLines, ih, List.map_cons]

theorem stmts_eq_flatMap (ss : List Java.Stmt) :
    stmts env ss scope = ss.flatMap (stmt env · scope) := by
  induction ss with
  | nil => rfl
  | cons s ss ih => rw [stmts, ih, List.flatMap_cons]

theorem stmts_append (ss ss' : List Java.Stmt) :
    stmts env (ss ++ ss') scope = stmts env ss scope ++ stmts env ss' scope := by
  simp only [stmts_eq_flatMap, List.flatMap_append]

theorem stmts_singleton (s : Java.Stmt) : stmts env [s] scope = stmt env s scope := by
  rw [stmts, stmts, List.append_nil]

theorem stmt_localVar (decl : Java.LocalVar) :
    stmt env (.localVar decl) scope = locals env decl.declarators decl.ty scope := by
  cases decl
  rfl

theorem optionalBlock_eq_map (b : Option (List Java.Stmt)) :
    optionalBlock env b scope = b.map (stmts env · scope) := by
  cases b <;> rfl

/-- A branch or the body of a loop is the list of its statements. -/
theorem body_eq_stmts (s : Java.Stmt) :
    (body env s scope fun _ => stmt env s scope) = stmts env s.parts scope := by
  cases s with
  | block b => rfl
  | _ => simp [body, Java.Stmt.parts, stmts]

/-- Whether a branch goes on as a chain. -/
def isIf : Java.Stmt → Bool
  | .ifElse _ _ _ => true
  | _ => false

theorem elseBranch_of_not_isIf {s : Java.Stmt} (h : isIf s = false) :
    elseBranch env (some s) scope = .block (stmts env s.parts (.branch [] :: scope)) := by
  cases s with
  | ifElse _ _ _ => cases h
  | block b => rfl
  | _ => simp [elseBranch, body, Java.Stmt.parts, stmts]

/-! ## Cases -/

/-- A `break` that ends a case. -/
def endsCase : Java.Stmt → Bool
  | .breakTo none => true
  | _ => false

theorem caseBody_cons (s : Java.Stmt) (ss : List Java.Stmt) :
    caseBody env (s :: ss) scope =
      (if endsCase s then [] else stmt env s scope) ++ caseBody env ss scope := by
  cases s with
  | breakTo label => cases label <;> simp [caseBody, endsCase]
  | _ => simp [caseBody, endsCase]

theorem caseBody_eq_stmts (ss : List Java.Stmt) :
    caseBody env ss scope = stmts env (ss.filter (!endsCase ·)) scope := by
  induction ss with
  | nil => rfl
  | cons s ss ih =>
    rw [caseBody_cons, ih]
    cases hs : endsCase s <;> simp [hs, stmts]

theorem firstLabel_eq_map (g : Java.SwitchGroup) :
    firstLabel env g.labels scope = g.firstCase.map (expr env · scope) := by
  obtain ⟨labels, b⟩ := g
  rw [Java.SwitchGroup.firstCase]
  induction labels with
  | nil => rfl
  | cons label labels ih =>
    cases label with
    | «case» value => rfl
    | default => exact ih

/-- The case for a group. -/
def arm (env : Env) (scope : Scope) (g : Java.SwitchGroup) : Option Ceylon.Case :=
  g.firstCase.map fun e => ⟨expr env e scope, caseBody env g.body scope⟩

theorem cases_eq_filterMap (groups : List Java.SwitchGroup) :
    cases env groups scope = (groups.filter (!·.isDefault)).filterMap (arm env scope) := by
  induction groups with
  | nil => rfl
  | cons g groups ih =>
    have hlabel : firstLabel env g.labels scope = g.firstCase.map (expr env · scope) :=
      firstLabel_eq_map g
    have harm : arm env scope g = g.firstCase.map fun e =>
      ⟨expr env e scope, caseBody env g.body scope⟩ := rfl
    obtain ⟨labels, b⟩ := g
    simp only [cases, hlabel, ih]
    cases hdefault : (⟨labels, b⟩ : Java.SwitchGroup).isDefault with
    | true =>
      rw [List.filter_cons_of_neg (by simp [hdefault])]
      split <;> rfl
    | false =>
      rw [List.filter_cons_of_pos (by simp [hdefault]), List.filterMap_cons, harm]
      cases (⟨labels, b⟩ : Java.SwitchGroup).firstCase <;> rfl

theorem defaultBody_eq (groups : List Java.SwitchGroup) :
    defaultBody env groups scope =
      (groups.find? (·.isDefault)).map fun g => caseBody env g.body scope := by
  induction groups with
  | nil => rfl
  | cons g groups ih =>
    obtain ⟨labels, b⟩ := g
    rw [defaultBody, List.find?_cons]
    cases hg : (⟨labels, b⟩ : Java.SwitchGroup).isDefault with
    | true => rfl
    | false => exact ih

/-! ## Lists of declarations -/

theorem resourceList_eq_map (rs : List Java.Resource) :
    resourceList env rs scope = rs.map fun r =>
      ⟨typeRef r.ty, Ceylon.Name.small r.name, expr env r.init scope⟩ := by
  induction rs with
  | nil => rfl
  | cons r rs ih =>
    cases r
    rw [resourceList, ih, List.map_cons]

theorem catchList_eq_map (cs : List Java.CatchClause) :
    catchList env cs scope = cs.map fun c =>
      ⟨c.types.map typeRef, Ceylon.Name.small c.name, stmts env c.body scope⟩ := by
  induction cs with
  | nil => rfl
  | cons c cs ih =>
    cases c
    rw [catchList, ih, List.map_cons]

theorem members_eq_map (owner : Owner) (ms : List Java.Member) :
    members env owner ms scope = ms.map (member env owner · scope) := by
  induction ms with
  | nil => rfl
  | cons m ms ih => rw [members, ih, List.map_cons]

theorem constantList_eq_map (cs : List Java.EnumConstant) :
    constantList env cs scope = cs.map fun c => ⟨c.name, exprs env c.args scope⟩ := by
  induction cs with
  | nil => rfl
  | cons c cs ih =>
    cases c
    rw [constantList, ih, List.map_cons]

end CeylonFromJava.Conversion
