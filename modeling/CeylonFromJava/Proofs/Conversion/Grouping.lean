import CeylonFromJava.Proofs.Conversion.PlainExpr

/-! The text of an expression keeps its grouping.

`skeleton e` is what `e` says without its parentheses and casts. The text of a plain expression is
read back as its skeleton: each operand has the parentheses that the binding strength of its
surroundings asks for. So two plain expressions with the same text have the same skeleton. -/
namespace CeylonFromJava.Conversion
set_option autoImplicit false

open Java (Precedence UnaryOp BinaryOp)
open Ceylon
open Ceylon.Name
open Output (Piece)

/-! ## Skeletons -/

mutual
/-- The grouping of an expression: `a[i]` is the call `a.get(i)`, `~e` is the field `e.not`, and the
`&&` tree of a condition is the list of its operands. A type is the
type it is written as; for a class without arguments that is its name. -/
def skeleton : Java.Expr → Skeleton
  | .literal (.number text) => .number text
  | .name name => .name name
  | .thisRef => .thisRef
  | .superRef => .superRef
  | .paren inner => skeleton inner
  | .field target name => .field (skeleton target) name
  | .call target _ name args => .call (skeletonOption target) name (skeletonList args)
  | .index array index => .call (some (skeleton array)) "get" [skeleton index]
  | .assign target op value => .assign (skeleton target) op (skeleton value)
  | .unary .complement operand => .field (skeleton operand) "not"
  | .unary op operand => .unary op (skeleton operand)
  | .binary left op right => .binary (skeleton left) op (skeleton right)
  | .instanceOf operand ty => .isType (skeleton operand) (typeRef ty)
  | .conditional cond then' otherwise =>
    .conditional (skeleton cond).conjuncts (skeleton then') (skeleton otherwise)
  | .cast _ operand => skeleton operand
  | .literal _ | .create _ _ _ | .createArray _ _ _ _ | .arrayInit _ => .other

def skeletonOption : Option Java.Expr → Option Skeleton
  | none => none
  | some e => some (skeleton e)

def skeletonList : List Java.Expr → List Skeleton
  | [] => []
  | e :: es => skeleton e :: skeletonList es
end

attribute [local simp] skeleton

theorem skeleton_unary {op : UnaryOp} (hc : op ≠ .complement) (operand : Java.Expr) :
    skeleton (.unary op operand) = .unary op (skeleton operand) := by
  cases op with
  | complement => exact absurd rfl hc
  | _ => rfl

/-! ## Lists -/

section

variable {env : Env} {scope : Scope}

theorem readsList_exprs {es : List Java.Expr} (hne : es ≠ [])
    (h : ∀ e ∈ es, ∀ k, ReadsWhole (written env scope e k) (skeleton e)) (k : Nat) :
    ReadsList (Piece.chars (Ceylon.Expr.piecesList (exprs env es scope) k)) (skeletonList es) := by
  induction es generalizing k with
  | nil => exact absurd rfl hne
  | cons e es ih =>
    have he := (h e (List.mem_cons_self ..) k).readsList
    cases es with
    | nil => simpa [exprs, Ceylon.Expr.piecesList, skeletonList, written] using he
    | cons e' es =>
      have hes := ih (by simp) (fun a ha => h a (List.mem_cons_of_mem _ ha)) (k + (expr env e scope).temps)
      simpa [exprs, Ceylon.Expr.piecesList, skeletonList, written] using he.append hes

theorem readsItems_exprs {es : List Java.Expr}
    (h : ∀ e ∈ es, ∀ k, ReadsWhole (written env scope e k) (skeleton e)) (k : Nat) :
    ReadsItems (Piece.chars (Ceylon.Expr.piecesList (exprs env es scope) k)) (skeletonList es) := by
  cases es with
  | nil => exact readsItems_nil
  | cons e es => exact (readsList_exprs (by simp) h k).readsItems

theorem conditions_ne_nil (cond : Java.Expr) (whole : Unit → Ceylon.Expr) :
    conditions env cond scope whole ≠ [] := by
  rw [conditions.eq_def]
  split
  · next left right =>
    have h := conditions_ne_nil left (fun _ => expr env left scope)
    simp [h]
  · simp
  · simp
termination_by cond

theorem chars_conditions_append {cs ds : List Condition} (hc : cs ≠ []) (hd : ds ≠ []) (k : Nat) :
    Piece.chars (Condition.piecesList (cs ++ ds) k) =
      Piece.chars (Condition.piecesList cs k) ++ (", ".toList ++
        Piece.chars (Condition.piecesList ds (k + Condition.tempsList cs))) := by
  induction cs generalizing k with
  | nil => exact absurd rfl hc
  | cons c cs ih =>
    cases cs with
    | nil =>
      obtain ⟨d, ds, rfl⟩ := List.exists_cons_of_ne_nil hd
      simp [Condition.piecesList, Condition.tempsList]
    | cons c' cs =>
      have hcs := ih (by simp) (k + c.temps)
      simp [Condition.piecesList, Condition.tempsList, Nat.add_assoc] at hcs ⊢
      exact hcs

end

/-! ## Reading back -/

section

variable (env : Env) (scope : Scope)

/-- The condition list that an expression is written as. -/
def writtenConditions (e : Java.Expr) (k : Nat) : List Char :=
  Piece.chars (Condition.piecesList (conditions env e scope fun _ => expr env e scope) k)

/-- The text of `e` and its condition list are read as the skeleton of `e`. -/
structure ReadsBack (e : Java.Expr) : Prop where
  reads : ∀ k, Reads e.precedence (written env scope e k) (skeleton e)
  conditions : ∀ k, ReadsConditions (writtenConditions env scope e k) (skeleton e).conjuncts

variable {env scope}

/-- An expression that is one condition. -/
theorem ReadsBack.of_reads {e : Java.Expr}
    (hc : ∀ whole, Conversion.conditions env e scope whole = [.holds (whole ())])
    (h : ∀ k, Reads e.precedence (written env scope e k) (skeleton e)) : ReadsBack env scope e := by
  refine ⟨h, fun k => ?_⟩
  simp only [writtenConditions, hc, Condition.piecesList, Condition.pieces]
  exact (h k).whole.readsConditions

theorem ReadsBack.of_postfixed {e : Java.Expr}
    (hc : ∀ whole, Conversion.conditions env e scope whole = [.holds (whole ())])
    (h : ∀ k, ReadsPostfixed (written env scope e k) (skeleton e)) : ReadsBack env scope e :=
  .of_reads hc fun k => .of_postfixed _ (h k)

theorem ReadsBack.whole {e : Java.Expr} (h : ReadsBack env scope e) (k : Nat) :
    ReadsWhole (written env scope e k) (skeleton e) :=
  (h.reads k).whole

theorem ReadsBack.field {target : Java.Expr} {name : String} (h : ReadsBack env scope target)
    (hn : isIdentifier name = true) : ReadsBack env scope (.field target name) := by
  refine .of_postfixed (fun _ => rfl) fun k => ?_
  have hf := ((h.reads k).grouped_postfixed (Nat.le_refl _)).field hn (spells_small name)
  simpa [written, expr, Ceylon.Expr.pieces, chars_grouped] using hf

theorem ReadsBack.call (hg : env.config.convertGetters = false) {name : String}
    {args : List Java.Expr} (hn : isIdentifier name = true) (hp : name ≠ "println")
    (ha : ∀ a ∈ args, ReadsBack env scope a) : ReadsBack env scope (.call none [] name args) := by
  refine .of_postfixed (fun _ => rfl) fun k => ?_
  have hitems := readsItems_exprs (fun a h => (ha a h).whole) k
  have hc := readsPostfixed_call hn (spells_small name) isReserved_of_small hitems
  simpa [written, expr_call hg hp, callTarget, skeletonOption, Ceylon.Expr.pieces,
    Ceylon.Expr.targetPieces, Ceylon.Expr.tempsOption, typeArgsText] using hc

theorem ReadsBack.callOf (hg : env.config.convertGetters = false) {target : Java.Expr}
    {name : String} {args : List Java.Expr} (h : ReadsBack env scope target)
    (hn : isIdentifier name = true) (hp : name ≠ "println")
    (ha : ∀ a ∈ args, ReadsBack env scope a) :
    ReadsBack env scope (.call (some target) [] name args) := by
  refine .of_postfixed (fun _ => rfl) fun k => ?_
  have hitems := readsItems_exprs (fun a h => (ha a h).whole)
    (k + Ceylon.Expr.tempsOption (callTarget env (some target) scope))
  have hc := ((h.reads k).grouped_postfixed (Nat.le_refl _)).call hn (spells_small name) hitems
  simpa [written, expr_call hg hp, callTarget, skeletonOption, Ceylon.Expr.pieces,
    Ceylon.Expr.targetPieces, typeArgsText, chars_grouped] using hc

theorem ReadsBack.index {array index : Java.Expr} (ha : ReadsBack env scope array)
    (hi : ReadsBack env scope index) : ReadsBack env scope (.index array index) := by
  refine .of_postfixed (fun _ => rfl) fun k => ?_
  have hitem := (hi.whole (k + (grouped (array.precedence < .postfixed)
    (expr env array scope)).temps)).readsList.readsItems
  have hget : isIdentifier "get" = true := rfl
  have hc := ((ha.reads k).grouped_postfixed (Nat.le_refl _)).call hget (.inr rfl) hitem
  simpa [written, expr, Ceylon.Expr.pieces, chars_grouped] using hc

theorem ReadsBack.assign {target value : Java.Expr} (hp : isPlace target = true)
    (ht : ReadsBack env scope target) (hv : ReadsBack env scope value) (op : Java.AssignOp) :
    ReadsBack env scope (.assign target op value) := by
  have hprec : Precedence.unary ≤ target.precedence := by
    cases target with
    | name _ | field _ _ => show Precedence.unary ≤ Precedence.primary; decide
    | _ => cases hp
  refine .of_reads (fun _ => rfl) fun k => .of_between (by show Precedence.assignment < _; decide) ?_
  have ha := ((ht.reads k).unary hprec).assign (hv.whole (k + (expr env target scope).temps)) op
  simpa [written, expr_assign hp, Java.Expr.precedence, Ceylon.Expr.pieces, Infix.chars,
    Infix.symbol] using ha

theorem ReadsBack.cast {operand : Java.Expr} (h : ReadsBack env scope operand) (ty : Java.TypeRef) :
    ReadsBack env scope (.cast ty operand) := by
  refine .of_reads (fun _ => rfl) fun k => .of_unary ?_
  have hu := (h.reads k).grouped_unary false
  simpa [written_cast] using hu

theorem written_before {op : UnaryOp} (hop : op.isPostfix = false) (hc : op ≠ .complement)
    (operand : Java.Expr) (k : Nat) :
    written env scope (.unary op operand) k =
      op.symbol.toList ++ groupedChars
        (leadingSign operand == op.symbol.toList.head? || operand.precedence < .unary)
        (written env scope operand k) := by
  cases op with
  | complement => exact absurd rfl hc
  | postIncrement | postDecrement => cases hop
  | _ => simp [written, expr, Ceylon.Expr.pieces, chars_grouped]

theorem ReadsBack.before {operand : Java.Expr} {op : UnaryOp} (h : ReadsBack env scope operand)
    (hs : ∀ k, Starts operand (written env scope operand k)) (hop : op.isPostfix = false)
    (hc : op ≠ .complement) : ReadsBack env scope (.unary op operand) := by
  refine .of_reads (fun _ => rfl) fun k => ?_
  have hu := (h.reads k).grouped_unary (leadingSign operand == op.symbol.toList.head?)
  have hb := hu.before hop hc (groupedChars_ne_nil (hs k).nonempty _)
    (by rintro rfl; exact (hs k).grouped_head (.inl rfl))
    (by rintro rfl; exact (hs k).grouped_head (.inr rfl))
  have hprec : (Java.Expr.unary op operand).precedence = .unary := by
    simp [Java.Expr.precedence, hop]
  rw [written_before hop hc, skeleton_unary hc, hprec]
  exact .of_unary hb

theorem ReadsBack.behind {operand : Java.Expr} {op : UnaryOp} (h : ReadsBack env scope operand)
    (hop : op.isPostfix = true) : ReadsBack env scope (.unary op operand) := by
  refine .of_postfixed (fun _ => rfl) fun k => ?_
  have hb := ((h.reads k).grouped_postfixed (Nat.le_refl _)).behind hop
  cases op with
  | postIncrement | postDecrement =>
    simpa [written, expr, Ceylon.Expr.pieces, chars_grouped] using hb
  | _ => cases hop

theorem ReadsBack.complement {operand : Java.Expr} (h : ReadsBack env scope operand) :
    ReadsBack env scope (.unary .complement operand) := by
  refine .of_postfixed (fun _ => rfl) fun k => ?_
  have hnot : isIdentifier "not" = true := rfl
  have hle : Precedence.postfixed ≤ Precedence.primary := by decide
  have hf := ((h.reads k).grouped_postfixed hle).field hnot (.inr rfl)
  simpa [written, expr, Ceylon.Expr.pieces, chars_grouped] using hf

theorem ReadsBack.unary {operand : Java.Expr} (h : ReadsBack env scope operand)
    (hs : ∀ k, Starts operand (written env scope operand k)) (op : UnaryOp) :
    ReadsBack env scope (.unary op operand) := by
  by_cases hc : op = .complement
  · exact hc ▸ h.complement
  · cases hop : op.isPostfix with
    | true => exact h.behind hop
    | false => exact h.before hs hop hc

theorem ReadsBack.binary {left right : Java.Expr} (hl : ReadsBack env scope left)
    (hr : ReadsBack env scope right) (hp : Plain right) (op : BinaryOp) :
    ReadsBack env scope (.binary left op right) := by
  have hreads : ∀ k, Reads op.precedence (written env scope (.binary left op right) k)
      (skeleton (.binary left op right)) := by
    intro k
    refine .of_between (precedence_lt_unary op) ?_
    have hleft := (hl.reads k).grouped_between op.precedence
    have hright := (hr.reads (k + (grouped (left.precedence < op.precedence)
      (expr env left scope)).temps)).grouped_between (op.precedence + 1)
    have hb := hleft.binary hright
    simpa [written, expr_binary hp, Ceylon.Expr.pieces, chars_grouped, Infix.chars,
      Infix.symbol] using hb
  by_cases hand : op = .and
  · subst hand
    refine ⟨hreads, fun k => ?_⟩
    have hc := (hl.conditions k).append (hr.conditions (k + Condition.tempsList
      (Conversion.conditions env left scope fun _ => expr env left scope)))
    simp only [writtenConditions, Conversion.conditions]
    rw [chars_conditions_append (conditions_ne_nil _ _) (conditions_ne_nil _ _)]
    exact hc
  · refine .of_reads (fun whole => ?_) hreads
    cases op with
    | and => exact absurd rfl hand
    | _ => rfl

theorem ReadsBack.instanceOf {operand : Java.Expr} {ty : Java.TypeRef}
    (h : ReadsBack env scope operand) (hty : (typeRef ty).Named) :
    ReadsBack env scope (.instanceOf operand ty) := by
  constructor
  · intro k
    refine .of_between (by show Precedence.relational < _; decide) ?_
    have ht := ((h.reads k).grouped_between _).isType hty
    simpa [written, expr, Java.Expr.precedence, Ceylon.Expr.pieces, chars_grouped, Infix.chars,
      Infix.symbol, Ty.text] using ht
  · intro k
    have ht := (readsWhole_isType (h.whole k) hty).readsConditions
    simpa [writtenConditions, Conversion.conditions, Condition.piecesList, Condition.pieces,
      Ty.text, written] using ht

theorem ReadsBack.conditional {cond then' otherwise : Java.Expr} (hc : ReadsBack env scope cond)
    (ht : ReadsBack env scope then') (ho : ReadsBack env scope otherwise) :
    ReadsBack env scope (.conditional cond then' otherwise) := by
  refine .of_reads (fun _ => rfl) fun k => ?_
  refine .of_between (by show Precedence.conditional < _; decide) ?_
  have h := readsAt_conditional (hc.conditions k) (ht.whole (k + Condition.tempsList
    (Conversion.conditions env cond scope fun _ => expr env cond scope)))
    (ho.whole (k + Condition.tempsList
      (Conversion.conditions env cond scope fun _ => expr env cond scope) +
      (expr env then' scope).temps))
  simpa [written, writtenConditions, expr, Java.Expr.precedence, Ceylon.Expr.pieces]
    using h

/-- The text of a plain expression is read as its skeleton. -/
theorem Plain.readsBack (hg : env.config.convertGetters = false) {e : Java.Expr} (h : Plain e) :
    ReadsBack env scope e := by
  induction h with
  | number h =>
    refine .of_postfixed (fun _ => rfl) fun k => ?_
    simpa [written, expr, Ceylon.Expr.pieces, literalText] using readsPostfixed_number h
  | @name name h =>
    refine .of_postfixed (fun _ => rfl) fun k => ?_
    have hn := readsPostfixed_name h (spells_word name) isReserved_of_word
    simpa [written, expr, Ceylon.Expr.pieces] using hn
  | thisRef => exact .of_postfixed (fun _ => rfl) fun _ => readsPostfixed_this
  | superRef => exact .of_postfixed (fun _ => rfl) fun _ => readsPostfixed_super
  | paren _ ih =>
    refine .of_postfixed (fun _ => rfl) fun k => ?_
    simpa [written, expr, Ceylon.Expr.pieces] using (ih.whole k).parenthesized
  | field _ hn ih => exact ih.field hn
  | call hn hp _ ih => exact .call hg hn hp ih
  | callOf _ hn hp _ ih iha => exact ih.callOf hg hn hp iha
  | index _ _ iha ihi => exact iha.index ihi
  | assign hp _ _ iht ihv => exact .assign hp iht ihv _
  | unary h ih => exact ih.unary (h.starts hg) _
  | binary _ hr ihl ihr => exact ihl.binary ihr hr _
  | instanceOf _ hty ih => exact ih.instanceOf hty
  | conditional _ _ _ ihc iht iho => exact ihc.conditional iht iho
  | cast _ ih => exact ih.cast _

end

/-! ## Grouping -/

/-- Plain expressions that are written alike have the same skeleton, wherever they stand. -/
theorem skeleton_eq_of_text_eq {env₁ env₂ : Env} (hg₁ : env₁.config.convertGetters = false)
    (hg₂ : env₂.config.convertGetters = false) {e₁ e₂ : Java.Expr} (h₁ : Plain e₁) (h₂ : Plain e₂)
    (scope₁ scope₂ : Scope) (k₁ k₂ level : Nat) (fresh : Bool)
    (h : String.join (Piece.lines level fresh ((expr env₁ e₁ scope₁).pieces k₁)) =
      String.join (Piece.lines level fresh ((expr env₂ e₂ scope₂).pieces k₂))) :
    skeleton e₁ = skeleton e₂ := by
  have hchars : written env₁ scope₁ e₁ k₁ = written env₂ scope₂ e₂ k₂ :=
    Piece.chars_eq_of_lines_eq level fresh ((h₁.staysInline hg₁).expr k₁)
      ((h₂.staysInline hg₂).expr k₂) (h₁.starts hg₁ k₁).nonempty (h₂.starts hg₂ k₂).nonempty h
  have hread₁ : ReadsWhole (written env₁ scope₁ e₁ k₁) (skeleton e₁) := (h₁.readsBack hg₁).whole k₁
  have hread₂ : ReadsWhole (written env₂ scope₂ e₂ k₂) (skeleton e₂) := (h₂.readsBack hg₂).whole k₂
  rw [← hchars] at hread₂
  exact congrArg Prod.fst ((hread₁ [] ends_nil).unique (hread₂ [] ends_nil))

/-- `-(T) -a[i]` is written as `-(-a.get(i))` is: parentheses keep the signs apart. -/
theorem skeleton_eq_of_text_eq_signs :
    let env : Env := ⟨.default, fun _ _ => []⟩
    let e₁ : Java.Expr := .unary .minus
      (.cast (.classType [⟨"T", []⟩]) (.unary .minus (.index (.name "a") (.name "i"))))
    let e₂ : Java.Expr := .unary .minus
      (.paren (.unary .minus (.call (some (.name "a")) [] "get" [.name "i"])))
    Plain e₁ ∧ Plain e₂ ∧
      Piece.render ((expr env e₁ []).pieces 0) = Piece.render ((expr env e₂ []).pieces 0) ∧
      skeleton e₁ = skeleton e₂ := by
  intro env e₁ e₂
  have ha : Plain (.name "a") := .name rfl
  have hi : Plain (.name "i") := .name rfl
  have h₁ : Plain e₁ := .unary (.cast (.unary (.index ha hi)))
  have h₂ : Plain e₂ := .unary (.paren (.unary (.callOf ha rfl (by decide) (by simpa using hi))))
  have ht : Piece.render ((expr env e₁ []).pieces 0) = Piece.render ((expr env e₂ []).pieces 0) := by
    decide
  exact ⟨h₁, h₂, ht, skeleton_eq_of_text_eq rfl rfl h₁ h₂ [] [] 0 0 0 true ht⟩

/-- `x instanceof Foo<?>` and `x instanceof Foo<? extends Anything>` are written alike. A reading of
expressions that goes through type tests, and changes no type, keeps the two apart. -/
theorem typeTests_written_alike :
    let env : Env := ⟨.default, fun _ _ => []⟩
    let test (arg : Java.TypeArg) : Java.Expr :=
      .instanceOf (.name "x") (.classType [⟨"Foo", [arg]⟩])
    let free := test .unbounded
    let bounded := test (.extending (.classType [⟨"Anything", []⟩]))
    Plain free ∧ Plain bounded ∧
      Piece.render ((expr env free []).pieces 0) = "x is Foo<out Anything>" ∧
      Piece.render ((expr env bounded []).pieces 0) = "x is Foo<out Anything>" ∧
      ∀ read : Java.Expr → Java.Expr,
        (∀ operand ty, read (.instanceOf operand ty) = .instanceOf (read operand) ty) →
          read free ≠ read bounded := by
  intro env test free bounded
  have hanything : Ty.Named [⟨"Anything", []⟩] := .last rfl nofun
  have hfoo : Ty.Named [⟨"Foo", [⟨.covariant, [⟨"Anything", []⟩]⟩]⟩] := .last rfl (by simpa using hanything)
  refine ⟨.instanceOf (.name rfl) hfoo, .instanceOf (.name rfl) hfoo, by decide +kernel,
    by decide +kernel, ?_⟩
  intro read hread heq
  rw [hread, hread] at heq
  cases heq

end CeylonFromJava.Conversion