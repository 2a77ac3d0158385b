import CeylonFromJava.Conversion.Unit
import CeylonFromJava.Proofs.Conversion.CountingLoop
import CeylonFromJava.Proofs.Conversion.PlainExpr

/-! How a name is spelled where it is declared and where it is used.

A declaration has a place for the name, and what is written around that place does not depend on the
name. In the place stands the spelling with a small initial, at every kind of declaration. Accesses to
fields and calls of methods have the same spelling. A simple name has its own spelling, which marks
reserved words only. -/
namespace CeylonFromJava.Ceylon
set_option autoImplicit false

theorem Resource.tempsList_append (rs rs' : List Resource) :
    Resource.tempsList (rs ++ rs') = Resource.tempsList rs + Resource.tempsList rs' := by
  induction rs with
  | nil => simp [Resource.tempsList]
  | cons r rs ih =>
    cases r
    simp [Resource.tempsList, ih, Nat.add_assoc]

theorem Catch.tempsList_append (cs cs' : List Catch) :
    Catch.tempsList (cs ++ cs') = Catch.tempsList cs + Catch.tempsList cs' := by
  induction cs with
  | nil => simp [Catch.tempsList]
  | cons c cs ih =>
    cases c
    simp [Catch.tempsList, ih, Nat.add_assoc]

end CeylonFromJava.Ceylon

namespace CeylonFromJava.Conversion
set_option autoImplicit false

open Output (Piece)
open Ceylon.Name (small word marker isReserved startsLarge)

/-! ## Places for a name -/

/-- What is written for the given names is the same but for one piece, the name in a spelling. -/
def SpelledOn (names : String → Prop) (spelling : String → String)
    (written : String → List Piece) : Prop :=
  ∃ before after, ∀ n, names n → written n = before ++ .text (spelling n) :: after

/-- The same for all names. -/
def Spelled (spelling : String → String) (written : String → List Piece) : Prop :=
  SpelledOn (fun _ => True) spelling written

section

variable {names : String → Prop} {spelling : String → String} {written : String → List Piece}

theorem spelledOn_here (after : List Piece) :
    SpelledOn names spelling fun n => .text (spelling n) :: after :=
  ⟨[], after, fun _ _ => rfl⟩

theorem SpelledOn.of_eq {written' : String → List Piece} (h : SpelledOn names spelling written')
    (heq : ∀ n, names n → written n = written' n) : SpelledOn names spelling written := by
  obtain ⟨before, after, h⟩ := h
  exact ⟨before, after, fun n hn => (heq n hn).trans (h n hn)⟩

theorem SpelledOn.append_left (h : SpelledOn names spelling written) (ps : List Piece) :
    SpelledOn names spelling fun n => ps ++ written n := by
  obtain ⟨before, after, h⟩ := h
  exact ⟨ps ++ before, after, fun n hn => by simp only [h n hn, List.append_assoc]⟩

theorem SpelledOn.append_right (h : SpelledOn names spelling written) (ps : List Piece) :
    SpelledOn names spelling fun n => written n ++ ps := by
  obtain ⟨before, after, h⟩ := h
  refine ⟨before, after ++ ps, fun n hn => ?_⟩
  simp only [h n hn, List.append_assoc, List.cons_append]

theorem SpelledOn.cons (h : SpelledOn names spelling written) (p : Piece) :
    SpelledOn names spelling fun n => p :: written n :=
  h.append_left [p]

end

/-! ## Layouts of lists

The name stands in one entry of a list, with any entries before and after it. -/

section

variable {spelling : String → String}

theorem spelled_separated {entry : String → List Piece} (h : Spelled spelling entry)
    (between : String) (before after : List (List Piece)) :
    Spelled spelling fun n => Piece.separated between (before ++ entry n :: after) := by
  induction before with
  | nil =>
    cases after with
    | nil => exact h
    | cons ps after => exact h.append_right _
  | cons ps before ih =>
    have hne (n : String) : before ++ entry n :: after ≠ [] := by simp
    have hcons (n : String) : Piece.separated between (ps :: (before ++ entry n :: after)) =
        ps ++ .text between :: Piece.separated between (before ++ entry n :: after) := by
      obtain ⟨q, qs, hq⟩ := List.exists_cons_of_ne_nil (hne n)
      rw [hq]
      rfl
    simp only [List.cons_append, hcons]
    exact (ih.cons _).append_left _

theorem spelled_fieldPieces (before after : List Ceylon.Declarator) (init : Option Ceylon.Expr)
    (isShared isVariable : Bool) (ty : Ceylon.Ty) (k : Nat) :
    Spelled spelling fun n => Ceylon.Declarator.fieldPieces
      (before ++ ⟨spelling n, init⟩ :: after) isShared isVariable ty k := by
  induction before generalizing k with
  | nil =>
    simp only [List.nil_append, Ceylon.Declarator.fieldPieces, List.append_assoc, List.cons_append]
    exact ((((spelledOn_here _).cons _).cons _).append_left _).append_left _
  | cons d before ih =>
    cases d
    simp only [List.cons_append]
    simp only [Ceylon.Declarator.fieldPieces]
    exact (ih _).append_left _

theorem spelled_furtherPieces (before after : List Ceylon.Resource) (ty : Ceylon.Ty)
    (init : Ceylon.Expr) (k : Nat) :
    Spelled spelling fun n => Ceylon.Resource.furtherPieces
      (before ++ ⟨ty, spelling n, init⟩ :: after) k := by
  induction before generalizing k with
  | nil =>
    simp only [List.nil_append, Ceylon.Resource.furtherPieces, List.cons_append]
    exact (((spelledOn_here _).cons _).cons _).cons _
  | cons r before ih =>
    cases r
    simp only [List.cons_append]
    simp only [Ceylon.Resource.furtherPieces]
    exact (ih _).append_left _

theorem spelled_listPieces (before after : List Ceylon.Resource) (ty : Ceylon.Ty)
    (init : Ceylon.Expr) (k : Nat) :
    Spelled spelling fun n => Ceylon.Resource.listPieces
      (before ++ ⟨ty, spelling n, init⟩ :: after) k := by
  cases before with
  | nil =>
    simp only [List.nil_append, Ceylon.Resource.listPieces, List.append_assoc, List.cons_append]
    exact (((spelledOn_here _).cons _).cons _).cons _
  | cons r before =>
    cases r
    simp only [List.cons_append]
    simp only [Ceylon.Resource.listPieces]
    exact ((spelled_furtherPieces before after ty init _).append_left _).append_right _

theorem spelled_catchPieces (before after : List Ceylon.Catch) (types : List Ceylon.Ty)
    (body : List Ceylon.Stmt) (k : Nat) :
    Spelled spelling fun n => Ceylon.Catch.piecesList
      (before ++ ⟨types, spelling n, body⟩ :: after) k := by
  induction before generalizing k with
  | nil =>
    simp only [List.nil_append, Ceylon.Catch.piecesList, List.cons_append]
    exact (((spelledOn_here _).cons _).cons _).cons _
  | cons c before ih =>
    cases c
    simp only [List.cons_append]
    simp only [Ceylon.Catch.piecesList]
    exact (ih _).append_left _

end

/-! ## Declarations -/

section

variable (env : Env) (scope : Scope)

theorem spelled_localValue (ty : Java.TypeRef) (init : Option Java.Expr) (k : Nat) :
    Spelled small fun n => (localValue env scope ty init (small n)).pieces k := by
  cases init with
  | none =>
    simp only [localValue, Ceylon.Stmt.pieces, List.append_assoc, List.cons_append]
    exact (((spelledOn_here _).cons _).cons _).append_left _
  | some init =>
    simp only [localValue]
    split
    · simp only [Ceylon.Stmt.pieces, List.append_assoc, List.cons_append]
      exact (((spelledOn_here _).cons _).cons _).cons _
    · simp only [Ceylon.Stmt.pieces, List.append_assoc, List.cons_append]
      exact (((spelledOn_here _).cons _).cons _).append_left _

/-- The name makes no difference to the temporary numbers. -/
theorem temps_localValue (ty : Java.TypeRef) (init : Option Java.Expr) (name : String) :
    (localValue env scope ty init name).temps =
      Ceylon.Expr.tempsOption (init.map fun init => expr env init scope) := by
  cases init with
  | none => rfl
  | some init =>
    rw [localValue]
    split <;> rfl

theorem spelled_locals (before after : List Java.Declarator) (ty : Java.TypeRef)
    (init : Option Java.Expr) (k : Nat) : Spelled small fun n =>
      Ceylon.Stmt.piecesList (locals env (before ++ ⟨n, init⟩ :: after) ty scope) k := by
  simp only [locals_eq_map, List.map_append, List.map_cons, piecesList_append,
    Ceylon.Stmt.piecesList, temps_localValue]
  exact ((spelled_localValue env scope ty init _).append_right _).append_left _

theorem temps_locals (before after : List Java.Declarator) (ty : Java.TypeRef)
    (init : Option Java.Expr) (n : String) :
    Ceylon.Stmt.tempsList (locals env (before ++ ⟨n, init⟩ :: after) ty scope) =
      Ceylon.Stmt.tempsList (locals env before ty scope) +
        (Ceylon.Expr.tempsOption (init.map fun init => expr env init scope) +
          Ceylon.Stmt.tempsList (locals env after ty scope)) := by
  simp only [locals_eq_map, List.map_append, List.map_cons, tempsList_append,
    Ceylon.Stmt.tempsList, temps_localValue]

theorem spelled_param (modifiers : List Java.Modifier) (ty : Java.TypeRef) (varargs : Bool) :
    Spelled small fun n => (param env.config ⟨modifiers, ty, n, varargs⟩).pieces := by
  simp only [param, Ceylon.Param.pieces, List.append_assoc, List.cons_append, List.nil_append]
  exact ((((spelledOn_here []).cons _).append_left _).cons _).append_left _

end

/-- Members that declare a variable, a field or a parameter, with its name left open. -/
inductive MemberDeclares : (String → Java.Member) → Prop
  | field (modifiers : List Java.Modifier) (ty : Java.TypeRef) (before : List Java.Declarator)
      (init : Option Java.Expr) (after : List Java.Declarator) :
    MemberDeclares fun n => .field ⟨modifiers, ty, before ++ ⟨n, init⟩ :: after⟩
  | methodParam (modifiers : List Java.Modifier) (typeParams : List Java.TypeParam)
      (result : Option Java.TypeRef) (method : String) (before : List Java.Param)
      (own : List Java.Modifier) (ty : Java.TypeRef) (varargs : Bool) (after : List Java.Param)
      (body : Option (List Java.Stmt)) :
    MemberDeclares fun n => .method
      ⟨modifiers, typeParams, result, method, before ++ ⟨own, ty, n, varargs⟩ :: after, body⟩
  | constructorParam (modifiers : List Java.Modifier) (type : String) (before : List Java.Param)
      (own : List Java.Modifier) (ty : Java.TypeRef) (varargs : Bool) (after : List Java.Param)
      (body : List Java.Stmt) :
    MemberDeclares fun n => .constructor
      ⟨modifiers, type, before ++ ⟨own, ty, n, varargs⟩ :: after, body⟩

/-- Statements that declare a variable, with its name left open. -/
inductive StmtDeclares : (String → Java.Stmt) → Prop
  | localVar (modifiers : List Java.Modifier) (ty : Java.TypeRef) (before : List Java.Declarator)
      (init : Option Java.Expr) (after : List Java.Declarator) :
    StmtDeclares fun n => .localVar ⟨modifiers, ty, before ++ ⟨n, init⟩ :: after⟩
  | forLoop (modifiers : List Java.Modifier) (ty : Java.TypeRef) (before : List Java.Declarator)
      (init : Option Java.Expr) (after : List Java.Declarator) (cond : Option Java.Expr)
      (update : List Java.Expr) (body : Java.Stmt) :
    StmtDeclares fun n => .forLoop
      (some (.declare ⟨modifiers, ty, before ++ ⟨n, init⟩ :: after⟩)) cond update body
  | forEach (ty : Java.TypeRef) (iterable : Java.Expr) (body : Java.Stmt) :
    StmtDeclares fun n => .forEach ty n iterable body
  | resource (before : List Java.Resource) (ty : Java.TypeRef) (init : Java.Expr)
      (after : List Java.Resource) (body : List Java.Stmt) (catches : List Java.CatchClause)
      (last : Option (List Java.Stmt)) :
    StmtDeclares fun n => .tryCatch (before ++ ⟨ty, n, init⟩ :: after) body catches last
  | caught (resources : List Java.Resource) (body : List Java.Stmt)
      (before : List Java.CatchClause) (types : List Java.TypeRef) (handler : List Java.Stmt)
      (after : List Java.CatchClause) (last : Option (List Java.Stmt)) :
    StmtDeclares fun n => .tryCatch resources body (before ++ ⟨types, n, handler⟩ :: after) last

section

variable {env : Env} {scope : Scope}

theorem MemberDeclares.spelled {d : String → Java.Member} (h : MemberDeclares d) (owner : Owner)
    (k : Nat) : Spelled small fun n => (member env owner (d n) scope).pieces k := by
  cases h with
  | field modifiers ty before init after =>
    simp only [member, Ceylon.Member.pieces, fieldList_eq_map, List.map_append, List.map_cons]
    exact spelled_fieldPieces ..
  | methodParam modifiers typeParams result method before own ty varargs after body =>
    simp only [member, Ceylon.Member.pieces, Ceylon.Method.pieces, Ceylon.paramPieces,
      List.map_append, List.map_cons]
    have hparams := spelled_separated (spelled_param env own ty varargs) ", "
    exact ((((hparams _ _).append_left _).append_right _).append_right _).append_right _
  | constructorParam modifiers type before own ty varargs after body =>
    have hparam := spelled_param env own ty varargs
    cases owner with
    | ofClass | ofInterface =>
      simp only [member, Ceylon.Member.pieces, Ceylon.paramPieces, List.map_append, List.map_cons,
        List.append_assoc]
      exact (((spelled_separated hparam ", " _ _).cons _).append_right _).append_left _
    | ofEnum name =>
      -- here a parameter comes first that is not in the source
      simp only [member, Ceylon.Member.pieces, List.map_append, List.map_cons,
        List.flatMap_append, List.flatMap_cons, List.append_assoc]
      exact (((hparam.cons _).append_right _).append_left _).append_left _

theorem StmtDeclares.spelled {d : String → Java.Stmt} (h : StmtDeclares d) (k : Nat) :
    Spelled small fun n => Ceylon.Stmt.piecesList (stmt env (d n) scope) k := by
  cases h with
  | localVar modifiers ty before init after =>
    simp only [stmt]
    exact spelled_locals ..
  | forLoop modifiers ty before init after cond update body =>
    -- the loop starts with the number that the locals leave, which is the same for all names
    simp only [stmt, forInit, piecesList_append, temps_locals]
    exact (spelled_locals ..).append_right _
  | forEach ty iterable body =>
    simp only [stmt, Ceylon.Stmt.piecesList, Ceylon.Stmt.pieces, List.append_assoc,
      List.cons_append]
    exact (((spelledOn_here _).cons _).cons _).cons _
  | resource before ty init after body catches last =>
    simp only [stmt, Ceylon.Stmt.piecesList, Ceylon.Stmt.pieces, resourceList_eq_map,
      List.map_append, List.map_cons, Ceylon.Resource.tempsList_append, Ceylon.Resource.tempsList,
      List.append_assoc, List.cons_append]
    exact ((spelled_listPieces ..).append_right _).cons _
  | caught resources body before types handler after last =>
    simp only [stmt, Ceylon.Stmt.piecesList, Ceylon.Stmt.pieces, catchList_eq_map,
      List.map_append, List.map_cons, Ceylon.Catch.tempsList_append, Ceylon.Catch.tempsList,
      List.append_assoc, List.cons_append]
    exact ((((spelled_catchPieces ..).append_right _).append_left _).append_left _).cons _

theorem spelled_method (owner : Owner) (modifiers : List Java.Modifier)
    (typeParams : List Java.TypeParam) (result : Option Java.TypeRef) (params : List Java.Param)
    (body : Option (List Java.Stmt)) (k : Nat) : Spelled small fun n =>
      (member env owner (.method ⟨modifiers, typeParams, result, n, params, body⟩) scope).pieces
        k := by
  simp only [member, Ceylon.Member.pieces, Ceylon.Method.pieces, List.append_assoc,
    List.cons_append]
  exact ((((((spelledOn_here _).cons _).cons _).append_left _).append_left _).append_left
    _).append_left _

/-! ## Uses -/

theorem spelled_field (target : Java.Expr) (k : Nat) :
    Spelled small fun n => (expr env (.field target n) scope).pieces k := by
  simp only [expr, Ceylon.Expr.pieces]
  exact ((spelledOn_here []).cons _).append_left _

/-- Apart from the line printer of the console, which has a name of its own. -/
theorem spelled_call (h : env.config.convertGetters = false) (target : Option Java.Expr)
    (typeArgs : List Java.TypeRef) (args : List Java.Expr) (k : Nat) :
    SpelledOn (fun n => ¬ (n = "println" ∧ target.any isSystemOut = true)) small fun n =>
      (expr env (.call target typeArgs n args) scope).pieces k := by
  have hcall (n : String) (hn : ¬ (n = "println" ∧ target.any isSystemOut = true)) :
      expr env (.call target typeArgs n args) scope =
        .call (callTarget env target scope) (small n) (typeArgs.map typeRef)
          (exprs env args scope) := by
    rw [expr, if_neg (by simpa using hn), propertyOf, h]
    rfl
  refine SpelledOn.of_eq ?_ fun n hn => by rw [hcall n hn, Ceylon.Expr.pieces]
  exact (((spelledOn_here _).append_left _).append_right _).append_right _

theorem exists_pieces_println {target : Option Java.Expr} (h : target.any isSystemOut = true)
    (typeArgs : List Java.TypeRef) (args : List Java.Expr) (k : Nat) :
    ∃ after, (expr env (.call target typeArgs "println" args) scope).pieces k =
      .text "print" :: after := by
  rw [expr, h]
  exact ⟨_, rfl⟩

end

/-! ## The two spellings -/

theorem word_eq_small_iff {n : String} :
    word n = small n ↔ isReserved n = true ∨ startsLarge n = false := by
  unfold word small
  cases isReserved n with
  | true => simp
  | false =>
    cases startsLarge n with
    | true =>
      have hmarked : n ≠ marker ++ n := fun h => marker_append_ne n (congrArg String.toList h.symm)
      simpa using hmarked
    | false => simp

/-- Every declaration of a variable or a method has its name in the spelling with a small initial,
and so has every access to a field, and every call if accessor calls are kept, the line printer of the
console apart. A simple name has the same spelling exactly if it is reserved or starts small. -/
theorem declared_and_used_spellings (env : Env) (scope : Scope) (k : Nat) :
    (∀ d, MemberDeclares d → ∀ owner,
      Spelled small fun n => (member env owner (d n) scope).pieces k) ∧
    (∀ d, StmtDeclares d →
      Spelled small fun n => Ceylon.Stmt.piecesList (stmt env (d n) scope) k) ∧
    (∀ target, Spelled small fun n => (expr env (.field target n) scope).pieces k) ∧
    (∀ n, (expr env (.name n) scope).pieces k = [.text (word n)] ∧
      (word n = small n ↔ isReserved n = true ∨ startsLarge n = false)) ∧
    (∀ owner modifiers typeParams result params body, Spelled small fun n =>
      (member env owner (.method ⟨modifiers, typeParams, result, n, params, body⟩) scope).pieces
        k) ∧
    (env.config.convertGetters = false → ∀ target typeArgs args,
      SpelledOn (fun n => ¬ (n = "println" ∧ target.any isSystemOut = true)) small
        fun n => (expr env (.call target typeArgs n args) scope).pieces k) ∧
    (∀ target typeArgs args, target.any isSystemOut = true → ∃ after,
      (expr env (.call target typeArgs "println" args) scope).pieces k =
        .text "print" :: after) := by
  refine ⟨fun d hd owner => hd.spelled owner k, fun d hd => hd.spelled k,
    fun target => spelled_field target k, fun n => ⟨?_, word_eq_small_iff⟩,
    fun owner modifiers typeParams result params body =>
      spelled_method owner modifiers typeParams result params body k,
    fun h target typeArgs args => spelled_call h target typeArgs args k,
    fun target typeArgs args h => exists_pieces_println h typeArgs args k⟩
  rw [expr, Ceylon.Expr.pieces, Ceylon.Script.name_eq]

/-- The second of two fields, the second of two resources, calls of a method of a field, and the name
`_`, which is marked where it is declared but not where it is used. -/
theorem declared_and_used_spellings_second :
    let env : Env := ⟨.default, fun _ _ => []⟩
    let fields := fun n => Java.Member.field
      ⟨[.publicAccess], .primitive .int, [⟨"a", none⟩] ++ ⟨n, some (.name "a")⟩ :: []⟩
    let resources := fun n => Java.Stmt.tryCatch
      ([⟨.primitive .int, "in", .name "a"⟩] ++ ⟨.primitive .int, n, .name "in"⟩ :: []) [] [] none
    let own : Option Java.Expr := some (.field .thisRef "out")
    let console : Option Java.Expr := some (.name "System.out")
    MemberDeclares fields ∧ Spelled small (fun n => (member env .ofClass (fields n) []).pieces 0) ∧
      StmtDeclares resources ∧
      Spelled small (fun n => Ceylon.Stmt.piecesList (stmt env (resources n) []) 0) ∧
      env.config.convertGetters = false ∧
      SpelledOn (fun n => ¬ (n = "println" ∧ own.any isSystemOut = true)) small
        (fun n => (expr env (.call own [] n [.name "in"]) []).pieces 0) ∧
      console.any isSystemOut = true ∧
      (∃ after, (expr env (.call console [] "println" [.name "in"]) []).pieces 0 =
        .text "print" :: after) ∧
      word "in" = small "in" ∧ word "_" ≠ small "_" := by
  intro env fields resources own console
  obtain ⟨hmember, hstmt, -, hname, -, hcall, hprint⟩ := declared_and_used_spellings env [] 0
  have hfields : MemberDeclares fields := .field ..
  have hresources : StmtDeclares resources := .resource ..
  have hconsole : console.any isSystemOut = true := by decide
  refine ⟨hfields, hmember _ hfields _, hresources, hstmt _ hresources, rfl, hcall rfl _ _ _,
    hconsole, hprint _ _ _ hconsole, (hname "in").2.mpr (by decide +kernel), fun h => ?_⟩
  exact absurd ((hname "_").2.mp h) (by decide +kernel)

/-- A field that starts large is marked where it is declared, but not where it is used by its simple
name. -/
theorem large_name_unmarked_in_use :
    let returning := fun e => (⟨none, [], [.ofClass ⟨[], "C", [], none, [],
      [.field ⟨[], .primitive .int, [⟨"URL", none⟩]⟩,
        .method ⟨[], [], none, "m", [], some [.returnValue (some e)]⟩]⟩]⟩ : Java.CompilationUnit)
    let written := fun use => "class C() \x7b\n    Integer \\iURL;\n\n" ++
      "    void m() \x7b\n        return " ++ use ++ ";\n    \x7d\n\x7d\n"
    text .default (returning (.name "URL")) = written "URL" ∧
      text .default (returning (.field .thisRef "URL")) = written "this.\\iURL" := by
  decide +kernel

end CeylonFromJava.Conversion
