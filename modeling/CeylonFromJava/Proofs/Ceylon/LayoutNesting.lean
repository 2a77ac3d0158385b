import CeylonFromJava.Ceylon.Source
import CeylonFromJava.Proofs.Output.Nesting

/-! Trees are laid out in nested pieces, and a source file ends its last line. -/
namespace CeylonFromJava.Ceylon
set_option autoImplicit false

open Output (Piece)
open Output.Piece (Nested EndsLine levelAfter_nil nested_separated nested_flatMap endsLine_nil
  endsLine_append_newline)

/-! ## Words -/

@[simp] theorem nested_wordIf (wanted : Bool) (word : String) : Nested (wordIf wanted word) := by
  intro n
  cases wanted <;> simp [wordIf]

@[simp] theorem Param.nested_pieces (p : Param) : Nested p.pieces := by
  intro n
  simp [Param.pieces]

@[simp] theorem nested_paramPieces (params : List Param) : Nested (paramPieces params) := by
  refine nested_separated _ fun ps hps => ?_
  obtain ⟨p, -, rfl⟩ := List.mem_map.mp hps
  exact p.nested_pieces

/-! ## Trees -/

mutual
theorem Expr.nested_pieces : (e : Expr) → (k : Nat) → Nested (e.pieces k)
  | .literal _, k, n | .name _, k, n | .thisRef, k, n | .superRef, k, n | .array [], k, n => by
    simp [Expr.pieces]
  | .paren e, k, n | .property e _, k, n | .before _ e, k, n | .after e _, k, n
  | .isType e _, k, n => by
    simp [Expr.pieces, Expr.nested_pieces e]
  | .call target _ _ args, k, n => by
    simp [Expr.pieces, Expr.nested_targetPieces target, Expr.nested_piecesList args]
  | .instantiate _ args, k, n => by simp [Expr.pieces, Expr.nested_piecesList args]
  | .object _ [] body, k, n => by simp [Expr.pieces, Member.nested_piecesList body]
  | .object _ (a :: args) body, k, n => by
    simp [Expr.pieces, Expr.nested_piecesList (a :: args), Member.nested_piecesList body]
  | .array (e :: es), k, n => by simp [Expr.pieces, Expr.nested_piecesList (e :: es)]
  | .get a b, k, n | .assign a _ b, k, n | .binary a _ b, k, n => by
    simp [Expr.pieces, Expr.nested_pieces a, Expr.nested_pieces b]
  | .set a b c, k, n => by
    simp [Expr.pieces, Expr.nested_pieces a, Expr.nested_pieces b, Expr.nested_pieces c]
  | .update array index _ value, k, n => by
    have hbindings := fun m m' => nested_separated ", " (List.forall_mem_append.mpr
      ⟨Slot.nested_bindingPieces array .array k m, Slot.nested_bindingPieces index .index k m'⟩)
    simp only [Expr.pieces]
    split <;> simp [hbindings, Slot.nested_usePieces array, Slot.nested_usePieces index,
      Expr.nested_pieces value]
  | .existence _ binding operand, k, n => by
    cases binding <;> simp [Expr.pieces, Expr.nested_pieces operand]
  | .conditional conditions a b, k, n => by
    simp [Expr.pieces, Condition.nested_piecesList conditions, Expr.nested_pieces a,
      Expr.nested_pieces b]
termination_by structural e => e

theorem Expr.nested_targetPieces : (e : Option Expr) → (k : Nat) → Nested (Expr.targetPieces e k)
  | none, k, n => by simp [Expr.targetPieces]
  | some e, k, n => by simp [Expr.targetPieces, Expr.nested_pieces e]
termination_by structural e => e

theorem Expr.nested_piecesList : (es : List Expr) → (k : Nat) → Nested (Expr.piecesList es k)
  | [], k, n => by simp [Expr.piecesList]
  | [e], k, n => by simp [Expr.piecesList, Expr.nested_pieces e]
  | e :: e' :: es, k, n => by
    simp [Expr.piecesList, Expr.nested_pieces e, Expr.nested_piecesList (e' :: es)]
termination_by structural es => es

theorem Slot.nested_bindingPieces : (s : Slot) → (role : Role) → (m k : Nat) →
    ∀ ps ∈ s.bindingPieces role m k, Nested ps
  | .direct _, role, m, k => by simp [Slot.bindingPieces]
  | .bound e, role, m, k => by
    intro ps hps n
    rw [Slot.bindingPieces, List.mem_singleton] at hps
    simp [hps, Expr.nested_pieces e]
termination_by structural s => s

theorem Slot.nested_usePieces : (s : Slot) → (role : Role) → (k : Nat) →
    Nested (s.usePieces role k)
  | .direct e, role, k, n => by simp [Slot.usePieces, Expr.nested_pieces e]
  | .bound _, role, k, n => by simp [Slot.usePieces]
termination_by structural s => s

theorem Condition.nested_pieces : (c : Condition) → (k : Nat) → Nested (c.pieces k)
  | .isType _ e, k, n | .holds e, k, n => by simp [Condition.pieces, Expr.nested_pieces e]
termination_by structural c => c

theorem Condition.nested_piecesList : (cs : List Condition) → (k : Nat) →
    Nested (Condition.piecesList cs k)
  | [], k, n => by simp [Condition.piecesList]
  | [c], k, n => by simp [Condition.piecesList, Condition.nested_pieces c]
  | c :: c' :: cs, k, n => by
    simp [Condition.piecesList, Condition.nested_pieces c, Condition.nested_piecesList (c' :: cs)]
termination_by structural cs => cs

theorem Stmt.nested_pieces : (s : Stmt) → (k : Nat) → Nested (s.pieces k)
  | .block body, k, n => by simp [Stmt.pieces, Stmt.nested_piecesList body]
  | .declare _ _ _ init, k, n => by simp [Stmt.pieces, Expr.nested_initPieces init]
  | .assertType _ _ e, k, n | .expr e, k, n | .breakIf e, k, n | .throwValue e, k, n
  | .returnValue (some e), k, n => by
    simp [Stmt.pieces, Expr.nested_pieces e]
  | .update array index _ value, k, n => by
    have hline : ∀ b : List Piece, Nested b →
        Nested (.text "value " :: (b ++ [.text ";", .newline])) := fun b hb n => by simp [hb n]
    have harray := fun m => nested_flatMap fun b hb =>
      hline b (Slot.nested_bindingPieces array .array k m b hb)
    have hindex := fun m => nested_flatMap fun b hb =>
      hline b (Slot.nested_bindingPieces index .index k m b hb)
    simp [Stmt.pieces, harray _ n, hindex _ n, Slot.nested_usePieces array,
      Slot.nested_usePieces index, Expr.nested_pieces value]
  | .ifElse conditions body otherwise, k, n => by
    simp [Stmt.pieces, Condition.nested_piecesList conditions, Stmt.nested_piecesList body,
      Else.nested_pieces otherwise]
  | .whileLoop cond body, k, n => by
    simp [Stmt.pieces, Expr.nested_pieces cond, Stmt.nested_piecesList body]
  | .forIn _ _ iterable body, k, n => by
    simp [Stmt.pieces, Expr.nested_pieces iterable, Stmt.nested_piecesList body]
  | .breakLoop, k, n | .continueLoop, k, n | .returnValue none, k, n => by simp [Stmt.pieces]
  | .switch selector cases otherwise, k, n => by
    simp [Stmt.pieces, Expr.nested_pieces selector, Case.nested_piecesList cases,
      Stmt.nested_elsePieces otherwise]
  | .delegate _ args, k, n => by simp [Stmt.pieces, Expr.nested_piecesList args]
  | .tryCatch resources body catches last, k, n => by
    simp [Stmt.pieces, Resource.nested_listPieces resources, Stmt.nested_piecesList body,
      Catch.nested_piecesList catches, Stmt.nested_finallyPieces last]
termination_by structural s => s

theorem Expr.nested_initPieces : (e : Option Expr) → (k : Nat) → Nested (Expr.initPieces e k)
  | none, k, n => by simp [Expr.initPieces]
  | some e, k, n => by simp [Expr.initPieces, Expr.nested_pieces e]
termination_by structural e => e

theorem Stmt.nested_piecesList : (ss : List Stmt) → (k : Nat) → Nested (Stmt.piecesList ss k)
  | [], k, n => by simp [Stmt.piecesList]
  | s :: ss, k, n => by simp [Stmt.piecesList, Stmt.nested_pieces s, Stmt.nested_piecesList ss]
termination_by structural ss => ss

theorem Stmt.nested_elsePieces : (b : Option (List Stmt)) → (k : Nat) → Nested (Stmt.elsePieces b k)
  | none, k, n => by simp [Stmt.elsePieces]
  | some b, k, n => by simp [Stmt.elsePieces, Stmt.nested_piecesList b]
termination_by structural b => b

theorem Stmt.nested_finallyPieces : (b : Option (List Stmt)) → (k : Nat) →
    Nested (Stmt.finallyPieces b k)
  | none, k, n => by simp [Stmt.finallyPieces]
  | some b, k, n => by simp [Stmt.finallyPieces, Stmt.nested_piecesList b]
termination_by structural b => b

theorem Else.nested_pieces : (e : Else) → (k : Nat) → Nested (e.pieces k)
  | .absent, k, n => by simp [Else.pieces]
  | .block body, k, n => by simp [Else.pieces, Stmt.nested_piecesList body]
  | .chained conditions body otherwise, k, n => by
    simp [Else.pieces, Condition.nested_piecesList conditions, Stmt.nested_piecesList body,
      Else.nested_pieces otherwise]
termination_by structural e => e

theorem Case.nested_piecesList : (cs : List Case) → (k : Nat) → Nested (Case.piecesList cs k)
  | [], k, n => by simp [Case.piecesList]
  | ⟨label, body⟩ :: cs, k, n => by
    simp [Case.piecesList, Expr.nested_pieces label, Stmt.nested_piecesList body,
      Case.nested_piecesList cs]
termination_by structural cs => cs

theorem Resource.nested_listPieces : (rs : List Resource) → (k : Nat) →
    Nested (Resource.listPieces rs k)
  | [], k, n => by simp [Resource.listPieces]
  | ⟨_, _, init⟩ :: rs, k, n => by
    simp [Resource.listPieces, Expr.nested_pieces init, Resource.nested_furtherPieces rs]
termination_by structural rs => rs

theorem Resource.nested_furtherPieces : (rs : List Resource) → (k : Nat) →
    Nested (Resource.furtherPieces rs k)
  | [], k, n => by simp [Resource.furtherPieces]
  | ⟨_, _, init⟩ :: rs, k, n => by
    simp [Resource.furtherPieces, Expr.nested_pieces init, Resource.nested_furtherPieces rs]
termination_by structural rs => rs

theorem Catch.nested_piecesList : (cs : List Catch) → (k : Nat) → Nested (Catch.piecesList cs k)
  | [], k, n => by simp [Catch.piecesList]
  | ⟨_, _, body⟩ :: cs, k, n => by
    simp [Catch.piecesList, Stmt.nested_piecesList body, Catch.nested_piecesList cs]
termination_by structural cs => cs

theorem Declarator.nested_fieldPieces : (ds : List Declarator) → (isShared isVariable : Bool) →
    (ty : Ty) → (k : Nat) → Nested (Declarator.fieldPieces ds isShared isVariable ty k)
  | [], _, _, _, k, n => by simp [Declarator.fieldPieces]
  | ⟨_, init⟩ :: ds, isShared, isVariable, ty, k, n => by
    simp [Declarator.fieldPieces, Expr.nested_initPieces init,
      Declarator.nested_fieldPieces ds isShared isVariable ty]
termination_by structural ds => ds

theorem Method.nested_pieces : (m : Method) → (k : Nat) → Nested (m.pieces k)
  | ⟨_, _, _, _, _, _, _, body⟩, k, n => by
    simp [Method.pieces, Stmt.nested_bodyPieces body]
termination_by structural m => m

theorem Stmt.nested_bodyPieces : (b : Option (List Stmt)) → (k : Nat) → Nested (Stmt.bodyPieces b k)
  | none, k, n => by simp [Stmt.bodyPieces]
  | some b, k, n => by simp [Stmt.bodyPieces, Stmt.nested_piecesList b]
termination_by structural b => b

theorem Member.nested_pieces : (m : Member) → (k : Nat) → Nested (m.pieces k)
  | .fields isShared isVariable ty ds, k, n => by
    rw [Member.pieces, Declarator.nested_fieldPieces ds]
  | .method decl, k, n => by rw [Member.pieces, Method.nested_pieces decl]
  | .constructor _ params body, k, n => by simp [Member.pieces, Stmt.nested_piecesList body]
  | .enumConstructor _ params body, k, n => by
    have hparams : Nested (params.flatMap fun p => .text ", " :: p.pieces) :=
      nested_flatMap fun p _ n => by simp
    simp [Member.pieces, hparams, Stmt.nested_piecesList body]
  | .type decl, k, n => by rw [Member.pieces, TypeDecl.nested_pieces decl]
  | .statements body, k, n => by rw [Member.pieces, Stmt.nested_piecesList body]
termination_by structural m => m

theorem Member.nested_piecesList : (ms : List Member) → (k : Nat) → Nested (Member.piecesList ms k)
  | [], k, n => by simp [Member.piecesList]
  | [m], k, n => by rw [Member.piecesList, Member.nested_pieces m]
  | m :: m' :: ms, k, n => by
    simp only [Member.piecesList]
    split <;> simp [Member.nested_pieces m, Member.nested_piecesList (m' :: ms)]
termination_by structural ms => ms

theorem Constant.nested_piecesList : (cs : List Constant) → (name : String) → (k : Nat) →
    Nested (Constant.piecesList cs name k)
  | [], _, k, n => by simp [Constant.piecesList]
  | ⟨_, []⟩ :: cs, name, k, n => by simp [Constant.piecesList, Constant.nested_piecesList cs name]
  | ⟨_, a :: args⟩ :: cs, name, k, n => by
    simp [Constant.piecesList, Expr.nested_piecesList (a :: args),
      Constant.nested_piecesList cs name]
termination_by structural cs => cs

theorem TypeDecl.nested_pieces : (t : TypeDecl) → (k : Nat) → Nested (t.pieces k)
  | .ofClass ⟨_, _, _, _, _, superclass, _, body⟩, k, n => by
    cases superclass <;> simp [TypeDecl.pieces, Member.nested_piecesList body]
  | .ofInterface ⟨_, _, _, _, body⟩, k, n => by
    simp [TypeDecl.pieces, Member.nested_piecesList body]
  | .ofEnumeration ⟨_, name, _, body, constants⟩, k, n => by
    simp only [TypeDecl.pieces]
    split <;> split <;> simp [Member.nested_piecesList body, Constant.nested_piecesList constants]
termination_by structural t => t
end

/-! ## Files -/

theorem TypeDecl.endsLine_pieces (t : TypeDecl) (k : Nat) : EndsLine (t.pieces k) := by
  match t with
  | .ofClass ⟨_, _, _, _, _, _, _, _⟩ => exact endsLine_append_newline _
  | .ofInterface ⟨_, _, _, _, _⟩ => exact endsLine_append_newline _
  | .ofEnumeration ⟨_, _, _, _, _⟩ => exact endsLine_append_newline _

theorem TypeDecl.nested_piecesList (ts : List TypeDecl) (k : Nat) :
    Nested (TypeDecl.piecesList ts k) := by
  fun_induction TypeDecl.piecesList ts k with
  | case1 => exact levelAfter_nil
  | case2 t k => exact t.nested_pieces k
  | case3 t ts k _ ih =>
    intro n
    simp [t.nested_pieces, ih]

theorem TypeDecl.endsLine_piecesList (ts : List TypeDecl) (k : Nat) :
    EndsLine (TypeDecl.piecesList ts k) := by
  fun_induction TypeDecl.piecesList ts k with
  | case1 => exact endsLine_nil
  | case2 t k => exact t.endsLine_pieces k
  | case3 t ts k _ ih =>
    exact (t.endsLine_pieces k).append ((endsLine_append_newline []).append ih)

theorem ImportTable.nested_memberPieces (names : List String) :
    Nested (ImportTable.memberPieces names) := by
  fun_induction ImportTable.memberPieces names with
  | case1 => exact levelAfter_nil
  | case2 name => exact fun n => by simp
  | case3 name names _ ih => exact fun n => by simp [ih]

theorem ImportTable.nested_pieces (table : ImportTable) : Nested table.pieces := by
  have hentries : Nested (table.flatMap ImportTable.entryPieces) :=
    nested_flatMap fun (package, entry) _ n => by
      simp [ImportTable.entryPieces, ImportTable.nested_memberPieces entry.listed]
  intro n
  unfold ImportTable.pieces
  split
  · exact levelAfter_nil n
  · simp [hentries n]

theorem ImportTable.endsLine_pieces (table : ImportTable) : EndsLine table.pieces := by
  unfold ImportTable.pieces
  split
  · exact endsLine_nil
  · exact endsLine_append_newline _

theorem Source.nested_pieces (s : Source) (k : Nat) : Nested (s.pieces k) := by
  intro n
  simp [Source.pieces, s.imports.nested_pieces, TypeDecl.nested_piecesList s.types]

theorem Source.endsLine_pieces (s : Source) (k : Nat) : EndsLine (s.pieces k) :=
  s.imports.endsLine_pieces.append (TypeDecl.endsLine_piecesList s.types k)

end CeylonFromJava.Ceylon
