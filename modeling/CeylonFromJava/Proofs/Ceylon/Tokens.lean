import CeylonFromJava.Ceylon.Source
import CeylonFromJava.Proofs.Ceylon.Evaluation

/-! Laid-out trees with what their pieces stand for.

A token is a piece, a name in an expression, or something that happens to a temporary: an update takes
its number, binds a temporary, uses it, and ends. A tree that is laid out as tokens tells more than its
text; without what they stand for, the tokens are the pieces of the tree, `Source.erase_tokens`. -/
namespace CeylonFromJava.Ceylon
set_option autoImplicit false

open Output (Piece HasPieces)

/-- What happens to temporaries in a text. An update that needs a temporary takes the number `n` where
its text starts and gives it up where that ends. -/
inductive TempEvent where
  | opens (n : Nat)
  | binds (role : Role) (n : Nat)
  | uses (role : Role) (n : Nat)
  | closes (n : Nat)
  deriving DecidableEq

/-- A piece, a name, property or method of an expression, or an event of a temporary. -/
inductive Token where
  | piece (p : Piece)
  | name (text : String)
  | temp (event : TempEvent)

namespace Token

abbrev text (s : String) : Token := .piece (.text s)

abbrev newline : Token := .piece .newline

/-! ## Views -/

/-- How a token is written. -/
@[simp] def pieces : Token → List Piece
  | .piece p => [p]
  | .name text => [.text text]
  | .temp (.binds role n) | .temp (.uses role n) => [.text (tempName role.word n)]
  | .temp (.opens _) | .temp (.closes _) => []

def erase (ts : List Token) : List Piece := ts.flatMap pieces

@[simp] def events : List Token → List TempEvent
  | [] => []
  | .temp event :: ts => event :: events ts
  | .piece _ :: ts | .name _ :: ts => events ts

@[simp] def names : List Token → List String
  | [] => []
  | .name text :: ts => text :: names ts
  | .piece _ :: ts | .temp _ :: ts => names ts

/-- Pieces that stand for themselves. -/
def plain (ps : List Piece) : List Token := ps.map .piece

/-- The text of an update, with its number if it takes one. -/
def numbered (wanted : Bool) (n : Nat) (ts : List Token) : List Token :=
  if wanted then .temp (.opens n) :: ts ++ [.temp (.closes n)] else ts

instance : Script Token where
  ofPiece := .piece
  name := .name
  binds role n := .temp (.binds role n)
  uses role n := .temp (.uses role n)
  numbered := numbered

section

variable (p : Piece) (word : String) (role : Role) (wanted : Bool) (n : Nat) (ts : List Token)

@[simp] theorem ofPiece_eq : HasPieces.ofPiece p = piece p := rfl

@[simp] theorem name_eq : Script.name word = name word := rfl

@[simp] theorem binds_eq : Script.binds role n = temp (.binds role n) := rfl

@[simp] theorem uses_eq : Script.uses role n = temp (.uses role n) := rfl

@[simp] theorem numbered_eq : Script.numbered wanted n ts = numbered wanted n ts := rfl

end

section

variable (ts us : List Token)

@[simp] theorem erase_nil : erase [] = [] := rfl

@[simp] theorem erase_cons (t : Token) : erase (t :: ts) = t.pieces ++ erase ts := rfl

@[simp] theorem erase_append : erase (ts ++ us) = erase ts ++ erase us := List.flatMap_append

@[simp] theorem erase_plain (ps : List Piece) : erase (plain ps) = ps := by
  induction ps with
  | nil => rfl
  | cons p ps ih => exact congrArg (p :: ·) ih

@[simp] theorem erase_braced : erase (Piece.braced ts) = Piece.braced (erase ts) := by
  simp [Piece.braced]

@[simp] theorem erase_numbered (wanted : Bool) (n : Nat) : erase (numbered wanted n ts) = erase ts := by
  cases wanted <;> simp [numbered]

@[simp] theorem events_append : events (ts ++ us) = events ts ++ events us := by
  induction ts with
  | nil => rfl
  | cons t ts ih => cases t <;> simp [ih]

@[simp] theorem events_plain (ps : List Piece) : events (plain ps) = [] := by
  induction ps with
  | nil => rfl
  | cons p ps ih => exact ih

@[simp] theorem names_append : names (ts ++ us) = names ts ++ names us := by
  induction ts with
  | nil => rfl
  | cons t ts ih => cases t <;> simp [ih]

@[simp] theorem names_plain (ps : List Piece) : names (plain ps) = [] := by
  induction ps with
  | nil => rfl
  | cons p ps ih => exact ih

end

theorem erase_separated (between : String) (tss : List (List Token)) :
    erase (Piece.separated between tss) = Piece.separated between (tss.map erase) := by
  induction tss with
  | nil => rfl
  | cons ts rest ih =>
    cases rest with
    | nil => rfl
    | cons ts' rest => simp [Piece.separated, ih]

end Token

/-! ## Parts without names and temporaries -/

open Token (plain)

@[simp] theorem wordIf_eq_plain (wanted : Bool) (word : String) :
    wordIf wanted word = plain (wordIf wanted word) := by
  cases wanted <;> rfl

theorem Param.pieces_eq_plain (p : Param) : p.pieces = plain p.pieces := by
  simp [Param.pieces, plain]

theorem separated_eq_plain (between : String) (pss : List (List Piece)) :
    Piece.separated between (pss.map plain) = plain (Piece.separated between pss) := by
  induction pss with
  | nil => rfl
  | cons ps rest ih =>
    cases rest with
    | nil => rfl
    | cons ps' rest => simp_all [Piece.separated, plain]

theorem flatMap_eq_plain {β : Type} {f : β → List Token} {g : β → List Piece}
    (h : ∀ b, f b = plain (g b)) (bs : List β) : bs.flatMap f = plain (bs.flatMap g) := by
  induction bs with
  | nil => rfl
  | cons b bs ih =>
    rw [List.flatMap_cons, ih, h, List.flatMap_cons, plain, plain, plain, List.map_append]

@[simp] theorem paramPieces_eq_plain (params : List Param) :
    paramPieces params = plain (paramPieces params) := by
  have hparams : params.map Param.pieces = (params.map Param.pieces).map plain := by
    simp [Param.pieces_eq_plain]
  rw [paramPieces, hparams, separated_eq_plain, paramPieces]

@[simp] theorem furtherParams_eq_plain (params : List Param) :
    (params.flatMap fun p => Token.text ", " :: p.pieces) =
      plain (params.flatMap fun p => .text ", " :: p.pieces) :=
  flatMap_eq_plain (fun p => congrArg (Token.text ", " :: ·) p.pieces_eq_plain) params

namespace ImportTable

theorem memberPieces_eq_plain (members : List String) :
    memberPieces members = plain (memberPieces members) := by
  induction members with
  | nil => rfl
  | cons name names ih =>
    cases names with
    | nil => rfl
    | cons name' names => simp [memberPieces, plain, ih]

theorem entryPieces_eq_plain (entry : String × ImportEntry) :
    entryPieces entry = plain (entryPieces entry) := by
  simp [entryPieces, memberPieces_eq_plain, Piece.braced, plain]

@[simp] theorem pieces_eq_plain (table : ImportTable) : table.pieces = plain table.pieces := by
  cases table with
  | nil => rfl
  | cons entry table =>
    have hentries := flatMap_eq_plain entryPieces_eq_plain (entry :: table)
    simp only [pieces, hentries, plain, List.map_append]
    rfl

end ImportTable

/-! ## Trees -/

abbrev Expr.tokens (e : Expr) (k : Nat) : List Token := e.pieces k

abbrev Slot.bindingTokens (s : Slot) (role : Role) (n k : Nat) : List (List Token) :=
  s.bindingPieces role n k

abbrev Slot.useTokens (s : Slot) (role : Role) (k : Nat) : List Token := s.usePieces role k

abbrev Stmt.tokens (s : Stmt) (k : Nat) : List Token := s.pieces k

abbrev Stmt.tokensList (ss : List Stmt) (k : Nat) : List Token := Stmt.piecesList ss k

/-- The file laid out as tokens, with `k` the number of the next temporary. -/
abbrev Source.tokens (s : Source) (k : Nat) : List Token := s.pieces k

theorem Stmt.tokensList_append (ss ss' : List Stmt) (k : Nat) :
    Stmt.tokensList (ss ++ ss') k =
      Stmt.tokensList ss k ++ Stmt.tokensList ss' (k + Stmt.tempsList ss) := by
  induction ss generalizing k with
  | nil => simp [Stmt.piecesList, Stmt.tempsList]
  | cons s ss ih => simp [Stmt.piecesList, Stmt.tempsList, ih, Nat.add_assoc]

/-! ## The pieces of tokens -/

section

open Token (erase erase_separated)

mutual
theorem Expr.erase_pieces : (e : Expr) → (k : Nat) → erase (e.pieces k) = e.pieces k
  | .literal _, k | .name _, k | .thisRef, k | .superRef, k | .array [], k => by
    simp [Expr.pieces]
  | .paren e, k | .property e _, k | .before _ e, k | .after e _, k | .isType e _, k => by
    simp [Expr.pieces, Expr.erase_pieces e]
  | .call target _ _ args, k => by
    simp [Expr.pieces, Expr.erase_targetPieces target, Expr.erase_piecesList args]
  | .instantiate _ args, k => by simp [Expr.pieces, Expr.erase_piecesList args]
  | .object _ [] body, k => by simp [Expr.pieces, Member.erase_piecesList body]
  | .object _ (a :: args) body, k => by
    simp [Expr.pieces, Expr.erase_piecesList (a :: args), Member.erase_piecesList body]
  | .array (e :: es), k => by simp [Expr.pieces, Expr.erase_piecesList (e :: es)]
  | .get a b, k | .assign a _ b, k | .binary a _ b, k => by
    simp [Expr.pieces, Expr.erase_pieces a, Expr.erase_pieces b]
  | .set a b c, k => by
    simp [Expr.pieces, Expr.erase_pieces a, Expr.erase_pieces b, Expr.erase_pieces c]
  | .update array index _ value, k => by
    simp only [Expr.pieces, Token.numbered_eq, Script.numbered_eq]
    rw [← Slot.erase_bindingPieces array, ← Slot.erase_bindingPieces index, ← List.map_append,
      List.isEmpty_map, ← erase_separated]
    split <;> simp [Slot.erase_usePieces array, Slot.erase_usePieces index, Expr.erase_pieces value]
  | .existence _ binding operand, k => by
    cases binding <;> simp [Expr.pieces, Expr.erase_pieces operand]
  | .conditional conditions a b, k => by
    simp [Expr.pieces, Condition.erase_piecesList conditions, Expr.erase_pieces a,
      Expr.erase_pieces b]
termination_by structural e => e

theorem Expr.erase_targetPieces : (e : Option Expr) → (k : Nat) →
    erase (Expr.targetPieces e k) = Expr.targetPieces e k
  | none, k => by simp [Expr.targetPieces]
  | some e, k => by simp [Expr.targetPieces, Expr.erase_pieces e]
termination_by structural e => e

theorem Expr.erase_piecesList : (es : List Expr) → (k : Nat) →
    erase (Expr.piecesList es k) = Expr.piecesList es k
  | [], k => by simp [Expr.piecesList]
  | [e], k => by simp [Expr.piecesList, Expr.erase_pieces e]
  | e :: e' :: es, k => by
    simp [Expr.piecesList, Expr.erase_pieces e, Expr.erase_piecesList (e' :: es)]
termination_by structural es => es

theorem Slot.erase_bindingPieces : (s : Slot) → (role : Role) → (n k : Nat) →
    (s.bindingPieces role n k).map erase = s.bindingPieces role n k
  | .direct _, role, n, k => by simp [Slot.bindingPieces]
  | .bound e, role, n, k => by simp [Slot.bindingPieces, Expr.erase_pieces e]
termination_by structural s => s

theorem Slot.erase_usePieces : (s : Slot) → (role : Role) → (k : Nat) →
    erase (s.usePieces role k) = s.usePieces role k
  | .direct e, role, k => by simp [Slot.usePieces, Expr.erase_pieces e]
  | .bound _, role, k => by simp [Slot.usePieces]
termination_by structural s => s

theorem Condition.erase_pieces : (c : Condition) → (k : Nat) → erase (c.pieces k) = c.pieces k
  | .isType _ e, k | .holds e, k => by
    simp [Condition.pieces, Expr.erase_pieces e]
termination_by structural c => c

theorem Condition.erase_piecesList : (cs : List Condition) → (k : Nat) →
    erase (Condition.piecesList cs k) = Condition.piecesList cs k
  | [], k => by simp [Condition.piecesList]
  | [c], k => by simp [Condition.piecesList, Condition.erase_pieces c]
  | c :: c' :: cs, k => by
    simp [Condition.piecesList, Condition.erase_pieces c,
      Condition.erase_piecesList (c' :: cs)]
termination_by structural cs => cs

theorem Stmt.erase_pieces : (s : Stmt) → (k : Nat) → erase (s.pieces k) = s.pieces k
  | .block body, k => by simp [Stmt.pieces, Stmt.erase_piecesList body]
  | .declare _ _ _ init, k => by simp [Stmt.pieces, Expr.erase_initPieces init]
  | .assertType _ _ e, k | .expr e, k | .breakIf e, k | .throwValue e, k
  | .returnValue (some e), k => by
    simp [Stmt.pieces, Expr.erase_pieces e]
  | .update array index _ value, k => by
    have hlines : ∀ bindings : List (List Token),
        erase (bindings.flatMap fun b => .text "value " :: b ++ [.text ";", .newline]) =
          (bindings.map erase).flatMap fun b => .text "value " :: b ++ [.text ";", .newline] := by
      intro bindings
      induction bindings with
      | nil => rfl
      | cons b bindings ih => simpa using ih
    simp only [Stmt.pieces, Token.numbered_eq, Script.numbered_eq, Token.ofPiece_eq,
      HasPieces.ofPiece_eq]
    rw [← Slot.erase_bindingPieces array, ← Slot.erase_bindingPieces index, ← List.map_append,
      ← hlines]
    simp [Slot.erase_usePieces array, Slot.erase_usePieces index, Expr.erase_pieces value]
  | .ifElse conditions body otherwise, k => by
    simp [Stmt.pieces, Condition.erase_piecesList conditions,
      Stmt.erase_piecesList body, Else.erase_pieces otherwise]
  | .whileLoop cond body, k => by
    simp [Stmt.pieces, Expr.erase_pieces cond, Stmt.erase_piecesList body]
  | .forIn _ _ iterable body, k => by
    simp [Stmt.pieces, Expr.erase_pieces iterable, Stmt.erase_piecesList body]
  | .breakLoop, k | .continueLoop, k | .returnValue none, k => by simp [Stmt.pieces]
  | .switch selector cases otherwise, k => by
    simp [Stmt.pieces, Expr.erase_pieces selector, Case.erase_piecesList cases,
      Stmt.erase_elsePieces otherwise]
  | .delegate _ args, k => by simp [Stmt.pieces, Expr.erase_piecesList args]
  | .tryCatch resources body catches last, k => by
    simp [Stmt.pieces, Resource.erase_listPieces resources,
      Stmt.erase_piecesList body, Catch.erase_piecesList catches, Stmt.erase_finallyPieces last]
termination_by structural s => s

theorem Expr.erase_initPieces : (e : Option Expr) → (k : Nat) →
    erase (Expr.initPieces e k) = Expr.initPieces e k
  | none, k => by simp [Expr.initPieces]
  | some e, k => by simp [Expr.initPieces, Expr.erase_pieces e]
termination_by structural e => e

theorem Stmt.erase_piecesList : (ss : List Stmt) → (k : Nat) →
    erase (Stmt.piecesList ss k) = Stmt.piecesList ss k
  | [], k => by simp [Stmt.piecesList]
  | s :: ss, k => by
    simp [Stmt.piecesList, Stmt.erase_pieces s, Stmt.erase_piecesList ss]
termination_by structural ss => ss

theorem Stmt.erase_elsePieces : (b : Option (List Stmt)) → (k : Nat) →
    erase (Stmt.elsePieces b k) = Stmt.elsePieces b k
  | none, k => by simp [Stmt.elsePieces]
  | some b, k => by simp [Stmt.elsePieces, Stmt.erase_piecesList b]
termination_by structural b => b

theorem Stmt.erase_finallyPieces : (b : Option (List Stmt)) → (k : Nat) →
    erase (Stmt.finallyPieces b k) = Stmt.finallyPieces b k
  | none, k => by simp [Stmt.finallyPieces]
  | some b, k => by simp [Stmt.finallyPieces, Stmt.erase_piecesList b]
termination_by structural b => b

theorem Else.erase_pieces : (e : Else) → (k : Nat) → erase (e.pieces k) = e.pieces k
  | .absent, k => by simp [Else.pieces]
  | .block body, k => by simp [Else.pieces, Stmt.erase_piecesList body]
  | .chained conditions body otherwise, k => by
    simp [Else.pieces, Condition.erase_piecesList conditions,
      Stmt.erase_piecesList body, Else.erase_pieces otherwise]
termination_by structural e => e

theorem Case.erase_piecesList : (cs : List Case) → (k : Nat) →
    erase (Case.piecesList cs k) = Case.piecesList cs k
  | [], k => by simp [Case.piecesList]
  | ⟨label, body⟩ :: cs, k => by
    simp [Case.piecesList, Expr.erase_pieces label, Stmt.erase_piecesList body,
      Case.erase_piecesList cs]
termination_by structural cs => cs

theorem Resource.erase_listPieces : (rs : List Resource) → (k : Nat) →
    erase (Resource.listPieces rs k) = Resource.listPieces rs k
  | [], k => by simp [Resource.listPieces]
  | ⟨_, _, init⟩ :: rs, k => by
    simp [Resource.listPieces, Expr.erase_pieces init,
      Resource.erase_furtherPieces rs]
termination_by structural rs => rs

theorem Resource.erase_furtherPieces : (rs : List Resource) → (k : Nat) →
    erase (Resource.furtherPieces rs k) = Resource.furtherPieces rs k
  | [], k => by simp [Resource.furtherPieces]
  | ⟨_, _, init⟩ :: rs, k => by
    simp [Resource.furtherPieces, Expr.erase_pieces init,
      Resource.erase_furtherPieces rs]
termination_by structural rs => rs

theorem Catch.erase_piecesList : (cs : List Catch) → (k : Nat) →
    erase (Catch.piecesList cs k) = Catch.piecesList cs k
  | [], k => by simp [Catch.piecesList]
  | ⟨_, _, body⟩ :: cs, k => by
    simp [Catch.piecesList, Stmt.erase_piecesList body, Catch.erase_piecesList cs]
termination_by structural cs => cs

theorem Declarator.erase_fieldPieces : (ds : List Declarator) → (isShared isVariable : Bool) →
    (ty : Ty) → (k : Nat) → erase (Declarator.fieldPieces ds isShared isVariable ty k) =
      Declarator.fieldPieces ds isShared isVariable ty k
  | [], _, _, _, k => by simp [Declarator.fieldPieces]
  | ⟨_, init⟩ :: ds, isShared, isVariable, ty, k => by
    simp [Declarator.fieldPieces, Expr.erase_initPieces init,
      Declarator.erase_fieldPieces ds]
termination_by structural ds => ds

theorem Stmt.erase_bodyPieces : (b : Option (List Stmt)) → (k : Nat) →
    erase (Stmt.bodyPieces b k) = Stmt.bodyPieces b k
  | none, k => by simp [Stmt.bodyPieces]
  | some b, k => by simp [Stmt.bodyPieces, Stmt.erase_piecesList b]
termination_by structural b => b

theorem Member.erase_pieces : (m : Member) → (k : Nat) → erase (m.pieces k) = m.pieces k
  | .fields _ _ _ ds, k => by simp [Member.pieces, Declarator.erase_fieldPieces ds]
  | .method ⟨_, _, _, _, _, _, _, body⟩, k => by
    simp [Member.pieces, Method.pieces, Stmt.erase_bodyPieces body]
  | .constructor _ _ body, k | .enumConstructor _ _ body, k | .statements body, k => by
    simp [Member.pieces, Stmt.erase_piecesList body]
  | .type decl, k => by simp [Member.pieces, TypeDecl.erase_pieces decl]
termination_by structural m => m

theorem Member.erase_piecesList : (ms : List Member) → (k : Nat) →
    erase (Member.piecesList ms k) = Member.piecesList ms k
  | [], k => by simp [Member.piecesList]
  | [m], k => by simp [Member.piecesList, Member.erase_pieces m]
  | m :: m' :: ms, k => by
    simp only [Member.piecesList]
    split <;> simp [Member.erase_pieces m, Member.erase_piecesList (m' :: ms)]
termination_by structural ms => ms

theorem Constant.erase_piecesList : (cs : List Constant) → (enumName : String) → (k : Nat) →
    erase (Constant.piecesList cs enumName k) = Constant.piecesList cs enumName k
  | [], _, k => by simp [Constant.piecesList]
  | ⟨_, []⟩ :: cs, enumName, k => by
    simp [Constant.piecesList, Constant.erase_piecesList cs]
  | ⟨_, e :: es⟩ :: cs, enumName, k => by
    simp [Constant.piecesList, Expr.erase_piecesList (e :: es),
      Constant.erase_piecesList cs]
termination_by structural cs => cs

theorem TypeDecl.erase_pieces : (t : TypeDecl) → (k : Nat) → erase (t.pieces k) = t.pieces k
  | .ofClass ⟨_, _, _, _, _, superclass, _, body⟩, k => by
    cases superclass <;> simp [TypeDecl.pieces, Member.erase_piecesList body]
  | .ofInterface ⟨_, _, _, _, body⟩, k => by
    simp [TypeDecl.pieces, Member.erase_piecesList body]
  | .ofEnumeration ⟨_, _, _, body, constants⟩, k => by
    simp only [TypeDecl.pieces]
    split <;> split <;>
      simp [Member.erase_piecesList body, Constant.erase_piecesList constants]
termination_by structural t => t
end

theorem TypeDecl.erase_piecesList (ts : List TypeDecl) (k : Nat) :
    erase (TypeDecl.piecesList ts k) = TypeDecl.piecesList ts k := by
  induction ts generalizing k with
  | nil => rfl
  | cons t ts ih =>
    cases ts with
    | nil => exact t.erase_pieces k
    | cons t' ts => simp [TypeDecl.piecesList, t.erase_pieces, ih]

theorem Source.erase_tokens (s : Source) (k : Nat) : erase (s.pieces k) = s.pieces k := by
  simp [Source.pieces, TypeDecl.erase_piecesList]

end

end CeylonFromJava.Ceylon
