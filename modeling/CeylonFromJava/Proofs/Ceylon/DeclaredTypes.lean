import CeylonFromJava.Proofs.Ceylon.LayoutNesting

/-! Where declared types stand in a text.

`marked m` declares every field, parameter and local value of a tree anew: as it is, as variable, or
with a word in front of the name of its type. Loops over elements, resources, caught exceptions and
assertions declare names too, but these are left alone. The main statement, `Source.exists_parts`: the
text is cut into parts before each of these types, and each marking puts its word between the parts. -/
namespace CeylonFromJava.Ceylon
set_option autoImplicit false

open Output (Piece indentation)

/-! ## Markings -/

inductive Marking where
  | plain
  | asVariable
  | spelled (word : String)

namespace Marking

def isVariable : Marking → Bool
  | .asVariable => true
  | .plain | .spelled _ => false

/-- The type with a word in front of its name. -/
def prefixed (word : String) : Ty → Ty
  | [] => [⟨word, []⟩]
  | ⟨name, args⟩ :: segments => ⟨word ++ name, args⟩ :: segments

def ty : Marking → Ty → Ty
  | .spelled word, ty => prefixed word ty
  | .plain, ty | .asVariable, ty => ty

/-- What stands in front of a type. -/
def word : Marking → String
  | .plain => ""
  | .asVariable => "variable "
  | .spelled word => word

end Marking

def Param.marked (m : Marking) (p : Param) : Param :=
  ⟨m.isVariable, m.ty p.ty, p.sequenced, p.name⟩

mutual
def Expr.marked (m : Marking) : Expr → Expr
  | .literal value => .literal value
  | .name text => .name text
  | .thisRef => .thisRef
  | .superRef => .superRef
  | .paren e => .paren (e.marked m)
  | .property e name => .property (e.marked m) name
  | .call target name typeArgs args =>
    .call (Expr.markedOption m target) name typeArgs (Expr.markedList m args)
  | .instantiate ty args => .instantiate ty (Expr.markedList m args)
  | .object ty args body => .object ty (Expr.markedList m args) (Member.markedList m body)
  | .array es => .array (Expr.markedList m es)
  | .get a b => .get (a.marked m) (b.marked m)
  | .set a b c => .set (a.marked m) (b.marked m) (c.marked m)
  | .update array index op value =>
    .update (array.marked m) (index.marked m) op (value.marked m)
  | .assign a op b => .assign (a.marked m) op (b.marked m)
  | .before op e => .before op (e.marked m)
  | .after e op => .after (e.marked m) op
  | .binary a op b => .binary (a.marked m) op (b.marked m)
  | .existence holds binding e => .existence holds binding (e.marked m)
  | .isType e ty => .isType (e.marked m) ty
  | .conditional cs a b => .conditional (Condition.markedList m cs) (a.marked m) (b.marked m)

def Expr.markedOption (m : Marking) : Option Expr → Option Expr
  | none => none
  | some e => some (e.marked m)

def Expr.markedList (m : Marking) : List Expr → List Expr
  | [] => []
  | e :: es => e.marked m :: Expr.markedList m es

def Slot.marked (m : Marking) : Slot → Slot
  | .direct e => .direct (e.marked m)
  | .bound e => .bound (e.marked m)

def Condition.marked (m : Marking) : Condition → Condition
  | .isType ty e => .isType ty (e.marked m)
  | .holds e => .holds (e.marked m)

def Condition.markedList (m : Marking) : List Condition → List Condition
  | [] => []
  | c :: cs => c.marked m :: Condition.markedList m cs

def Stmt.marked (m : Marking) : Stmt → Stmt
  | .block body => .block (Stmt.markedList m body)
  | .declare _ ty name init => .declare m.isVariable (m.ty ty) name (Expr.markedOption m init)
  | .assertType ty name e => .assertType ty name (e.marked m)
  | .expr e => .expr (e.marked m)
  | .update array index op value =>
    .update (array.marked m) (index.marked m) op (value.marked m)
  | .ifElse cs body otherwise =>
    .ifElse (Condition.markedList m cs) (Stmt.markedList m body) (otherwise.marked m)
  | .whileLoop cond body => .whileLoop (cond.marked m) (Stmt.markedList m body)
  | .forIn ty name e body => .forIn ty name (e.marked m) (Stmt.markedList m body)
  | .breakIf cond => .breakIf (cond.marked m)
  | .breakLoop => .breakLoop
  | .continueLoop => .continueLoop
  | .switch e cases otherwise =>
    .switch (e.marked m) (Case.markedList m cases) (Stmt.markedBlock m otherwise)
  | .delegate target args => .delegate target (Expr.markedList m args)
  | .returnValue value => .returnValue (Expr.markedOption m value)
  | .throwValue e => .throwValue (e.marked m)
  | .tryCatch rs body cs last =>
    .tryCatch (Resource.markedList m rs) (Stmt.markedList m body) (Catch.markedList m cs)
      (Stmt.markedBlock m last)

def Stmt.markedBlock (m : Marking) : Option (List Stmt) → Option (List Stmt)
  | none => none
  | some body => some (Stmt.markedList m body)

def Stmt.markedList (m : Marking) : List Stmt → List Stmt
  | [] => []
  | s :: ss => s.marked m :: Stmt.markedList m ss

def Else.marked (m : Marking) : Else → Else
  | .absent => .absent
  | .block body => .block (Stmt.markedList m body)
  | .chained cs body otherwise =>
    .chained (Condition.markedList m cs) (Stmt.markedList m body) (otherwise.marked m)

def Case.markedList (m : Marking) : List Case → List Case
  | [] => []
  | ⟨label, body⟩ :: cs => ⟨label.marked m, Stmt.markedList m body⟩ :: Case.markedList m cs

def Resource.markedList (m : Marking) : List Resource → List Resource
  | [] => []
  | ⟨ty, name, init⟩ :: rs => ⟨ty, name, init.marked m⟩ :: Resource.markedList m rs

def Catch.markedList (m : Marking) : List Catch → List Catch
  | [] => []
  | ⟨types, name, body⟩ :: cs => ⟨types, name, Stmt.markedList m body⟩ :: Catch.markedList m cs

def Declarator.markedList (m : Marking) : List Declarator → List Declarator
  | [] => []
  | ⟨name, init⟩ :: ds => ⟨name, Expr.markedOption m init⟩ :: Declarator.markedList m ds

def Member.marked (m : Marking) : Member → Member
  | .fields isShared _ ty ds => .fields isShared m.isVariable (m.ty ty) (Declarator.markedList m ds)
  | .method ⟨isShared, isActual, kind, result, name, typeParams, params, body⟩ =>
    .method ⟨isShared, isActual, kind, result, name, typeParams, params.map (Param.marked m),
      Stmt.markedBlock m body⟩
  | .constructor isShared params body =>
    .constructor isShared (params.map (Param.marked m)) (Stmt.markedList m body)
  | .enumConstructor enumName params body =>
    .enumConstructor enumName (params.map (Param.marked m)) (Stmt.markedList m body)
  | .type decl => .type (decl.marked m)
  | .statements body => .statements (Stmt.markedList m body)

def Member.markedList (m : Marking) : List Member → List Member
  | [] => []
  | d :: ds => d.marked m :: Member.markedList m ds

def Constant.markedList (m : Marking) : List Constant → List Constant
  | [] => []
  | ⟨name, args⟩ :: cs => ⟨name, Expr.markedList m args⟩ :: Constant.markedList m cs

def TypeDecl.marked (m : Marking) : TypeDecl → TypeDecl
  | .ofClass ⟨isShared, isAbstract, name, typeParams, takesNothing, superclass, interfaces, body⟩ =>
    .ofClass ⟨isShared, isAbstract, name, typeParams, takesNothing, superclass, interfaces,
      Member.markedList m body⟩
  | .ofInterface ⟨isShared, name, typeParams, interfaces, body⟩ =>
    .ofInterface ⟨isShared, name, typeParams, interfaces, Member.markedList m body⟩
  | .ofEnumeration ⟨isShared, name, interfaces, body, constants⟩ =>
    .ofEnumeration ⟨isShared, name, interfaces, Member.markedList m body,
      Constant.markedList m constants⟩
end

def Source.marked (m : Marking) (s : Source) : Source :=
  ⟨s.imports, s.types.map (TypeDecl.marked m)⟩

/-! ## Temporary numbers -/

@[simp] theorem Slot.isBound_marked (m : Marking) (s : Slot) : (s.marked m).isBound = s.isBound := by
  cases s <;> rfl

@[simp] theorem Slot.ownTemps_marked (m : Marking) (a b : Slot) :
    Slot.ownTemps (a.marked m) (b.marked m) = Slot.ownTemps a b := by
  simp [Slot.ownTemps]

mutual
@[simp] theorem Expr.temps_marked (m : Marking) : (e : Expr) → (e.marked m).temps = e.temps
  | .literal _ | .name _ | .thisRef | .superRef => rfl
  | .paren e | .property e _ | .before _ e | .after e _ | .existence _ _ e | .isType e _ =>
    Expr.temps_marked m e
  | .call target _ _ args => by
    simp [Expr.marked, Expr.temps, Expr.tempsOption_marked m target, Expr.tempsList_marked m args]
  | .instantiate _ args | .array args => Expr.tempsList_marked m args
  | .object _ args body => by
    simp [Expr.marked, Expr.temps, Expr.tempsList_marked m args, Member.tempsList_marked m body]
  | .get a b | .assign a _ b | .binary a _ b => by
    simp [Expr.marked, Expr.temps, Expr.temps_marked m a, Expr.temps_marked m b]
  | .set a b c => by
    simp [Expr.marked, Expr.temps, Expr.temps_marked m a, Expr.temps_marked m b,
      Expr.temps_marked m c]
  | .update array index _ value => by
    simp [Expr.marked, Expr.temps, Slot.temps_marked m array, Slot.temps_marked m index,
      Expr.temps_marked m value]
  | .conditional cs a b => by
    simp [Expr.marked, Expr.temps, Condition.tempsList_marked m cs, Expr.temps_marked m a,
      Expr.temps_marked m b]

@[simp] theorem Expr.tempsOption_marked (m : Marking) : (e : Option Expr) →
    Expr.tempsOption (Expr.markedOption m e) = Expr.tempsOption e
  | none => rfl
  | some e => Expr.temps_marked m e

@[simp] theorem Expr.tempsList_marked (m : Marking) : (es : List Expr) →
    Expr.tempsList (Expr.markedList m es) = Expr.tempsList es
  | [] => rfl
  | e :: es => by
    simp [Expr.markedList, Expr.tempsList, Expr.temps_marked m e, Expr.tempsList_marked m es]

@[simp] theorem Slot.temps_marked (m : Marking) : (s : Slot) → (s.marked m).temps = s.temps
  | .direct e | .bound e => Expr.temps_marked m e

@[simp] theorem Condition.temps_marked (m : Marking) : (c : Condition) →
    (c.marked m).temps = c.temps
  | .isType _ e | .holds e => Expr.temps_marked m e

@[simp] theorem Condition.tempsList_marked (m : Marking) : (cs : List Condition) →
    Condition.tempsList (Condition.markedList m cs) = Condition.tempsList cs
  | [] => rfl
  | c :: cs => by
    simp [Condition.markedList, Condition.tempsList, Condition.temps_marked m c,
      Condition.tempsList_marked m cs]

@[simp] theorem Stmt.temps_marked (m : Marking) : (s : Stmt) → (s.marked m).temps = s.temps
  | .block body => Stmt.tempsList_marked m body
  | .declare _ _ _ init => Expr.tempsOption_marked m init
  | .assertType _ _ e | .expr e | .breakIf e | .throwValue e => Expr.temps_marked m e
  | .update array index _ value => by
    simp [Stmt.marked, Stmt.temps, Slot.temps_marked m array, Slot.temps_marked m index,
      Expr.temps_marked m value]
  | .ifElse cs body otherwise => by
    simp [Stmt.marked, Stmt.temps, Condition.tempsList_marked m cs, Stmt.tempsList_marked m body,
      Else.temps_marked m otherwise]
  | .whileLoop e body | .forIn _ _ e body => by
    simp [Stmt.marked, Stmt.temps, Expr.temps_marked m e, Stmt.tempsList_marked m body]
  | .breakLoop | .continueLoop => rfl
  | .switch e cs otherwise => by
    simp [Stmt.marked, Stmt.temps, Expr.temps_marked m e, Case.tempsList_marked m cs,
      Stmt.tempsOption_marked m otherwise]
  | .delegate _ args => Expr.tempsList_marked m args
  | .returnValue value => Expr.tempsOption_marked m value
  | .tryCatch rs body cs last => by
    simp [Stmt.marked, Stmt.temps, Resource.tempsList_marked m rs, Stmt.tempsList_marked m body,
      Catch.tempsList_marked m cs, Stmt.tempsOption_marked m last]

@[simp] theorem Stmt.tempsOption_marked (m : Marking) : (b : Option (List Stmt)) →
    Stmt.tempsOption (Stmt.markedBlock m b) = Stmt.tempsOption b
  | none => rfl
  | some body => Stmt.tempsList_marked m body

@[simp] theorem Stmt.tempsList_marked (m : Marking) : (ss : List Stmt) →
    Stmt.tempsList (Stmt.markedList m ss) = Stmt.tempsList ss
  | [] => rfl
  | s :: ss => by
    simp [Stmt.markedList, Stmt.tempsList, Stmt.temps_marked m s, Stmt.tempsList_marked m ss]

@[simp] theorem Else.temps_marked (m : Marking) : (e : Else) → (e.marked m).temps = e.temps
  | .absent => rfl
  | .block body => Stmt.tempsList_marked m body
  | .chained cs body otherwise => by
    simp [Else.marked, Else.temps, Condition.tempsList_marked m cs, Stmt.tempsList_marked m body,
      Else.temps_marked m otherwise]

@[simp] theorem Case.tempsList_marked (m : Marking) : (cs : List Case) →
    Case.tempsList (Case.markedList m cs) = Case.tempsList cs
  | [] => rfl
  | ⟨label, body⟩ :: cs => by
    simp [Case.markedList, Case.tempsList, Expr.temps_marked m label, Stmt.tempsList_marked m body,
      Case.tempsList_marked m cs]

@[simp] theorem Resource.tempsList_marked (m : Marking) : (rs : List Resource) →
    Resource.tempsList (Resource.markedList m rs) = Resource.tempsList rs
  | [] => rfl
  | ⟨_, _, init⟩ :: rs => by
    simp [Resource.markedList, Resource.tempsList, Expr.temps_marked m init,
      Resource.tempsList_marked m rs]

@[simp] theorem Catch.tempsList_marked (m : Marking) : (cs : List Catch) →
    Catch.tempsList (Catch.markedList m cs) = Catch.tempsList cs
  | [] => rfl
  | ⟨_, _, body⟩ :: cs => by
    simp [Catch.markedList, Catch.tempsList, Stmt.tempsList_marked m body,
      Catch.tempsList_marked m cs]

@[simp] theorem Declarator.tempsList_marked (m : Marking) : (ds : List Declarator) →
    Declarator.tempsList (Declarator.markedList m ds) = Declarator.tempsList ds
  | [] => rfl
  | ⟨_, init⟩ :: ds => by
    simp [Declarator.markedList, Declarator.tempsList, Expr.tempsOption_marked m init,
      Declarator.tempsList_marked m ds]

@[simp] theorem Member.temps_marked (m : Marking) : (d : Member) → (d.marked m).temps = d.temps
  | .fields _ _ _ ds => Declarator.tempsList_marked m ds
  | .method ⟨_, _, _, _, _, _, _, body⟩ => Stmt.tempsOption_marked m body
  | .constructor _ _ body | .enumConstructor _ _ body | .statements body =>
    Stmt.tempsList_marked m body
  | .type decl => TypeDecl.temps_marked m decl

@[simp] theorem Member.tempsList_marked (m : Marking) : (ds : List Member) →
    Member.tempsList (Member.markedList m ds) = Member.tempsList ds
  | [] => rfl
  | d :: ds => by
    simp [Member.markedList, Member.tempsList, Member.temps_marked m d,
      Member.tempsList_marked m ds]

@[simp] theorem Constant.tempsList_marked (m : Marking) : (cs : List Constant) →
    Constant.tempsList (Constant.markedList m cs) = Constant.tempsList cs
  | [] => rfl
  | ⟨_, args⟩ :: cs => by
    simp [Constant.markedList, Constant.tempsList, Expr.tempsList_marked m args,
      Constant.tempsList_marked m cs]

@[simp] theorem TypeDecl.temps_marked (m : Marking) : (t : TypeDecl) → (t.marked m).temps = t.temps
  | .ofClass ⟨_, _, _, _, _, _, _, body⟩ => Member.tempsList_marked m body
  | .ofInterface ⟨_, _, _, _, body⟩ => Member.tempsList_marked m body
  | .ofEnumeration ⟨_, _, _, body, constants⟩ => by
    simp [TypeDecl.marked, TypeDecl.temps, Member.tempsList_marked m body,
      Constant.tempsList_marked m constants]
end

/-! ## Texts with gaps -/

/-- A piece, or the place of a declared type and the text right after it. -/
inductive Gapped where
  | piece (p : Piece)
  | site (ty : Ty) (next : String) (hnext : next ≠ "")

namespace Gapped

def fillOne (m : Marking) : Gapped → List Piece
  | .piece p => [p]
  | .site ty next _ => wordIf m.isVariable "variable " ++ [.text (m.ty ty).text, .text next]

def fill (m : Marking) (gs : List Gapped) : List Piece := gs.flatMap (fillOne m)

/-- The text between the gaps; `before` is what stands before the first piece. -/
def parts : String → Nat → Bool → List Gapped → List String
  | before, _, _, [] => [before]
  | before, level, fresh, .piece p :: gs =>
    parts (before ++ String.join (Piece.lines level fresh [p])) (Piece.moved (level, fresh) p).1
      (Piece.moved (level, fresh) p).2 gs
  | before, level, fresh, .site ty next _ :: gs =>
    (before ++ if fresh then indentation level else "") :: parts (ty.text ++ next) level false gs

theorem parts_ne_nil (before : String) (level : Nat) (fresh : Bool) (gs : List Gapped) :
    parts before level fresh gs ≠ [] := by
  fun_induction parts before level fresh gs with
  | case1 => simp
  | case2 _ _ _ _ _ ih => exact ih
  | case3 => simp

end Gapped

theorem Marking.text_prefixed (word : String) (ty : Ty) :
    (Marking.prefixed word ty).text = word ++ ty.text := by
  cases ty with
  | nil => simp [Marking.prefixed, Ty.text, segmentsText, bracketedText]
  | cons segment segments =>
    obtain ⟨name, args⟩ := segment
    cases segments <;> simp [Marking.prefixed, Ty.text, segmentsText, String.append_assoc]

/-- Two texts of which the second has characters. -/
theorem join_lines_texts (s : String) {next : String} (hnext : next ≠ "") (level : Nat) (fresh : Bool)
    (ps : List Piece) :
    String.join (Piece.lines level fresh (.text s :: .text next :: ps)) =
      (if fresh then indentation level else "") ++ s ++ next ++
        String.join (Piece.lines level false ps) := by
  by_cases hs : s = ""
  · subst hs
    cases fresh <;> simp [Piece.lines, hnext, String.append_assoc]
  · cases fresh <;> simp [Piece.lines, hs, hnext, String.append_assoc]

/-- A site is written after the indentation, the word of the marking first. -/
theorem Gapped.join_lines_site (m : Marking) (ty : Ty) {next : String} (hnext : next ≠ "")
    (level : Nat) (fresh : Bool) (ps : List Piece) :
    String.join (Piece.lines level fresh (fillOne m (.site ty next hnext) ++ ps)) =
      (if fresh then indentation level else "") ++ m.word ++ (ty.text ++ next) ++
        String.join (Piece.lines level false ps) := by
  cases m with
  | plain => simp [fillOne, wordIf, Marking.isVariable, Marking.ty, Marking.word,
      join_lines_texts _ hnext, String.append_assoc]
  | spelled word => simp [fillOne, wordIf, Marking.isVariable, Marking.ty, Marking.word,
      join_lines_texts _ hnext, Marking.text_prefixed, String.append_assoc]
  | asVariable =>
    have hfirst : ∀ ps, String.join (Piece.lines level fresh (.text "variable " :: ps)) =
        (if fresh then indentation level else "") ++ "variable " ++
          String.join (Piece.lines level false ps) := by
      intro ps
      cases fresh <;> simp [Piece.lines, String.append_assoc]
    have hfill : fillOne .asVariable (.site ty next hnext) ++ ps =
        .text "variable " :: .text ty.text :: .text next :: ps := rfl
    rw [hfill, hfirst, join_lines_texts _ hnext]
    simp [Marking.word, String.append_assoc]

theorem Gapped.intercalate_parts (m : Marking) (before : String) (level : Nat) (fresh : Bool)
    (gs : List Gapped) :
    String.intercalate m.word (parts before level fresh gs) =
      before ++ String.join (Piece.lines level fresh (fill m gs)) := by
  fun_induction parts before level fresh gs with
  | case1 => simp [fill, Piece.lines]
  | case2 before level fresh p gs ih =>
    have hfill : fill m (.piece p :: gs) = p :: fill m gs := rfl
    rw [ih, hfill, Piece.lines_cons level fresh p (fill m gs), String.join_append,
      String.append_assoc]
  | case3 before level fresh ty next hnext gs ih =>
    obtain ⟨part, further, hparts⟩ := List.exists_cons_of_ne_nil
      (parts_ne_nil (ty.text ++ next) level false gs)
    rw [fill, List.flatMap_cons, join_lines_site, ← fill, hparts, String.intercalate_cons_cons,
      ← hparts, ih]
    simp only [String.append_assoc]

/-! ## Layouts with gaps -/

/-- Pieces with the same gaps for all markings. -/
def Uniform (F : Marking → List Piece) : Prop := ∃ gs, ∀ m, F m = Gapped.fill m gs

/-- Several such pieces, as many for all markings. -/
def UniformAll (F : Marking → List (List Piece)) : Prop :=
  ∃ gss : List (List Gapped), ∀ m, F m = gss.map (Gapped.fill m)

theorem uniform_const (ps : List Piece) : Uniform fun _ => ps := by
  refine ⟨ps.map .piece, fun m => ?_⟩
  simp [Gapped.fill, List.flatMap_map, Gapped.fillOne]

theorem Uniform.append {F G : Marking → List Piece} (hF : Uniform F) (hG : Uniform G) :
    Uniform fun m => F m ++ G m := by
  obtain ⟨gs, hgs⟩ := hF
  obtain ⟨gs', hgs'⟩ := hG
  exact ⟨gs ++ gs', fun m => by simp [hgs, hgs', Gapped.fill]⟩

theorem Uniform.cons {F : Marking → List Piece} (hF : Uniform F) (p : Piece) :
    Uniform fun m => p :: F m :=
  (uniform_const [p]).append hF

/-- The place of a type: what follows it has characters. -/
theorem uniform_site (ty : Ty) {next : String} (hnext : next ≠ "") (more : List Piece) :
    Uniform fun m =>
      wordIf m.isVariable "variable " ++ .text (m.ty ty).text :: .text next :: more := by
  refine ⟨.site ty next hnext :: more.map .piece, fun m => ?_⟩
  simp [Gapped.fill, Gapped.fillOne, List.flatMap_map]

theorem Uniform.ite {c : Prop} [Decidable c] {F G : Marking → List Piece} (hF : Uniform F)
    (hG : Uniform G) : Uniform fun m => if c then F m else G m := by
  by_cases hc : c
  · simpa only [if_pos hc] using hF
  · simpa only [if_neg hc] using hG

theorem Uniform.braced {F : Marking → List Piece} (hF : Uniform F) :
    Uniform fun m => Piece.braced (F m) :=
  ((uniform_const _).append hF).append (uniform_const _)

namespace UniformAll

variable {F G : Marking → List (List Piece)}

theorem nil : UniformAll fun _ => [] := ⟨[], fun _ => rfl⟩

theorem cons {P : Marking → List Piece} (hP : Uniform P) (hF : UniformAll F) :
    UniformAll fun m => P m :: F m := by
  obtain ⟨gs, hgs⟩ := hP
  obtain ⟨gss, hgss⟩ := hF
  exact ⟨gs :: gss, fun m => by simp [hgs, hgss]⟩

theorem append (hF : UniformAll F) (hG : UniformAll G) : UniformAll fun m => F m ++ G m := by
  obtain ⟨gss, hgss⟩ := hF
  obtain ⟨gss', hgss'⟩ := hG
  exact ⟨gss ++ gss', fun m => by simp [hgss, hgss']⟩

theorem separated (between : String) (hF : UniformAll F) :
    Uniform fun m => Piece.separated between (F m) := by
  obtain ⟨gss, hgss⟩ := hF
  simp only [hgss]
  clear hgss
  induction gss with
  | nil => exact uniform_const []
  | cons gs gss ih =>
    have hfirst : Uniform fun m => Gapped.fill m gs := ⟨gs, fun _ => rfl⟩
    cases gss with
    | nil => exact hfirst
    | cons gs' gss => exact hfirst.append (ih.cons (.text between))

/-- Each with a text before it and pieces after it. -/
theorem flatMap (first : Piece) (last : List Piece) (hF : UniformAll F) :
    Uniform fun m => (F m).flatMap fun ps => first :: ps ++ last := by
  obtain ⟨gss, hgss⟩ := hF
  simp only [hgss]
  clear hgss
  induction gss with
  | nil => exact uniform_const []
  | cons gs gss ih =>
    have hfirst : Uniform fun m => Gapped.fill m gs := ⟨gs, fun _ => rfl⟩
    exact ((hfirst.cons first).append (uniform_const last)).append ih

theorem ifEmpty (hF : UniformAll F) {G : Marking → List Piece} (hG : Uniform G) :
    Uniform fun m => if (F m).isEmpty then [] else G m := by
  obtain ⟨gss, hgss⟩ := hF
  simp only [hgss, List.isEmpty_map]
  exact .ite (uniform_const []) hG

end UniformAll

theorem Param.uniform_pieces (p : Param) : Uniform fun m => (p.marked m).pieces := by
  cases hsequenced : p.sequenced with
  | false =>
    simpa [Param.marked, Param.pieces, wordIf, hsequenced] using
      uniform_site p.ty (by decide : " " ≠ "") [.text p.name]
  | true =>
    simpa [Param.marked, Param.pieces, wordIf, hsequenced] using
      uniform_site p.ty (by decide : "*" ≠ "") [.text " ", .text p.name]

theorem Param.uniformAll (params : List Param) :
    UniformAll fun m => (params.map (Param.marked m)).map Param.pieces := by
  induction params with
  | nil => exact .nil
  | cons p params ih => exact .cons p.uniform_pieces ih

theorem uniform_paramPieces (params : List Param) :
    Uniform fun m => paramPieces (params.map (Param.marked m)) :=
  (Param.uniformAll params).separated ", "

theorem uniform_furtherParams (params : List Param) :
    Uniform fun m => (params.map (Param.marked m)).flatMap fun p => .text ", " :: p.pieces := by
  induction params with
  | nil => exact uniform_const []
  | cons p params ih => exact (p.uniform_pieces.cons _).append ih

/-- What an update writes after its bindings. -/
theorem uniform_update {a i v : Marking → List Piece} (ha : Uniform a) (hi : Uniform i)
    (op : Java.ArithOp) (hv : Uniform v) (last : List Piece) :
    Uniform fun m => a m ++ .text ".set(" :: i m ++ .text ", " :: a m ++ .text ".get(" :: i m ++
      [.text ") ", .text op.symbol, .text " "] ++ v m ++ last :=
  (((((ha.append (hi.cons _)).append (ha.cons _)).append (hi.cons _)).append (uniform_const _)).append
    hv).append (uniform_const _)

@[simp] theorem Member.isFields_marked (m : Marking) (d : Member) :
    (d.marked m).isFields = d.isFields := by
  cases d with
  | method decl =>
    obtain ⟨_, _, _, _, _, _, _, _⟩ := decl
    rfl
  | _ => rfl

@[simp] theorem Member.isEmpty_markedList (m : Marking) (ds : List Member) :
    (Member.markedList m ds).isEmpty = ds.isEmpty := by
  cases ds <;> rfl

@[simp] theorem Constant.isEmpty_markedList (m : Marking) (cs : List Constant) :
    (Constant.markedList m cs).isEmpty = cs.isEmpty := by
  cases cs with
  | nil => rfl
  | cons c cs =>
    obtain ⟨_, _⟩ := c
    rfl

mutual
theorem Expr.uniform_pieces : (e : Expr) → (k : Nat) → Uniform fun m => (e.marked m).pieces k
  | .literal _, k | .name _, k | .thisRef, k | .superRef, k | .array [], k => uniform_const _
  | .paren e, k => ((Expr.uniform_pieces e k).cons _).append (uniform_const _)
  | .property e _, k | .isType e _, k | .after e _, k =>
    (Expr.uniform_pieces e k).append (uniform_const _)
  | .before _ e, k => (Expr.uniform_pieces e k).cons _
  | .call target _ _ args, k => by
    simp only [Expr.marked, Expr.pieces, Expr.tempsOption_marked]
    exact (((Expr.uniform_targetPieces target k).append (uniform_const _)).append
      (Expr.uniform_piecesList args _)).append (uniform_const _)
  | .instantiate _ args, k =>
    ((uniform_const _).append (Expr.uniform_piecesList args k)).append (uniform_const _)
  | .object _ [] body, k => (uniform_const _).append (Member.uniform_piecesList body k).braced
  | .object _ (a :: args) body, k => by
    have hargs := Expr.uniform_piecesList (a :: args) k
    simp only [Expr.marked, Expr.markedList, Expr.pieces, Expr.tempsList, Expr.temps_marked,
      Expr.tempsList_marked] at hargs ⊢
    exact ((uniform_const _).append hargs).append ((Member.uniform_piecesList body _).braced.cons _)
  | .array (e :: es), k => ((Expr.uniform_piecesList (e :: es) k).cons _).append (uniform_const _)
  | .get a b, k => by
    simp only [Expr.marked, Expr.pieces, Expr.temps_marked]
    exact ((Expr.uniform_pieces a k).append ((Expr.uniform_pieces b _).cons _)).append
      (uniform_const _)
  | .assign a _ b, k | .binary a _ b, k => by
    simp only [Expr.marked, Expr.pieces, Expr.temps_marked]
    exact ((Expr.uniform_pieces a k).append (uniform_const _)).append (Expr.uniform_pieces b _)
  | .set a b c, k => by
    simp only [Expr.marked, Expr.pieces, Expr.temps_marked]
    exact (((Expr.uniform_pieces a k).append ((Expr.uniform_pieces b _).cons _)).append
      ((Expr.uniform_pieces c _).cons _)).append (uniform_const _)
  | .update array index op value, k => by
    have hbindings := fun n n' => (Slot.uniform_bindingPieces array .array k n).append
      (Slot.uniform_bindingPieces index .index k n')
    have hrest := fun n => uniform_update (Slot.uniform_usePieces array .array k)
      (Slot.uniform_usePieces index .index k) op (Expr.uniform_pieces value n) [.text ")"]
    simp only [Expr.marked, Expr.pieces, Slot.ownTemps_marked, Slot.temps_marked]
    exact ((hbindings _ _).ifEmpty ((((hbindings _ _).separated ", ").cons _).append
      (uniform_const _))).append (hrest _)
  | .existence _ _ e, k => (uniform_const _).append (Expr.uniform_pieces e k)
  | .conditional cs a b, k => by
    simp only [Expr.marked, Expr.pieces, Condition.tempsList_marked, Expr.temps_marked]
    exact (((Condition.uniform_piecesList cs k).cons _).append
      ((Expr.uniform_pieces a _).cons _)).append ((Expr.uniform_pieces b _).cons _)
termination_by structural e => e

theorem Expr.uniform_targetPieces : (e : Option Expr) → (k : Nat) →
    Uniform fun m => Expr.targetPieces (Expr.markedOption m e) k
  | none, _ => uniform_const []
  | some e, k => (Expr.uniform_pieces e k).append (uniform_const _)
termination_by structural e => e

theorem Expr.uniform_piecesList : (es : List Expr) → (k : Nat) →
    Uniform fun m => Expr.piecesList (Expr.markedList m es) k
  | [], _ => uniform_const []
  | [e], k => Expr.uniform_pieces e k
  | e :: e' :: es, k => by
    have hrest := Expr.uniform_piecesList (e' :: es) (k + e.temps)
    simp only [Expr.markedList, Expr.piecesList, Expr.temps_marked] at hrest ⊢
    exact (Expr.uniform_pieces e k).append (hrest.cons _)
termination_by structural es => es

theorem Slot.uniform_bindingPieces : (s : Slot) → (role : Role) → (n k : Nat) →
    UniformAll fun m => (s.marked m).bindingPieces role n k
  | .direct _, _, _, _ => .nil
  | .bound e, _, _, k => .cons ((uniform_const _).append (Expr.uniform_pieces e k)) .nil
termination_by structural s => s

theorem Slot.uniform_usePieces : (s : Slot) → (role : Role) → (k : Nat) →
    Uniform fun m => (s.marked m).usePieces role k
  | .direct e, _, k => Expr.uniform_pieces e k
  | .bound _, _, _ => uniform_const _
termination_by structural s => s

theorem Condition.uniform_pieces : (c : Condition) → (k : Nat) →
    Uniform fun m => (c.marked m).pieces k
  | .isType _ e, k => (uniform_const _).append (Expr.uniform_pieces e k)
  | .holds e, k => Expr.uniform_pieces e k
termination_by structural c => c

theorem Condition.uniform_piecesList : (cs : List Condition) → (k : Nat) →
    Uniform fun m => Condition.piecesList (Condition.markedList m cs) k
  | [], _ => uniform_const []
  | [c], k => Condition.uniform_pieces c k
  | c :: c' :: cs, k => by
    have hrest := Condition.uniform_piecesList (c' :: cs) (k + c.temps)
    simp only [Condition.markedList, Condition.piecesList, Condition.temps_marked] at hrest ⊢
    exact (Condition.uniform_pieces c k).append (hrest.cons _)
termination_by structural cs => cs

theorem Stmt.uniform_pieces : (s : Stmt) → (k : Nat) → Uniform fun m => (s.marked m).pieces k
  | .block body, k => (Stmt.uniform_piecesList body k).braced.append (uniform_const _)
  | .declare _ ty name init, k => by
    have hsite := uniform_site ty (by decide : " " ≠ "") [.text name]
    exact (hsite.append (Expr.uniform_initPieces init k)).append (uniform_const _)
  | .assertType _ _ e, k | .returnValue (some e), k =>
    ((uniform_const _).append (Expr.uniform_pieces e k)).append (uniform_const _)
  | .expr e, k => (Expr.uniform_pieces e k).append (uniform_const _)
  | .breakIf e, k | .throwValue e, k =>
    ((Expr.uniform_pieces e k).cons _).append (uniform_const _)
  | .update array index op value, k => by
    have hbindings := fun n n' => (Slot.uniform_bindingPieces array .array k n).append
      (Slot.uniform_bindingPieces index .index k n')
    have hrest := fun n => uniform_update (Slot.uniform_usePieces array .array k)
      (Slot.uniform_usePieces index .index k) op (Expr.uniform_pieces value n)
      [.text ")", .text ";", .newline]
    simp only [Stmt.marked, Stmt.pieces, Slot.ownTemps_marked, Slot.temps_marked]
    exact ((hbindings _ _).flatMap (.text "value ") [.text ";", .newline]).append (hrest _)
  | .ifElse cs body otherwise, k => by
    simp only [Stmt.marked, Stmt.pieces, Condition.tempsList_marked, Stmt.tempsList_marked]
    exact ((((Condition.uniform_piecesList cs k).cons _).append
      ((Stmt.uniform_piecesList body _).braced.cons _)).append
      (Else.uniform_pieces otherwise _)).append (uniform_const _)
  | .whileLoop cond body, k => by
    simp only [Stmt.marked, Stmt.pieces, Expr.temps_marked]
    exact (((Expr.uniform_pieces cond k).cons _).append
      ((Stmt.uniform_piecesList body _).braced.cons _)).append (uniform_const _)
  | .forIn _ _ e body, k => by
    simp only [Stmt.marked, Stmt.pieces, Expr.temps_marked]
    exact (((uniform_const _).append (Expr.uniform_pieces e k)).append
      ((Stmt.uniform_piecesList body _).braced.cons _)).append (uniform_const _)
  | .breakLoop, k | .continueLoop, k | .returnValue none, k => uniform_const _
  | .switch e cases otherwise, k => by
    simp only [Stmt.marked, Stmt.pieces, Expr.temps_marked, Case.tempsList_marked]
    exact (((((Expr.uniform_pieces e k).cons _).append (uniform_const _)).append
      (Case.uniform_piecesList cases _)).append (Stmt.uniform_elsePieces otherwise _)).append
      (uniform_const _)
  | .delegate _ args, k =>
    ((uniform_const _).append (Expr.uniform_piecesList args k)).append (uniform_const _)
  | .tryCatch rs body cs last, k => by
    simp only [Stmt.marked, Stmt.pieces, Resource.tempsList_marked, Stmt.tempsList_marked,
      Catch.tempsList_marked]
    exact (((((Resource.uniform_listPieces rs k).cons _).append
      (Stmt.uniform_piecesList body _).braced).append (Catch.uniform_piecesList cs _)).append
      (Stmt.uniform_finallyPieces last _)).append (uniform_const _)
termination_by structural s => s

theorem Expr.uniform_initPieces : (e : Option Expr) → (k : Nat) →
    Uniform fun m => Expr.initPieces (Expr.markedOption m e) k
  | none, _ => uniform_const []
  | some e, k => (Expr.uniform_pieces e k).cons _
termination_by structural e => e

theorem Stmt.uniform_piecesList : (ss : List Stmt) → (k : Nat) →
    Uniform fun m => Stmt.piecesList (Stmt.markedList m ss) k
  | [], _ => uniform_const []
  | s :: ss, k => by
    simp only [Stmt.markedList, Stmt.piecesList, Stmt.temps_marked]
    exact (Stmt.uniform_pieces s k).append (Stmt.uniform_piecesList ss _)
termination_by structural ss => ss

theorem Stmt.uniform_elsePieces : (b : Option (List Stmt)) → (k : Nat) →
    Uniform fun m => Stmt.elsePieces (Stmt.markedBlock m b) k
  | none, _ => uniform_const _
  | some b, k => (Stmt.uniform_piecesList b k).braced.cons _
termination_by structural b => b

theorem Stmt.uniform_finallyPieces : (b : Option (List Stmt)) → (k : Nat) →
    Uniform fun m => Stmt.finallyPieces (Stmt.markedBlock m b) k
  | none, _ => uniform_const []
  | some b, k => (Stmt.uniform_piecesList b k).braced.cons _
termination_by structural b => b

theorem Else.uniform_pieces : (e : Else) → (k : Nat) → Uniform fun m => (e.marked m).pieces k
  | .absent, _ => uniform_const []
  | .block body, k => (Stmt.uniform_piecesList body k).braced.cons _
  | .chained cs body otherwise, k => by
    simp only [Else.marked, Else.pieces, Condition.tempsList_marked, Stmt.tempsList_marked]
    exact (((uniform_const _).append (Condition.uniform_piecesList cs k)).append
      ((Stmt.uniform_piecesList body _).braced.cons _)).append (Else.uniform_pieces otherwise _)
termination_by structural e => e

theorem Case.uniform_piecesList : (cs : List Case) → (k : Nat) →
    Uniform fun m => Case.piecesList (Case.markedList m cs) k
  | [], _ => uniform_const []
  | ⟨label, body⟩ :: cs, k => by
    simp only [Case.markedList, Case.piecesList, Expr.temps_marked, Stmt.tempsList_marked]
    exact (((Expr.uniform_pieces label k).cons _).append
      ((Stmt.uniform_piecesList body _).braced.cons _)).append
      ((Case.uniform_piecesList cs _).cons _)
termination_by structural cs => cs

theorem Resource.uniform_listPieces : (rs : List Resource) → (k : Nat) →
    Uniform fun m => Resource.listPieces (Resource.markedList m rs) k
  | [], _ => uniform_const []
  | ⟨_, _, init⟩ :: rs, k => by
    simp only [Resource.markedList, Resource.listPieces, Expr.temps_marked]
    exact (((uniform_const _).append (Expr.uniform_pieces init k)).append
      (Resource.uniform_furtherPieces rs _)).append (uniform_const _)
termination_by structural rs => rs

theorem Resource.uniform_furtherPieces : (rs : List Resource) → (k : Nat) →
    Uniform fun m => Resource.furtherPieces (Resource.markedList m rs) k
  | [], _ => uniform_const []
  | ⟨_, _, init⟩ :: rs, k => by
    simp only [Resource.markedList, Resource.furtherPieces, Expr.temps_marked]
    exact ((uniform_const _).append (Expr.uniform_pieces init k)).append
      (Resource.uniform_furtherPieces rs _)
termination_by structural rs => rs

theorem Catch.uniform_piecesList : (cs : List Catch) → (k : Nat) →
    Uniform fun m => Catch.piecesList (Catch.markedList m cs) k
  | [], _ => uniform_const []
  | ⟨_, _, body⟩ :: cs, k => by
    simp only [Catch.markedList, Catch.piecesList, Stmt.tempsList_marked]
    exact ((uniform_const _).append (Stmt.uniform_piecesList body _).braced).append
      (Catch.uniform_piecesList cs _)
termination_by structural cs => cs

theorem Declarator.uniform_fieldPieces : (ds : List Declarator) → (isShared : Bool) → (ty : Ty) →
    (k : Nat) → Uniform fun m =>
      Declarator.fieldPieces (Declarator.markedList m ds) isShared m.isVariable (m.ty ty) k
  | [], _, _, _ => uniform_const []
  | ⟨name, init⟩ :: ds, isShared, ty, k => by
    have hsite := uniform_site ty (by decide : " " ≠ "") [.text name]
    have hfirst := ((((uniform_const (wordIf isShared "shared ")).append hsite).append
      (Expr.uniform_initPieces init k)).append (uniform_const [.text ";", .newline])).append
      (Declarator.uniform_fieldPieces ds isShared ty (k + Expr.tempsOption init))
    simpa only [Declarator.markedList, Declarator.fieldPieces, Expr.tempsOption_marked,
      Output.HasPieces.ofPiece_eq, List.append_assoc] using hfirst
termination_by structural ds => ds

theorem Stmt.uniform_bodyPieces : (b : Option (List Stmt)) → (k : Nat) →
    Uniform fun m => Stmt.bodyPieces (Stmt.markedBlock m b) k
  | none, _ => uniform_const _
  | some b, k => (Stmt.uniform_piecesList b k).braced.cons _
termination_by structural b => b

theorem Member.uniform_pieces : (d : Member) → (k : Nat) → Uniform fun m => (d.marked m).pieces k
  | .fields isShared _ ty ds, k => Declarator.uniform_fieldPieces ds isShared ty k
  | .method ⟨isShared, isActual, kind, result, name, typeParams, params, body⟩, k => by
    simp only [Member.marked, Member.pieces, Method.pieces]
    exact ((((uniform_const _).append (uniform_paramPieces params)).append (uniform_const _)).append
      (Stmt.uniform_bodyPieces body k)).append (uniform_const _)
  | .constructor _ params body, k => by
    simp only [Member.marked, Member.pieces]
    exact (((uniform_const _).append ((uniform_paramPieces params).cons _)).append
      ((Stmt.uniform_piecesList body k).braced.cons _)).append (uniform_const _)
  | .enumConstructor _ params body, k => by
    simp only [Member.marked, Member.pieces]
    exact (((uniform_const _).append (uniform_furtherParams params)).append
      ((((uniform_const _).append (Stmt.uniform_piecesList body k)).braced).cons _)).append
      (uniform_const _)
  | .type decl, k => TypeDecl.uniform_pieces decl k
  | .statements body, k => Stmt.uniform_piecesList body k
termination_by structural d => d

theorem Member.uniform_piecesList : (ds : List Member) → (k : Nat) →
    Uniform fun m => Member.piecesList (Member.markedList m ds) k
  | [], _ => uniform_const []
  | [d], k => Member.uniform_pieces d k
  | d :: d' :: ds, k => by
    have hrest := Member.uniform_piecesList (d' :: ds) (k + d.temps)
    simp only [Member.markedList, Member.piecesList, Member.temps_marked, Member.isFields_marked]
      at hrest ⊢
    exact ((Member.uniform_pieces d k).append (uniform_const _)).append hrest
termination_by structural ds => ds

theorem Constant.uniform_piecesList : (cs : List Constant) → (name : String) → (k : Nat) →
    Uniform fun m => Constant.piecesList (Constant.markedList m cs) name k
  | [], _, _ => uniform_const []
  | ⟨_, []⟩ :: cs, name, k => (uniform_const _).append (Constant.uniform_piecesList cs name k)
  | ⟨_, a :: args⟩ :: cs, name, k => by
    have hargs := Expr.uniform_piecesList (a :: args) k
    simp only [Constant.markedList, Expr.markedList, Constant.piecesList, Expr.tempsList,
      Expr.temps_marked, Expr.tempsList_marked] at hargs ⊢
    exact (((uniform_const _).append hargs).append (uniform_const _)).append
      (Constant.uniform_piecesList cs name _)
termination_by structural cs => cs

theorem TypeDecl.uniform_pieces : (t : TypeDecl) → (k : Nat) → Uniform fun m => (t.marked m).pieces k
  | .ofClass ⟨_, _, _, _, _, _, _, body⟩, k =>
    ((uniform_const _).append (Member.uniform_piecesList body k).braced).append (uniform_const _)
  | .ofInterface ⟨_, _, _, _, body⟩, k =>
    ((uniform_const _).append (Member.uniform_piecesList body k).braced).append (uniform_const _)
  | .ofEnumeration ⟨_, name, _, body, constants⟩, k => by
    have hmembers := (Member.uniform_piecesList body k).cons .newline
    have hconstants := (Constant.uniform_piecesList constants name (k + Member.tempsList body)).cons
      .newline
    simp only [TypeDecl.marked, TypeDecl.pieces, Member.isEmpty_markedList,
      Constant.isEmpty_markedList, Member.tempsList_marked]
    exact ((uniform_const _).append ((((uniform_const _).append
      (.ite (uniform_const []) hmembers)).append (.ite (uniform_const []) hconstants)).braced)).append
      (uniform_const _)
termination_by structural t => t
end

/-! ## Files -/

theorem TypeDecl.uniform_piecesList (ts : List TypeDecl) (k : Nat) :
    Uniform fun m => TypeDecl.piecesList (ts.map (TypeDecl.marked m)) k := by
  induction ts generalizing k with
  | nil => exact uniform_const []
  | cons t ts ih =>
    cases ts with
    | nil => exact t.uniform_pieces k
    | cons t' ts =>
      have hrest := ih (k + t.temps)
      simp only [List.map_cons, TypeDecl.piecesList, TypeDecl.temps_marked] at hrest ⊢
      exact (t.uniform_pieces k).append (hrest.cons _)

/-- The text of a file is made of parts, with the word of the marking between them. -/
theorem Source.exists_parts (s : Source) (k : Nat) : ∃ parts, ∀ m : Marking,
    Piece.render ((s.marked m).pieces k) = String.intercalate m.word parts := by
  obtain ⟨gs, hgs⟩ := (uniform_const s.imports.pieces).append (TypeDecl.uniform_piecesList s.types k)
  refine ⟨Gapped.parts "" 0 true gs, fun m => ?_⟩
  rw [Gapped.intercalate_parts, ← hgs m]
  simp [Piece.render, Source.pieces, Source.marked]

theorem Source.temps_marked (m : Marking) (s : Source) : (s.marked m).temps = s.temps := by
  have htypes : ∀ ts : List TypeDecl,
      TypeDecl.tempsList (ts.map (TypeDecl.marked m)) = TypeDecl.tempsList ts := by
    intro ts
    induction ts with
    | nil => rfl
    | cons t ts ih => simp [TypeDecl.tempsList, ih]
  exact htypes s.types

end CeylonFromJava.Ceylon
