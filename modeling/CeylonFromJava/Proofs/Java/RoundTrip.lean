import CeylonFromJava.Java.Encode
import CeylonFromJava.Java.Reader
import CeylonFromJava.Proofs.Json.Decoding

/-! Units are read back from their text.

Each node opens an object of its own, so the decoder of the nodes less than `n` nodes deep is never
asked for more while fewer than `n` lists and objects may be opened. -/
namespace CeylonFromJava.Java
set_option autoImplicit false

open Json.Decoder
open Json (Decoder)

/-! ## Levels and members -/

/-- The level of the decoders that are used. -/
abbrev deepest : Nat := depthLimit + 1

/-- A node is read at every level if it is read one level up. -/
theorem reads_of_step {α : Type} {p : Nat → Decoder α} {j : Json} {a : α}
    (h : ∀ n ≤ deepest, Reads (n + 1) (p (n + 1)) j a) : ∀ n ≤ deepest, Reads n (p n) j a
  | 0, _ => ⟨(h 0 (Nat.zero_le _)).fits, fun depth hdepth => absurd hdepth (Nat.not_lt_zero depth)⟩
  | n + 1, hn => h n (Nat.le_of_succ_le hn)

section

variable {α : Type} {k : Nat} {p : Decoder α} {ts : List Type} {rest : Fields ts} {name : String}
  {members : List (List (String × Json))} {values : Values ts}

theorem written_ifSome {j : Option Json} {a : Option α} (h : ReadsOption k p j a)
    (tail : rest.Written k members values) :
    (Fields.cons (defaulted name (option p) none) rest).Written k
      (Encode.ifSome name j :: members) (a, values) := by
  cases h with
  | none => exact .absent rfl tail
  | some read ne_null => exact .present (read.some ne_null) tail

theorem written_ifAny {js : List Json} {as : List α} (h : ReadsAll k p js as)
    (tail : rest.Written k members values) :
    (Fields.cons (defaulted name (list p) []) rest).Written k
      (Encode.ifAny name js :: members) (as, values) := by
  cases h with
  | nil => exact .absent rfl tail
  | cons head more => exact .present (ReadsAll.cons head more).list tail

theorem reads_orNull {j : Option Json} {a : Option α} (h : ReadsOption k p j a) :
    Reads k (option p) (Encode.orNull j) a := by
  cases h with
  | none => exact reads_none
  | some read ne_null => exact read.some ne_null

theorem readsOption_map {f : α → Json} (h : ∀ a, Reads k p (f a) a) (hf : ∀ a, f a ≠ .null)
    (a : Option α) : ReadsOption k p (a.map f) a := by
  cases a with
  | none => exact .none
  | some a => exact .some (h a) (hf a)

end

/-! ## Types -/

theorem reads_primitive {k : Nat} (p : Primitive) :
    Reads k Decode.primitive (Encode.primitive p) p :=
  reads_bare (by cases p <;> rfl)

theorem reads_unbounded {k : Nat} {p : Decoder TypeRef} :
    Reads k (Decode.wildcardOf p) (.object []) .unbounded := by
  show Reads k (Decode.wildcardOf p) (.object [[]].flatten) .unbounded
  exact reads_record (.absent rfl .nil) rfl rfl

theorem reads_bounded {k : Nat} {p : Decoder TypeRef} {kind : TypeRef → TypeArg} {name : String}
    {j : Json} {t : TypeRef} (hkind : Reads k Decode.boundKind (.string name) kind)
    (h : Reads k p j t) : Reads k (Decode.wildcardOf p)
      (Encode.record [Encode.always "bound" (.array [.string name, j])]) (kind t) :=
  reads_record (.present ((hkind.pair h).some (by simp)) .nil) rfl rfl

mutual
theorem reads_typeRefUpTo : (t : TypeRef) → ∀ n ≤ deepest,
    Reads n (Decode.typeRefUpTo n) (Encode.typeRef t) t
  | .primitive p => reads_of_step fun _ _ => reads_variant rfl ((reads_primitive p).map _)
  | .classType segments => reads_of_step fun n hn =>
    reads_variant rfl (Reads.map (reads_record
      (.present (readsAll_typeSegments segments n hn).list .nil) rfl rfl) _)
  | .array element dims => reads_of_step fun n hn =>
    reads_variant rfl (reads_record
      (.present (reads_typeRefUpTo element n hn) (.present (reads_count dims) .nil)) rfl rfl)
termination_by structural t => t

theorem readsAll_typeSegments : (ss : List TypeSegment) → ∀ n ≤ deepest,
    ReadsAll n (Decode.typeSegmentOf (Decode.typeRefUpTo n)) (Encode.typeSegments ss) ss
  | [], _, _ => .nil
  | ⟨name, args⟩ :: ss, n, hn =>
    .cons (reads_record
      (.present (reads_string name) (written_ifAny (readsAll_typeArgs args n hn) .nil)) rfl rfl)
      (readsAll_typeSegments ss n hn)
termination_by structural ss => ss

theorem reads_typeArg : (t : TypeArg) → ∀ n ≤ deepest,
    Reads n (Decode.typeArgOf (Decode.typeRefUpTo n)) (Encode.typeArg t) t
  | .exactly ty, n, hn => (reads_variant rfl ((reads_typeRefUpTo ty n hn).map _)).mono (Nat.le_succ n)
  | .unbounded, n, _ =>
    (reads_variant rfl reads_unbounded).mono (Nat.le_succ n)
  | .extending bound, n, hn =>
    (reads_variant rfl (reads_bounded (reads_bare rfl) (reads_typeRefUpTo bound n hn))).mono
      (Nat.le_succ n)
  | .superOf bound, n, hn =>
    (reads_variant rfl (reads_bounded (reads_bare rfl) (reads_typeRefUpTo bound n hn))).mono
      (Nat.le_succ n)
termination_by structural t => t

theorem readsAll_typeArgs : (ts : List TypeArg) → ∀ n ≤ deepest,
    ReadsAll n (Decode.typeArgOf (Decode.typeRefUpTo n)) (Encode.typeArgs ts) ts
  | [], _, _ => .nil
  | t :: ts, n, hn => .cons (reads_typeArg t n hn) (readsAll_typeArgs ts n hn)
termination_by structural ts => ts
end

section

variable {k : Nat} (hk : k ≤ deepest)

include hk

theorem reads_typeRef (t : TypeRef) : Reads k Decode.typeRef (Encode.typeRef t) t :=
  (reads_typeRefUpTo t deepest (Nat.le_refl _)).mono hk

theorem readsAll_typeRefs (ts : List TypeRef) :
    ReadsAll k Decode.typeRef (Encode.typeRefs ts) ts :=
  readsAll_map ts fun t _ => reads_typeRef hk t

theorem reads_classType (ty : ClassType) : Reads k Decode.classType (Encode.classType ty) ty :=
  (reads_record (.present (readsAll_typeSegments ty deepest (Nat.le_refl _)).list .nil)
    rfl rfl).mono hk

theorem readsAll_classTypes (ts : List ClassType) :
    ReadsAll k Decode.classType (ts.map Encode.classType) ts :=
  readsAll_map ts fun t _ => reads_classType hk t

theorem reads_typeParam (t : TypeParam) : Reads k Decode.typeParam (Encode.typeParam t) t :=
  reads_record (.present (reads_string t.name)
    (written_ifAny (readsAll_classTypes hk t.bounds) .nil)) rfl rfl

theorem readsAll_typeParams (ts : List TypeParam) :
    ReadsAll k Decode.typeParam (ts.map Encode.typeParam) ts :=
  readsAll_map ts fun t _ => reads_typeParam hk t

end

theorem typeRef_ne_null (t : TypeRef) : Encode.typeRef t ≠ .null :=
  (reads_typeRefUpTo t 1 (by decide)).ne_null_of_variant

theorem classType_ne_null (ty : ClassType) : Encode.classType ty ≠ .null := by
  simp [Encode.classType, Encode.record]

/-! ## Leaves -/

section

variable {k : Nat}

theorem readsAll_modifiers (ms : List Modifier) :
    ReadsAll k Decode.modifier (Encode.modifiers ms) ms :=
  readsAll_map ms fun m _ => reads_bare (by cases m <;> rfl)

theorem reads_binaryOp (op : BinaryOp) : Reads k Decode.binaryOp (.string op.name) op :=
  reads_bare (by
    cases op with
    | arith op => cases op <;> rfl
    | _ => rfl)

theorem reads_assignOp (op : AssignOp) : Reads k Decode.assignOp (.string op.name) op :=
  reads_bare (by
    cases op with
    | plain => rfl
    | compound op => cases op <;> rfl)

theorem reads_unaryOp (op : UnaryOp) : Reads k Decode.unaryOp (.string op.name) op :=
  reads_bare (by cases op <;> rfl)

theorem reads_constructorTarget (t : ConstructorTarget) :
    Reads k Decode.constructorTarget (.string t.name) t :=
  reads_bare (by cases t <;> rfl)

theorem reads_literal (l : Literal) : Reads k Decode.literal (Encode.literal l) l :=
  match l with
  | .null => reads_bare rfl
  | .bool b => (reads_variant rfl ((reads_bool b).map _)).mono (Nat.le_succ k)
  | .number s | .char s | .string s =>
    (reads_variant rfl ((reads_string s).map _)).mono (Nat.le_succ k)

theorem reads_label (l : Option String) : Reads k (option string) (Encode.label l) l :=
  reads_orNull (readsOption_map (fun s => reads_string s) (by simp) l)

theorem readsAll_params (hk : k ≤ deepest) (ps : List Param) :
    ReadsAll k Decode.param (ps.map Encode.param) ps :=
  readsAll_map ps fun p _ => reads_record
    (written_ifAny (readsAll_modifiers p.modifiers) (.present (reads_typeRef hk p.ty)
      (.present (reads_string p.name) (.present (reads_bool p.varargs) .nil)))) rfl rfl

end

/-! ## Nodes -/

theorem reads_block {k : Nat} {nodes : Decode.Nodes} {js : List Json} {ss : List Stmt}
    (h : ReadsAll k nodes.stmt js ss) : Reads k nodes.block (Encode.blockOf js) ss :=
  reads_record (.present h.list .nil) rfl rfl

theorem blockOf_ne_null (js : List Json) : Encode.blockOf js ≠ .null := by
  simp [Encode.blockOf, Encode.record]

mutual
theorem reads_expr : (e : Expr) → ∀ n ≤ deepest,
    Reads n (Decode.Nodes.upTo n).expr (Encode.expr e) e
  | .literal l => reads_of_step fun _ _ => reads_variant rfl ((reads_literal l).map _)
  | .name name => reads_of_step fun _ _ => reads_variant rfl ((reads_string name).map _)
  | .thisRef | .superRef => reads_of_step fun _ _ => reads_bare rfl
  | .paren inner => reads_of_step fun n hn => reads_variant rfl ((reads_expr inner n hn).map _)
  | .field target name => reads_of_step fun n hn => reads_variant rfl (reads_record
    (.present (reads_expr target n hn) (.present (reads_string name) .nil)) rfl rfl)
  | .call target typeArgs name args => reads_of_step fun n hn => reads_variant rfl (reads_record
    (written_ifSome (readsOption_expr target n hn) (written_ifAny (readsAll_typeRefs hn typeArgs)
      (.present (reads_string name) (.present (readsAll_exprs args n hn).list .nil)))) rfl rfl)
  | .create ty args none => reads_of_step fun n hn => reads_variant rfl (reads_record
    (.present (reads_classType hn ty) (.present (readsAll_exprs args n hn).list
      (.absent rfl .nil))) rfl rfl)
  | .create ty args (some body) => reads_of_step fun n hn => reads_variant rfl (reads_record
    (.present (reads_classType hn ty) (.present (readsAll_exprs args n hn).list
      (.present ((readsAll_members body n hn).list.some (by simp)) .nil))) rfl rfl)
  | .createArray element dims extraDims none => reads_of_step fun n hn =>
    reads_variant rfl (reads_record (.present (reads_typeRef hn element)
      (.present (readsAll_exprs dims n hn).list (.present (reads_count extraDims)
        (.absent rfl .nil)))) rfl rfl)
  | .createArray element dims extraDims (some elements) => reads_of_step fun n hn =>
    reads_variant rfl (reads_record (.present (reads_typeRef hn element)
      (.present (readsAll_exprs dims n hn).list (.present (reads_count extraDims)
        (.present ((readsAll_exprs elements n hn).list.some (by simp)) .nil)))) rfl rfl)
  | .arrayInit elements => reads_of_step fun n hn =>
    reads_variant rfl ((readsAll_exprs elements n hn).list.map _)
  | .index array index => reads_of_step fun n hn => reads_variant rfl (reads_record
    (.present (reads_expr array n hn) (.present (reads_expr index n hn) .nil)) rfl rfl)
  | .assign target op value => reads_of_step fun n hn => reads_variant rfl (reads_record
    (.present (reads_expr target n hn) (.present (reads_assignOp op)
      (.present (reads_expr value n hn) .nil))) rfl rfl)
  | .unary op operand => reads_of_step fun n hn => reads_variant rfl (reads_record
    (.present (reads_unaryOp op) (.present (reads_expr operand n hn) .nil)) rfl rfl)
  | .binary left op right => reads_of_step fun n hn => reads_variant rfl (reads_record
    (.present (reads_expr left n hn) (.present (reads_binaryOp op)
      (.present (reads_expr right n hn) .nil))) rfl rfl)
  | .instanceOf operand ty => reads_of_step fun n hn => reads_variant rfl (reads_record
    (.present (reads_expr operand n hn) (.present (reads_typeRef hn ty) .nil)) rfl rfl)
  | .conditional cond then' otherwise => reads_of_step fun n hn => reads_variant rfl (reads_record
    (.present (reads_expr cond n hn) (.present (reads_expr then' n hn)
      (.present (reads_expr otherwise n hn) .nil))) rfl rfl)
  | .cast ty operand => reads_of_step fun n hn => reads_variant rfl (reads_record
    (.present (reads_typeRef hn ty) (.present (reads_expr operand n hn) .nil)) rfl rfl)
termination_by structural e => e

theorem readsOption_expr : (e : Option Expr) → ∀ n ≤ deepest,
    ReadsOption n (Decode.Nodes.upTo n).expr (Encode.exprOption e) e
  | none, _, _ => .none
  | some e, n, hn => .some (reads_expr e n hn) (reads_expr e 1 (by decide)).ne_null_of_variant
termination_by structural e => e

theorem readsAll_exprs : (es : List Expr) → ∀ n ≤ deepest,
    ReadsAll n (Decode.Nodes.upTo n).expr (Encode.exprs es) es
  | [], _, _ => .nil
  | e :: es, n, hn => .cons (reads_expr e n hn) (readsAll_exprs es n hn)
termination_by structural es => es

theorem reads_declarator : (d : Declarator) → ∀ n ≤ deepest,
    Reads n (Decode.Nodes.upTo n).declarator (Encode.declarator d) d
  | ⟨name, init⟩, n, hn => reads_record (.present (reads_string name)
    (written_ifSome (readsOption_expr init n hn) .nil)) rfl rfl
termination_by structural d => d

theorem readsAll_declarators : (ds : List Declarator) → ∀ n ≤ deepest,
    ReadsAll n (Decode.Nodes.upTo n).declarator (Encode.declarators ds) ds
  | [], _, _ => .nil
  | d :: ds, n, hn => .cons (reads_declarator d n hn) (readsAll_declarators ds n hn)
termination_by structural ds => ds

theorem reads_localVar : (l : LocalVar) → ∀ n ≤ deepest,
    Reads n (Decode.Nodes.upTo n).localVar (Encode.localVar l) l
  | ⟨ms, ty, ds⟩, n, hn => reads_record (written_ifAny (readsAll_modifiers ms)
    (.present (reads_typeRef hn ty) (.present (readsAll_declarators ds n hn).list .nil))) rfl rfl
termination_by structural l => l

theorem reads_forInit : (i : ForInit) → ∀ n ≤ deepest,
    Reads (n + 1) (Decode.Nodes.upTo n).forInit (Encode.forInit i) i
  | .declare decl, n, hn => reads_variant rfl ((reads_localVar decl n hn).map _)
  | .exprs es, n, hn => reads_variant rfl ((readsAll_exprs es n hn).list.map _)
termination_by structural i => i

theorem readsAll_switchLabels : (ls : List SwitchLabel) → ∀ n ≤ deepest,
    ReadsAll n (Decode.Nodes.upTo n).switchLabel (Encode.switchLabels ls) ls
  | [], _, _ => .nil
  | .case value :: ls, n, hn =>
    .cons ((reads_variant rfl ((reads_expr value n hn).map _)).mono (Nat.le_succ n))
      (readsAll_switchLabels ls n hn)
  | .default :: ls, n, hn => .cons (reads_bare rfl) (readsAll_switchLabels ls n hn)
termination_by structural ls => ls

theorem reads_switchGroup : (g : SwitchGroup) → ∀ n ≤ deepest,
    Reads n (Decode.Nodes.upTo n).switchGroup (Encode.switchGroup g) g
  | ⟨labels, body⟩, n, hn => reads_record (.present (readsAll_switchLabels labels n hn).list
    (.present (readsAll_stmts body n hn).list .nil)) rfl rfl
termination_by structural g => g

theorem readsAll_switchGroups : (gs : List SwitchGroup) → ∀ n ≤ deepest,
    ReadsAll n (Decode.Nodes.upTo n).switchGroup (Encode.switchGroups gs) gs
  | [], _, _ => .nil
  | g :: gs, n, hn => .cons (reads_switchGroup g n hn) (readsAll_switchGroups gs n hn)
termination_by structural gs => gs

theorem readsAll_resources : (rs : List Resource) → ∀ n ≤ deepest,
    ReadsAll n (Decode.Nodes.upTo n).resource (Encode.resources rs) rs
  | [], _, _ => .nil
  | ⟨ty, name, init⟩ :: rs, n, hn =>
    .cons (reads_record (.present (reads_typeRef hn ty) (.present (reads_string name)
      (.present (reads_expr init n hn) .nil))) rfl rfl) (readsAll_resources rs n hn)
termination_by structural rs => rs

theorem readsAll_catchClauses : (cs : List CatchClause) → ∀ n ≤ deepest,
    ReadsAll n (Decode.Nodes.upTo n).catchClause (Encode.catchClauses cs) cs
  | [], _, _ => .nil
  | ⟨types, name, body⟩ :: cs, n, hn =>
    .cons (reads_record (.present (readsAll_typeRefs hn types).list (.present (reads_string name)
      (.present (reads_block (readsAll_stmts body n hn)) .nil))) rfl rfl)
      (readsAll_catchClauses cs n hn)
termination_by structural cs => cs

theorem reads_stmt : (s : Stmt) → ∀ n ≤ deepest,
    Reads n (Decode.Nodes.upTo n).stmt (Encode.stmt s) s
  | .block body => reads_of_step fun n hn =>
    reads_variant rfl ((reads_block (readsAll_stmts body n hn)).map _)
  | .localVar decl => reads_of_step fun n hn =>
    reads_variant rfl ((reads_localVar decl n hn).map _)
  | .expr e => reads_of_step fun n hn => reads_variant rfl ((reads_expr e n hn).map _)
  | .ifElse cond then' none => reads_of_step fun n hn => reads_variant rfl (reads_record
    (.present (reads_expr cond n hn) (.present (reads_stmt then' n hn) (.absent rfl .nil))) rfl rfl)
  | .ifElse cond then' (some s) => reads_of_step fun n hn => reads_variant rfl (reads_record
    (.present (reads_expr cond n hn) (.present (reads_stmt then' n hn)
      (.present ((reads_stmt s n hn).some (reads_stmt s 1 (by decide)).ne_null_of_variant) .nil)))
    rfl rfl)
  | .whileLoop cond body => reads_of_step fun n hn => reads_variant rfl (reads_record
    (.present (reads_expr cond n hn) (.present (reads_stmt body n hn) .nil)) rfl rfl)
  | .doWhile body cond => reads_of_step fun n hn => reads_variant rfl (reads_record
    (.present (reads_stmt body n hn) (.present (reads_expr cond n hn) .nil)) rfl rfl)
  | .forLoop none cond update body => reads_of_step fun n hn => reads_variant rfl (reads_record
    (.absent rfl (written_ifSome (readsOption_expr cond n hn)
      (.present (readsAll_exprs update n hn).list (.present (reads_stmt body n hn) .nil)))) rfl rfl)
  | .forLoop (some i) cond update body => reads_of_step fun n hn => reads_variant rfl (reads_record
    (.present (((reads_forInit i n hn).mono (Nat.le_succ n)).some
        (reads_forInit i n hn).ne_null_of_variant)
      (written_ifSome (readsOption_expr cond n hn) (.present (readsAll_exprs update n hn).list
        (.present (reads_stmt body n hn) .nil)))) rfl rfl)
  | .forEach ty name iterable body => reads_of_step fun n hn => reads_variant rfl (reads_record
    (.present (reads_typeRef hn ty) (.present (reads_string name)
      (.present (reads_expr iterable n hn) (.present (reads_stmt body n hn) .nil)))) rfl rfl)
  | .switch selector groups => reads_of_step fun n hn => reads_variant rfl (reads_record
    (.present (reads_expr selector n hn) (.present (readsAll_switchGroups groups n hn).list .nil))
    rfl rfl)
  | .breakTo l => reads_of_step fun _ _ => reads_variant rfl ((reads_label l).map _)
  | .continueTo l => reads_of_step fun _ _ => reads_variant rfl ((reads_label l).map _)
  | .labeled name body => reads_of_step fun n hn => reads_variant rfl (reads_record
    (.present (reads_string name) (.present (reads_stmt body n hn) .nil)) rfl rfl)
  | .synchronized lock body => reads_of_step fun n hn => reads_variant rfl (reads_record
    (.present (reads_expr lock n hn) (.present (reads_block (readsAll_stmts body n hn)) .nil))
    rfl rfl)
  | .constructorCall target args => reads_of_step fun n hn => reads_variant rfl (reads_record
    (.present (reads_constructorTarget target) (.present (readsAll_exprs args n hn).list .nil))
    rfl rfl)
  | .returnValue value => reads_of_step fun n hn =>
    reads_variant rfl ((reads_orNull (readsOption_expr value n hn)).map _)
  | .throwValue value => reads_of_step fun n hn =>
    reads_variant rfl ((reads_expr value n hn).map _)
  | .tryCatch rs body cs none => reads_of_step fun n hn => reads_variant rfl (reads_record
    (.present (readsAll_resources rs n hn).list (.present (reads_block (readsAll_stmts body n hn))
      (.present (readsAll_catchClauses cs n hn).list (.absent rfl .nil)))) rfl rfl)
  | .tryCatch rs body cs (some last) => reads_of_step fun n hn => reads_variant rfl (reads_record
    (.present (readsAll_resources rs n hn).list (.present (reads_block (readsAll_stmts body n hn))
      (.present (readsAll_catchClauses cs n hn).list
        (.present ((reads_block (readsAll_stmts last n hn)).some (blockOf_ne_null _)) .nil))))
    rfl rfl)
  | .empty => reads_of_step fun _ _ => reads_bare rfl
termination_by structural s => s

theorem readsAll_stmts : (ss : List Stmt) → ∀ n ≤ deepest,
    ReadsAll n (Decode.Nodes.upTo n).stmt (Encode.stmts ss) ss
  | [], _, _ => .nil
  | s :: ss, n, hn => .cons (reads_stmt s n hn) (readsAll_stmts ss n hn)
termination_by structural ss => ss

theorem reads_fieldDecl : (d : FieldDecl) → ∀ n ≤ deepest,
    Reads n (Decode.Nodes.upTo n).fieldDecl (Encode.fieldDecl d) d
  | ⟨ms, ty, ds⟩, n, hn => reads_record (.present (readsAll_modifiers ms).list
    (.present (reads_typeRef hn ty) (.present (readsAll_declarators ds n hn).list .nil))) rfl rfl
termination_by structural d => d

theorem reads_methodDecl : (d : MethodDecl) → ∀ n ≤ deepest,
    Reads n (Decode.Nodes.upTo n).methodDecl (Encode.methodDecl d) d
  | ⟨ms, typeParams, result, name, ps, none⟩, _, hn => reads_record
    (.present (readsAll_modifiers ms).list (written_ifAny (readsAll_typeParams hn typeParams)
      (.present (reads_orNull (readsOption_map (reads_typeRef hn) typeRef_ne_null result))
        (.present (reads_string name) (.present (readsAll_params hn ps).list
          (.present reads_none .nil)))))) rfl rfl
  | ⟨ms, typeParams, result, name, ps, some body⟩, n, hn => reads_record
    (.present (readsAll_modifiers ms).list (written_ifAny (readsAll_typeParams hn typeParams)
      (.present (reads_orNull (readsOption_map (reads_typeRef hn) typeRef_ne_null result))
        (.present (reads_string name) (.present (readsAll_params hn ps).list
          (.present ((reads_block (readsAll_stmts body n hn)).some (blockOf_ne_null _)) .nil))))))
    rfl rfl
termination_by structural d => d

theorem reads_constructorDecl : (d : ConstructorDecl) → ∀ n ≤ deepest,
    Reads n (Decode.Nodes.upTo n).constructorDecl (Encode.constructorDecl d) d
  | ⟨ms, name, ps, body⟩, n, hn => reads_record (.present (readsAll_modifiers ms).list
    (.present (reads_string name) (.present (readsAll_params hn ps).list
      (.present (reads_block (readsAll_stmts body n hn)) .nil)))) rfl rfl
termination_by structural d => d

theorem reads_member : (m : Member) → ∀ n ≤ deepest,
    Reads n (Decode.Nodes.upTo n).member (Encode.member m) m
  | .field decl => reads_of_step fun n hn => reads_variant rfl ((reads_fieldDecl decl n hn).map _)
  | .method decl => reads_of_step fun n hn => reads_variant rfl ((reads_methodDecl decl n hn).map _)
  | .constructor decl => reads_of_step fun n hn =>
    reads_variant rfl ((reads_constructorDecl decl n hn).map _)
  | .type decl => reads_of_step fun n hn => reads_variant rfl ((reads_typeDecl decl n hn).map _)
  | .initializer body => reads_of_step fun n hn =>
    reads_variant rfl ((reads_block (readsAll_stmts body n hn)).map _)
termination_by structural m => m

theorem readsAll_members : (ms : List Member) → ∀ n ≤ deepest,
    ReadsAll n (Decode.Nodes.upTo n).member (Encode.memberList ms) ms
  | [], _, _ => .nil
  | m :: ms, n, hn => .cons (reads_member m n hn) (readsAll_members ms n hn)
termination_by structural ms => ms

theorem reads_enumConstant : (c : EnumConstant) → ∀ n ≤ deepest,
    Reads n (Decode.Nodes.upTo n).enumConstant (Encode.enumConstant c) c
  | ⟨name, args⟩, n, hn => reads_record (.present (reads_string name)
    (.present (readsAll_exprs args n hn).list .nil)) rfl rfl
termination_by structural c => c

theorem readsAll_enumConstants : (cs : List EnumConstant) → ∀ n ≤ deepest,
    ReadsAll n (Decode.Nodes.upTo n).enumConstant (Encode.enumConstants cs) cs
  | [], _, _ => .nil
  | c :: cs, n, hn => .cons (reads_enumConstant c n hn) (readsAll_enumConstants cs n hn)
termination_by structural cs => cs

theorem reads_classDecl : (d : ClassDecl) → ∀ n ≤ deepest,
    Reads n (Decode.Nodes.upTo n).classDecl (Encode.classDecl d) d
  | ⟨ms, name, typeParams, superclass, interfaces, body⟩, n, hn => reads_record
    (.present (readsAll_modifiers ms).list (.present (reads_string name)
      (written_ifAny (readsAll_typeParams hn typeParams)
        (written_ifSome (readsOption_map (reads_classType hn) classType_ne_null superclass)
          (written_ifAny (readsAll_classTypes hn interfaces)
            (.present (readsAll_members body n hn).list .nil)))))) rfl rfl
termination_by structural d => d

theorem reads_interfaceDecl : (d : InterfaceDecl) → ∀ n ≤ deepest,
    Reads n (Decode.Nodes.upTo n).interfaceDecl (Encode.interfaceDecl d) d
  | ⟨ms, name, typeParams, extended, body⟩, n, hn => reads_record
    (.present (readsAll_modifiers ms).list (.present (reads_string name)
      (written_ifAny (readsAll_typeParams hn typeParams)
        (written_ifAny (readsAll_classTypes hn extended)
          (.present (readsAll_members body n hn).list .nil))))) rfl rfl
termination_by structural d => d

theorem reads_enumDecl : (d : EnumDecl) → ∀ n ≤ deepest,
    Reads n (Decode.Nodes.upTo n).enumDecl (Encode.enumDecl d) d
  | ⟨ms, name, interfaces, constants, body⟩, n, hn => reads_record
    (.present (readsAll_modifiers ms).list (.present (reads_string name)
      (written_ifAny (readsAll_classTypes hn interfaces)
        (.present (readsAll_enumConstants constants n hn).list
          (.present (readsAll_members body n hn).list .nil))))) rfl rfl
termination_by structural d => d

theorem reads_typeDecl : (t : TypeDecl) → ∀ n ≤ deepest,
    Reads n (Decode.Nodes.upTo n).typeDecl (Encode.typeDecl t) t
  | .ofClass decl => reads_of_step fun n hn =>
    reads_variant rfl ((reads_classDecl decl n hn).map _)
  | .ofInterface decl => reads_of_step fun n hn =>
    reads_variant rfl ((reads_interfaceDecl decl n hn).map _)
  | .ofEnum decl => reads_of_step fun n hn => reads_variant rfl ((reads_enumDecl decl n hn).map _)
termination_by structural t => t
end

/-! ## Units -/

theorem reads_import {k : Nat} (i : Import) : Reads k Decode.importDecl (Encode.importDecl i) i := by
  have hmember : Reads k Decode.importMember (Encode.importMember i.member) i.member :=
    match i.member with
    | .single name => (reads_variant rfl ((reads_string name).map _)).mono (Nat.le_succ k)
    | .wildcard => reads_bare rfl
  exact reads_record (.present (reads_string i.package) (.present hmember .nil)) rfl rfl

theorem reads_unit (u : CompilationUnit) : Reads deepest Decode.unit (Encode.unit u) u :=
  reads_record (written_ifSome (readsOption_map (fun s => reads_string s) (by simp) u.package)
    (.present (readsAll_map u.imports fun i _ => reads_import i).list
      (.present (readsAll_map u.types fun t _ => reads_typeDecl t deepest (Nat.le_refl _)).list
        .nil))) rfl rfl

/-- A unit is read back from its text, unless the text nests more lists and objects than may be
open at once. -/
theorem readUnit_text (u : CompilationUnit) :
    readUnit (Encode.unit u).text =
        (if (Encode.unit u).depth ≤ 127 then .ok u else .error (.malformed .recursionLimit)) ∧
      (ReadError.malformed .recursionLimit).message = "parse error: recursion limit exceeded" := by
  have hbrace : Text.isWhiteSpace '\x7b' = false := by decide
  have hblank : (Encode.unit u).text.toList.all Text.isWhiteSpace = false := by
    simp [Encode.unit, Encode.record, Json.text, Json.chars, hbrace]
  have hdecode := (reads_unit u).decodeText_eq (Nat.lt_succ_self _)
  refine ⟨?_, rfl⟩
  rw [readUnit, if_neg (by simp [hblank]), hdecode, answer, depthLimit]
  by_cases h : (Encode.unit u).depth ≤ 127
  · rw [if_pos h, if_pos h]
    rfl
  · rw [if_neg h, if_neg h]
    rfl

end CeylonFromJava.Java
