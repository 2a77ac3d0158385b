import CeylonFromJava.Java.Reader
import CeylonFromJava.Proofs.Json.Presentation
import Mathlib.Logic.ExistsUnique

/-! Units are read in every presentation of their nodes.

All decoders of nodes are built from those for which a change of presentation makes no difference,
so the whole tree may be changed, at as many nodes as one likes and as often. -/
namespace CeylonFromJava.Java
set_option autoImplicit false
set_option synthInstance.maxSize 400

open Json.Decoder
open Json (Decoder Spells)

/-! ## The decoders -/

namespace Decode

instance {α : Type} : Regular (refuse : Decoder α) where
  nests h := nomatch h
  skip_eq_ok h := nomatch h

/-! ### Types -/

section

variable {p : Decoder TypeRef} [Regular p]

instance : Regular primitive := by unfold primitive; infer_instance

instance : Regular boundKind := by unfold boundKind; infer_instance

instance : Regular (wildcardOf p) := by unfold wildcardOf; infer_instance

instance : Regular (typeArgOf p) := by unfold typeArgOf; infer_instance

instance : Regular (typeSegmentOf p) := by unfold typeSegmentOf; infer_instance

instance : Regular (classTypeOf p) := by unfold classTypeOf; infer_instance

instance : Regular (typeRefOf p) := by unfold typeRefOf; infer_instance

end

instance regular_typeRefUpTo : (n : Nat) → Regular (typeRefUpTo n)
  | 0 => inferInstanceAs (Regular refuse)
  | n + 1 =>
    have := regular_typeRefUpTo n
    inferInstanceAs (Regular (typeRefOf (typeRefUpTo n)))

instance : Regular typeRef := by unfold typeRef; infer_instance

instance : Regular classType := by unfold classType; infer_instance

instance : Regular typeParam := by unfold typeParam; infer_instance

/-! ### Leaves -/

instance : Regular modifiers := by unfold modifiers modifier; infer_instance

instance : Regular binaryOp := by unfold binaryOp; infer_instance

instance : Regular assignOp := by unfold assignOp; infer_instance

instance : Regular unaryOp := by unfold unaryOp; infer_instance

instance : Regular constructorTarget := by unfold constructorTarget; infer_instance

instance : Regular literal := by unfold literal; infer_instance

instance : Regular param := by unfold param; infer_instance

/-! ### Nodes -/

namespace Nodes

/-- The decoders of the nodes inside are regular. -/
class RegularNodes (n : Nodes) : Prop where
  expr : Regular n.expr
  stmt : Regular n.stmt
  member : Regular n.member
  typeDecl : Regular n.typeDecl

attribute [instance] RegularNodes.expr RegularNodes.stmt RegularNodes.member RegularNodes.typeDecl

section

variable {n : Nodes} [RegularNodes n]

instance : Regular n.exprs := by unfold exprs; infer_instance

instance : Regular n.members := by unfold members; infer_instance

instance : Regular n.block := by unfold block; infer_instance

instance : Regular n.declarator := by unfold declarator; infer_instance

instance : Regular n.localVar := by unfold localVar; infer_instance

instance : Regular n.forInit := by unfold forInit; infer_instance

instance : Regular n.switchLabel := by unfold switchLabel; infer_instance

instance : Regular n.switchGroup := by unfold switchGroup; infer_instance

instance : Regular n.resource := by unfold resource; infer_instance

instance : Regular n.catchClause := by unfold catchClause; infer_instance

instance : Regular n.fieldDecl := by unfold fieldDecl; infer_instance

instance : Regular n.methodDecl := by unfold methodDecl; infer_instance

instance : Regular n.constructorDecl := by unfold constructorDecl; infer_instance

instance : Regular n.classDecl := by unfold classDecl; infer_instance

instance : Regular n.interfaceDecl := by unfold interfaceDecl; infer_instance

instance : Regular n.enumConstant := by unfold enumConstant; infer_instance

instance : Regular n.enumDecl := by unfold enumDecl; infer_instance

instance : Regular n.exprStep := by unfold exprStep; infer_instance

instance : Regular n.stmtStep := by unfold stmtStep; infer_instance

instance : Regular n.memberStep := by unfold memberStep; infer_instance

instance : Regular n.typeDeclStep := by unfold typeDeclStep; infer_instance

theorem regular_step : RegularNodes n.step where
  expr := inferInstanceAs (Regular n.exprStep)
  stmt := inferInstanceAs (Regular n.stmtStep)
  member := inferInstanceAs (Regular n.memberStep)
  typeDecl := inferInstanceAs (Regular n.typeDeclStep)

end

theorem regular_upTo : (k : Nat) → RegularNodes (upTo k)
  | 0 => ⟨inferInstanceAs (Regular refuse), inferInstanceAs (Regular refuse),
    inferInstanceAs (Regular refuse), inferInstanceAs (Regular refuse)⟩
  | k + 1 =>
    have := regular_upTo k
    regular_step

end Nodes

instance : Nodes.RegularNodes nodes := Nodes.regular_upTo _

instance : Regular importMember := by unfold importMember; infer_instance

instance : Regular importDecl := by unfold importDecl; infer_instance

instance regular_unit : Regular unit := by unfold unit; infer_instance

end Decode

/-! ## Whole texts -/

section

variable {text : String} {s : Json.Scan} {u : CompilationUnit}

theorem mapError_eq_ok {ε ε' α : Type} {result : Except ε α} {f : ε → ε'} {a : α} :
    result.mapError f = .ok a ↔ result = .ok a := by
  cases result with
  | error e => exact ⟨fun h => (nomatch h), fun h => (nomatch h)⟩
  | ok b =>
    constructor
    · rintro ⟨⟩
      rfl
    · rintro ⟨⟩
      rfl

/-- A text of a tree is read as the tree is. -/
theorem readUnit_eq_ok_iff (h : Spells text s) :
    readUnit text = .ok u ↔ Decode.unit depthLimit s = .ok u := by
  rw [readUnit, decodeText_of_spells h]
  split
  · rename_i hblank
    refine ⟨fun hok => (nomatch hok), fun hok => ?_⟩
    have hbracket : Text.isWhiteSpace '[' = false := by decide
    have hbrace : Text.isWhiteSpace '\x7b' = false := by decide
    rw [List.all_eq_true] at hblank
    rcases exists_bracket_of_spells h (opens_of_record hok) with hmem | hmem
    · exact absurd (hblank _ hmem) (by simp [hbracket])
    · exact absurd (hblank _ hmem) (by simp [hbrace])
  · exact mapError_eq_ok

theorem exists_spells_of_readUnit (h : readUnit text = .ok u) :
    ∃ s, Spells text s ∧ Decode.unit depthLimit s = .ok u := by
  unfold readUnit at h
  split at h
  · cases h
  · exact exists_spells_of_decodeText (mapError_eq_ok.mp h)

end

/-! ## A constant in two presentations -/

/-- A constant of which only the name is given, as the list of its fields. -/
theorem changes_enumConstant (n : Decode.Nodes) (x : Json.Scan) :
    Relation.ReflTransGen (Change n.enumConstant) (.object [(.ok "name", x)] .closed)
      (.array [x, .array [] .closed] .closed) := by
  have hadd : Change n.enumConstant (.object [(.ok "name", x)] .closed)
      (.object [(.ok "args", .array [] .closed), (.ok "name", x)] .closed) :=
    .record (.addDefault (Fields.default_of_empty.2.1 (.tail (by decide) (.head rfl)))
      (List.forall_mem_singleton.mpr rfl))
  have hswap : Change n.enumConstant
      (.object [(.ok "args", .array [] .closed), (.ok "name", x)] .closed)
      (.object [(.ok "name", x), (.ok "args", .array [] .closed)] .closed) :=
    .record (.permute (.swap ..))
  have hlist : Change n.enumConstant
      (.object [(.ok "name", x), (.ok "args", .array [] .closed)] .closed)
      (.array [x, .array [] .closed] .closed) :=
    .record (@Fields.Change.toArray _ _ [x, .array [] .closed]
      (show ["name", "args"].Nodup by decide) rfl)
  exact .tail (.tail (.single hadd) hswap) hlist

/-- The members of a unit with one enumeration of one constant. -/
def oneConstant (x : Json.Scan) : List (Except Json.Fault String × Json.Scan) :=
  [(.ok "types", .array [.object [(.ok "enum", .object [(.ok "name", .string (.ok "E")),
    (.ok "constants", .array [x] .closed)] .closed)] .closed] .closed)]

theorem change_oneConstant {x x' : Json.Scan}
    (h : Change (Decode.Nodes.upTo depthLimit).enumConstant x x') :
    Change Decode.unit (.object (oneConstant x) .closed) (.object (oneConstant x') .closed) := by
  have henum : Change (Decode.Nodes.upTo depthLimit).enumDecl
      (.object [(.ok "name", .string (.ok "E")), (.ok "constants", .array [x] .closed)] .closed)
      (.object [(.ok "name", .string (.ok "E")), (.ok "constants", .array [x'] .closed)] .closed) :=
    @Change.member _ _ _ _ _ _ _ [_] [] _ _ _
      (.tail (by decide) (.tail (by decide) (.tail (by decide) (.head rfl))))
      (@Change.listItem _ _ [] [] _ _ h)
  have htype : Change Decode.nodes.typeDecl _ _ :=
    @Change.content _ _ "enum" (.value ((Decode.Nodes.upTo depthLimit).enumDecl.map .ofEnum)) _ _
      rfl (.map henum)
  exact @Change.member _ _ _ _ _ _ _ [] [] _ _ _
    (.tail (by decide) (.tail (by decide) (.head rfl))) (@Change.listItem _ _ [] [] _ _ htype)

theorem nests_enumConstant (n : Decode.Nodes) (name : String) (k : Nat) :
    Nests n.enumConstant (k + 2)
      (.array [.string (.ok name), .array [] .closed] .closed) := by
  refine .array fun found hx => ?_
  cases found with
  | head =>
    cases hx
    exact .leaf rfl fun _ => rfl
  | tail found =>
    cases found with
    | head =>
      cases hx
      exact .list fun _ hx => absurd hx List.not_mem_nil
    | tail found => cases found

theorem nests_oneConstant {x : Json.Scan} {k : Nat}
    (h : Nests (Decode.Nodes.upTo depthLimit).enumConstant k x) (y : Json.Scan) :
    Nests Decode.unit (k + 5) (.object ((.ok "extra", y) :: oneConstant x) .closed) := by
  have henum : Nests (Decode.Nodes.upTo depthLimit).enumDecl (k + 2)
      (.object [(.ok "name", .string (.ok "E")), (.ok "constants", .array [x] .closed)]
        .closed) := by
    refine .object fun found hz => ?_
    rcases List.mem_cons.mp hz with heq | hz
    · cases heq
      exact found.nests (.tail (by decide) (.head rfl)) (.leaf rfl fun _ => rfl)
    · cases List.mem_singleton.mp hz
      exact found.nests (.tail (by decide) (.tail (by decide) (.tail (by decide) (.head rfl))))
        (.list (List.forall_mem_singleton.mpr h))
  have htype : Nests Decode.nodes.typeDecl (k + 3) _ :=
    @Nests.variant _ _ "enum" (.value ((Decode.Nodes.upTo depthLimit).enumDecl.map .ofEnum)) _ _ []
      .closed rfl (.map henum)
  refine .object fun found hz => ?_
  rcases List.mem_cons.mp hz with heq | hz
  · cases heq
    exact absurd found.mem_names (by decide)
  · cases List.mem_singleton.mp hz
    exact found.nests (.tail (by decide) (.tail (by decide) (.head rfl)))
      (.list (List.forall_mem_singleton.mpr htype))

theorem element_of_text {s : Json.Scan} {w : List Char} (h : Json.Text s w) :
    Json.Element s w := by
  have hmk := Json.Element.mk Json.blanks_nil h Json.blanks_nil
  rwa [List.nil_append, List.append_nil] at hmk

theorem member_of_text {key : String} {b k w : List Char} {s : Json.Scan} (before : Json.Blanks b)
    (name : Json.scanString k = (.string (.ok key), some [])) (h : Json.Text s w) :
    Json.Member (.ok key, s) (b ++ '"' :: k ++ ':' :: w) := by
  have hmk := Json.Member.mk before name Json.blanks_nil (element_of_text h)
  rwa [List.append_nil] at hmk

theorem members_oneConstant {x : Json.Scan} {b w : List Char} (hb : Json.Blanks b)
    (h : Json.Text x w) :
    Json.Members (oneConstant x) (b ++ ("\"types\":[\x7b\"enum\":\x7b\"name\":\"E\"," ++
      "\"constants\":[").toList ++ w ++ "]\x7d\x7d]".toList) := by
  have hname : Json.Member (.ok "name", .string (.ok "E")) _ :=
    @member_of_text _ [] "name\"".toList "\"E\"".toList _ Json.blanks_nil rfl (.literal rfl)
  have hconstants : Json.Member (.ok "constants", .array [x] .closed) _ :=
    @member_of_text _ [] "constants\"".toList _ _ Json.blanks_nil rfl
      (.array (.one (element_of_text h)))
  have henum : Json.Member (.ok "enum", .object [(.ok "name", .string (.ok "E")),
      (.ok "constants", .array [x] .closed)] .closed) _ :=
    @member_of_text _ [] "enum\"".toList _ _ Json.blanks_nil rfl
      (.object (.cons hname (.one hconstants)))
  have htypes : Json.Member (.ok "types", .array [.object [(.ok "enum",
      .object [(.ok "name", .string (.ok "E")), (.ok "constants", .array [x] .closed)]
        .closed)] .closed] .closed) _ :=
    @member_of_text _ b "types\"".toList _ _ hb rfl
      (.array (.one (element_of_text (.object (.one henum)))))
  simpa [oneConstant] using Json.Members.one htypes

/-- A constant by its key, and as a list beside a key that says nothing. -/
def keyedText : String :=
  "\x7b\"types\":[\x7b\"enum\":\x7b\"name\":\"E\"," ++
    "\"constants\":[\x7b\"name\":\"X\"\x7d]\x7d\x7d]\x7d"

def listedText : String :=
  "\x7b\"extra\":[[0]], \"types\":[\x7b\"enum\":\x7b\"name\":\"E\"," ++
    "\"constants\":[[\"X\",[]]]\x7d\x7d]\x7d"

/-! ## Presentations of a unit -/

/-- Reading does not depend on the presentation of the nodes: a text that is read is the text of one
tree, and the texts of all trees that come from it by changes are read as the same unit, exactly if
what is read in them opens no more lists and objects than it may. -/
theorem readUnit_presentation {text : String} {u : CompilationUnit} (h : readUnit text = .ok u) :
    (∃! s, Spells text s) ∧ ∀ s s' text', Spells text s →
      Relation.ReflTransGen (Change Decode.unit) s s' → Spells text' s' →
      (readUnit text' = .ok u ↔ Nests Decode.unit 127 s') := by
  obtain ⟨s, hs, hok⟩ := exists_spells_of_readUnit h
  refine ⟨⟨s, hs, fun s' hs' => hs'.unique hs⟩, fun s₁ s' text' hs₁ hchanges hs' => ?_⟩
  obtain rfl := hs.unique hs₁
  exact (readUnit_eq_ok_iff hs').trans (eq_ok_iff_nests hok hchanges)

theorem readUnit_presentation_constant :
    readUnit keyedText = .ok ⟨none, [], [.ofEnum ⟨[], "E", [], [⟨"X", []⟩], []⟩]⟩ ∧
      readUnit listedText = .ok ⟨none, [], [.ofEnum ⟨[], "E", [], [⟨"X", []⟩], []⟩]⟩ := by
  have hname : Json.Text (.string (.ok "X")) "\"X\"".toList := .literal rfl
  have hzero : Json.Text (.number (.ok (.natural 0))) ['0'] := .literal rfl
  have hextra : Json.Text (.array [.array [.number (.ok (.natural 0))] .closed] .closed)
      "[[0]]".toList :=
    .array (.one (element_of_text (.array (.one (element_of_text hzero)))))
  have hkeyed : Spells keyedText
      (.object (oneConstant (.object [(.ok "name", .string (.ok "X"))] .closed)) .closed) :=
    element_of_text (.object (members_oneConstant Json.blanks_nil (.object
      (.one (@member_of_text _ [] "name\"".toList _ _ Json.blanks_nil rfl hname)))))
  have hlisted : Spells listedText
      (.object ((.ok "extra", .array [.array [.number (.ok (.natural 0))] .closed] .closed) ::
        oneConstant (.array [.string (.ok "X"), .array [] .closed] .closed)) .closed) :=
    element_of_text (.object (.cons
      (@member_of_text _ [] "extra\"".toList _ _ Json.blanks_nil rfl hextra)
      (@members_oneConstant _ [' '] _ (List.forall_mem_singleton.mpr rfl)
        (.array (.cons (element_of_text hname)
          (.one (element_of_text (.noItems Json.blanks_nil))))))))
  have hlist : Relation.ReflTransGen (Change Decode.unit) _ _ :=
    (changes_enumConstant (Decode.Nodes.upTo depthLimit) (.string (.ok "X"))).lift
      (fun x => Json.Scan.object (oneConstant x) .closed) fun _ _ h => change_oneConstant h
  have hadd : Change Decode.unit
      (.object (oneConstant (.array [.string (.ok "X"), .array [] .closed] .closed)) .closed) _ :=
    .record (.addUnknown (show "extra" ∉ ["package", "imports", "types"] by decide) hextra)
  have hread : readUnit keyedText =
      .ok ⟨none, [], [.ofEnum ⟨[], "E", [], [⟨"X", []⟩], []⟩]⟩ :=
    (readUnit_eq_ok_iff hkeyed).mpr rfl
  exact ⟨hread, ((readUnit_presentation hread).2 _ _ _ hkeyed (hlist.tail hadd) hlisted).mpr
    (nests_oneConstant (nests_enumConstant _ "X" 120) _)⟩

end CeylonFromJava.Java
