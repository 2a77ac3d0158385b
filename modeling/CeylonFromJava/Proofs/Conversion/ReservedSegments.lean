import CeylonFromJava.Proofs.Conversion.ProperTrees

/-! Reserved words in expressions.

A reserved word that stands alone is marked, whether it is a name, a field, a method or a property. A
dotted name is held against the reserved words as a whole, so none of its segments is marked. The same
path as a chain of fields has all of them marked. -/
namespace CeylonFromJava.Conversion
set_option autoImplicit false

open Ceylon (Token)
open Ceylon.Token (names)
open Ceylon.Name (isReserved marker reservedWords)
open Java (Word segments segments_of_not_mem segments_intercalate)

/-! ## Plain words -/

/-- One segment, and no reserved word. -/
def IsPlain (x : String) : Prop := '.' ∉ x.toList ∧ isReserved x = false

theorem mem_reservedWords {x : String} : isReserved x = true ↔ x ∈ reservedWords :=
  List.contains_iff_mem

theorem undotted_of_isReserved {x : String} (h : isReserved x = true) : '.' ∉ x.toList := by
  have hall : (reservedWords.all fun w => !w.toList.contains '.') = true := by decide
  simpa using List.all_eq_true.mp hall _ (mem_reservedWords.mp h)

theorem isPlain_marker {x : String} (h : '.' ∉ x.toList) : IsPlain (marker ++ x) := by
  refine ⟨by simpa [marker] using h, ?_⟩
  have hheads : (reservedWords.all fun w => w.toList.head? != some '\\') = true := by decide
  cases hreserved : isReserved (marker ++ x) with
  | false => rfl
  | true =>
    have hhead := List.all_eq_true.mp hheads _ (mem_reservedWords.mp hreserved)
    simp [marker] at hhead

theorem isPlain_word {x : String} (h : '.' ∉ x.toList) : IsPlain (Ceylon.Name.word x) := by
  unfold Ceylon.Name.word
  split
  · exact isPlain_marker h
  · next hplain => exact ⟨h, Bool.eq_false_iff.mpr hplain⟩

theorem isPlain_small {x : String} (h : '.' ∉ x.toList) : IsPlain (Ceylon.Name.small x) := by
  unfold Ceylon.Name.small
  split
  · exact isPlain_marker h
  · next hplain =>
    rw [Bool.or_eq_true, not_or] at hplain
    exact ⟨h, Bool.eq_false_iff.mpr hplain.1⟩

/-- A dotted name is no reserved word, so it is written as it is. -/
theorem word_of_dotted {x : String} (h : '.' ∈ x.toList) : Ceylon.Name.word x = x :=
  if_neg fun hreserved => undotted_of_isReserved hreserved h

theorem undotted_property {method property : String}
    (h : Ceylon.Name.property method = some property) : '.' ∉ property.toList := by
  have hsmall : ∀ n < 0x80, (Char.ofNat n).isUpper = true → (Char.ofNat n).toLower ≠ '.' := by decide
  unfold Ceylon.Name.property at h
  split at h
  · next c rest _ =>
    split at h
    · next hletters =>
      cases h
      rw [Bool.and_eq_true, List.all_eq_true] at hletters
      have hascii : c.toNat < 0x80 := by
        have hle : c.val ≤ 90 := (of_decide_eq_true hletters.1).2
        exact Nat.lt_of_le_of_lt hle (by decide)
      have hfirst : c.toLower ≠ '.' := by
        have hc := hsmall c.toNat hascii
        rw [Char.ofNat_toNat] at hc
        exact hc hletters.1
      rw [String.toList_ofList, List.mem_cons]
      rintro (hpoint | hpoint)
      · exact hfirst hpoint.symm
      · exact absurd (hletters.2 '.' hpoint) (by decide)
    · cases h
  · cases h

/-! ## Names in expressions -/

/-- Fields and methods have no points in their names. -/
def Undivided : Word → Prop
  | .field x | .method x => '.' ∉ x.toList
  | .name _ | .other _ => True

/-- The name is plain, or it is a dotted name among the words as it is. -/
def PlainOrDotted (ws : List Word) (x : String) : Prop :=
  IsPlain x ∨ '.' ∈ x.toList ∧ Word.name x ∈ ws

theorem admits_plainOrDotted (config : Config) (ws : List Word) :
    Admits config (fun w => w ∈ ws ∧ Undivided w) (PlainOrDotted ws) where
  name x h := by
    by_cases hpoint : '.' ∈ x.toList
    · right
      rw [word_of_dotted hpoint]
      exact ⟨hpoint, h.1⟩
    · exact .inl (isPlain_word hpoint)
  field x h := .inl (isPlain_small h.2)
  method x h := .inl (isPlain_small h.2)
  property x property _ _ h := .inl (isPlain_small (undotted_property h))
  print := .inl ⟨by decide, by decide⟩
  not := .inl ⟨by decide, by decide⟩

theorem plainOrDotted_expr (config : Config) (n : Nat) {e : Java.Expr} {scope : Scope}
    (h : ∀ w ∈ e.words ++ scope.words, Undivided w) (k : Nat) :
    ∀ x ∈ names ((expr (Env.upTo config (fun _ _ => []) n) e scope).tokens k),
      PlainOrDotted (e.words ++ scope.words) x := by
  have henv := Env.proper_upTo (admits_plainOrDotted config (e.words ++ scope.words)) n
  have hproper := proper_expr henv e scope
    ⟨fun w hw => ⟨List.mem_append_left _ hw, h w (List.mem_append_left _ hw)⟩,
      fun w hw => ⟨List.mem_append_right _ hw, h w (List.mem_append_right _ hw)⟩⟩
  exact (Ceylon.Expr.orderly _ hproper k).2

/-! ## Reserved words without a marker -/

/-- The reserved words that stand in a text as names or segments of names, without a marker. -/
def bareReserved (ts : List Token) : List String := ((names ts).flatMap segments).filter isReserved

theorem bareReserved_eq_nil {ts : List Token} :
    bareReserved ts = [] ↔ ∀ x ∈ names ts, ∀ s ∈ segments x, isReserved s = false := by
  rw [bareReserved, List.filter_eq_nil_iff]
  refine ⟨fun h x hx s hs => ?_, fun h s hs => ?_⟩
  · exact Bool.eq_false_iff.mpr (h s (List.mem_flatMap.mpr ⟨x, hx, hs⟩))
  · obtain ⟨x, hx, hs⟩ := List.mem_flatMap.mp hs
    exact Bool.eq_false_iff.mp (h x hx s hs)

theorem IsPlain.segments {x : String} (h : IsPlain x) : ∀ s ∈ segments x, isReserved s = false := by
  rw [segments_of_not_mem h.1, List.forall_mem_singleton]
  exact h.2

theorem bareReserved_of_plain {ts : List Token} (h : ∀ x ∈ names ts, IsPlain x) :
    bareReserved ts = [] :=
  bareReserved_eq_nil.mpr fun x hx => (h x hx).segments

/-- Only dotted names can have them. -/
theorem bareReserved_eq_nil_iff_dotted {ws : List Word} {ts : List Token}
    (h : ∀ x ∈ names ts, PlainOrDotted ws x) :
    bareReserved ts = [] ↔
      ∀ x ∈ names ts, '.' ∈ x.toList → ∀ s ∈ segments x, isReserved s = false := by
  rw [bareReserved_eq_nil]
  refine ⟨fun hall x hx _ => hall x hx, fun hdotted x hx => ?_⟩
  rcases h x hx with hplain | ⟨hpoint, -⟩
  · exact hplain.segments
  · exact hdotted x hx hpoint

/-! ## Paths -/

section

variable {env : Env} {scope : Scope}

theorem names_grouped (needed : Bool) (e : Ceylon.Expr) (k : Nat) :
    names ((grouped needed e).tokens k) = names (e.tokens k) := by
  cases needed <;> simp [grouped, Ceylon.Expr.pieces]

theorem names_name (x : String) (k : Nat) :
    names ((expr env (.name x) scope).tokens k) = [Ceylon.Name.word x] := by
  simp [expr, Ceylon.Expr.pieces]

/-- A chain of fields behind an expression. -/
theorem names_fields (e : Java.Expr) (xs : List String) (k : Nat) :
    names ((expr env (xs.foldl .field e) scope).tokens k) =
      names ((expr env e scope).tokens k) ++ xs.map Ceylon.Name.small := by
  induction xs generalizing e with
  | nil => simp
  | cons x xs ih =>
    rw [List.foldl_cons, ih (.field e x)]
    simp [expr, Ceylon.Expr.pieces, names_grouped]

section

variable {x : String} {xs : List String} (h : ∀ s ∈ x :: xs, '.' ∉ s.toList)

include h

theorem bareReserved_fields (k : Nat) :
    bareReserved ((expr env (xs.foldl .field (.name x)) scope).tokens k) = [] := by
  obtain ⟨hx, hxs⟩ := List.forall_mem_cons.mp h
  refine bareReserved_of_plain ?_
  rw [names_fields, names_name, List.singleton_append, List.forall_mem_cons]
  refine ⟨isPlain_word hx, fun y hy => ?_⟩
  obtain ⟨z, hz, rfl⟩ := List.mem_map.mp hy
  exact isPlain_small (hxs z hz)

theorem bareReserved_dotted (k : Nat) :
    bareReserved ((expr env (.name (String.intercalate "." (x :: xs))) scope).tokens k) =
      if xs = [] then [] else (x :: xs).filter isReserved := by
  have hsegments := segments_intercalate (List.cons_ne_nil x xs) h
  cases xs with
  | nil =>
    refine bareReserved_of_plain ?_
    rw [names_name, String.intercalate_singleton, List.forall_mem_singleton]
    exact isPlain_word (h x (List.mem_singleton_self x))
  | cons y ys =>
    have hpoint : '.' ∈ (String.intercalate "." (x :: y :: ys)).toList := by
      rw [String.intercalate_cons_cons]
      simp
    rw [bareReserved, names_name, word_of_dotted hpoint, List.flatMap_singleton, hsegments]
    rfl

end

end

/-! ## Which reserved words are not marked -/

/-- In an expression whose fields and methods have no points in their names, a reserved word is marked
unless it is a segment of a dotted name, which is written as it stands in the source. So a path is
written with the same marks as a dotted name and as a chain of fields exactly if it has one segment or no
reserved one. -/
theorem reserved_segments (config : Config) (n : Nat) (scope : Scope) (k : Nat) :
    let written := fun e => (expr (Env.upTo config (fun _ _ => []) n) e scope).tokens k
    (∀ e : Java.Expr, (∀ w ∈ e.words ++ scope.words, Undivided w) →
      (∀ x ∈ names (written e), '.' ∉ x.toList ∧ isReserved x = false ∨
        '.' ∈ x.toList ∧ Word.name x ∈ e.words ++ scope.words) ∧
      (bareReserved (written e) = [] ↔
        ∀ x ∈ names (written e), '.' ∈ x.toList → ∀ s ∈ segments x, isReserved s = false)) ∧
    (∀ (x : String) (xs : List String), (∀ s ∈ x :: xs, '.' ∉ s.toList) →
      let chain := written (xs.foldl .field (.name x))
      let dotted := bareReserved (written (.name (String.intercalate "." (x :: xs))))
      names chain = Ceylon.Name.word x :: xs.map Ceylon.Name.small ∧ bareReserved chain = [] ∧
        dotted = (if xs = [] then [] else (x :: xs).filter isReserved) ∧
        (dotted = bareReserved chain ↔ xs = [] ∨ ∀ s ∈ x :: xs, isReserved s = false)) := by
  intro written
  refine ⟨fun e h => ?_, fun x xs h => ?_⟩
  · have hnames := plainOrDotted_expr config n h k
    exact ⟨hnames, bareReserved_eq_nil_iff_dotted hnames⟩
  · intro chain dotted
    have hnames : names chain = Ceylon.Name.word x :: xs.map Ceylon.Name.small := by
      rw [names_fields, names_name]
      rfl
    have hchain : bareReserved chain = [] := bareReserved_fields h k
    have hdotted : dotted = if xs = [] then [] else (x :: xs).filter isReserved :=
      bareReserved_dotted h k
    refine ⟨hnames, hchain, hdotted, ?_⟩
    rw [hchain, hdotted]
    split
    · next hnil => simp [hnil]
    · next hsome =>
      rw [List.filter_eq_nil_iff]
      simp [hsome]

/-- `is.value(getObject()).in` with its accessor converted: a name, a method, a property and a field, all
reserved and all marked. And the path `a.value.of` in its two forms. -/
theorem reserved_segments_call :
    let config : Config := ⟨true, false⟩
    let e : Java.Expr := .field
      (.call (some (.name "is")) [] "value" [.call none [] "getObject" []]) "in"
    let written := fun e => (expr (Env.upTo config (fun _ _ => []) 0) e []).tokens 0
    (∀ w ∈ e.words ++ Scope.words [], Undivided w) ∧
      names (written e) = ["\\iis", "\\ivalue", "\\iobject", "\\iin"] ∧
      bareReserved (written e) = [] ∧
      bareReserved (written (.name "a.value.of")) = ["value", "of"] ∧
      bareReserved (written (.field (.field (.name "a") "value") "of")) = [] := by
  intro config e written
  obtain ⟨hall, hpaths⟩ := reserved_segments config 0 [] 0
  have hwords : ∀ w ∈ e.words ++ Scope.words [], Undivided w := by
    have hlist : e.words ++ Scope.words [] =
        [.name "is", .method "value", .method "getObject", .field "in"] := by decide
    rw [hlist]
    simp [Undivided]
  have hnames : names (written e) = ["\\iis", "\\ivalue", "\\iobject", "\\iin"] := by decide
  obtain ⟨-, hchain, hdotted, -⟩ := hpaths "a" ["value", "of"] (by decide)
  refine ⟨hwords, hnames, (hall e hwords).2.mpr ?_, hdotted, hchain⟩
  rw [show names (written e) = _ from hnames]
  decide

/-- `a.value` as a dotted name and as a field of `a`. -/
theorem dotted_name_unmarked :
    let returning := fun e => (⟨none, [], [.ofClass ⟨[], "C", [], none, [],
      [.method ⟨[], [], none, "m", [], some [.returnValue (some e)]⟩]⟩]⟩ : Java.CompilationUnit)
    isReserved "value" = true ∧
      text .default (returning (.name "a.value")) =
        "class C() \x7b\n    void m() \x7b\n        return a.value;\n    \x7d\n\x7d\n" ∧
      text .default (returning (.field (.name "a") "value")) =
        "class C() \x7b\n    void m() \x7b\n        return a.\\ivalue;\n    \x7d\n\x7d\n" := by
  decide

end CeylonFromJava.Conversion
