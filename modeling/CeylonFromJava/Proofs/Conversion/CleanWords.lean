import CeylonFromJava.Conversion.Tree
import CeylonFromJava.Proofs.Ceylon.LayoutBrackets
import CeylonFromJava.Proofs.Java.CleanWords

/-! Clean words stay clean: marked names, types, and the names that the conversion makes up. -/
namespace CeylonFromJava.Conversion
set_option autoImplicit false

open Output (isClean isBare loose_of_isClean isClean_append isClean_join isClean_intercalate)
open Ceylon (segmentsText bracketedText furtherText)
open Java (TypeRef TypeSegment TypeArg ClassType)

variable {strict : Bool}

/-! ## Words -/

theorem isClean_marker : isClean strict Ceylon.Name.marker = true := by
  cases strict <;> decide

theorem isClean_word {name : String} (h : isClean strict name = true) :
    isClean strict (Ceylon.Name.word name) = true := by
  rw [Ceylon.Name.word]
  split
  · exact isClean_append isClean_marker (loose_of_isClean h)
  · exact h

theorem isClean_small {name : String} (h : isClean strict name = true) :
    isClean strict (Ceylon.Name.small name) = true := by
  rw [Ceylon.Name.small]
  split
  · exact isClean_append isClean_marker (loose_of_isClean h)
  · exact h

theorem isClean_literalText {value : Java.Literal} (h : value.clean strict = true) :
    isClean strict (Ceylon.literalText value) = true := by
  cases value with
  | null => cases strict <;> decide
  | bool b => cases b <;> cases strict <;> decide
  | number text => exact h
  | char text =>
    have hquote : isClean strict "'" = true := by cases strict <;> decide
    exact isClean_append (isClean_append hquote h) (by decide)
  | string text =>
    have hquote : isClean strict "\"" = true := by cases strict <;> decide
    exact isClean_append (isClean_append hquote h) (by decide)

/-! ## Types -/

theorem segmentsText_named (name : String) : segmentsText (Ceylon.Ty.named name) = name := by
  simp [Ceylon.Ty.named, segmentsText, bracketedText]

theorem isClean_variance (v : Ceylon.Variance) : isClean false v.text = true := by
  cases v <;> decide

mutual
theorem isClean_typeRef : (t : TypeRef) → t.clean strict = true →
    isClean strict (segmentsText (typeRef t)) = true
  | .primitive p, _ => by
    rw [typeRef, segmentsText_named]
    cases p <;> cases strict <;> decide
  | .classType segments, h => by
    rw [TypeRef.clean, Bool.and_eq_true] at h
    have hsegments := isClean_segmentList segments h.2
    cases strict with
    | false => exact hsegments
    | true =>
      have hsome : (!segments.isEmpty) = true := h.1
      rw [hsome] at hsegments
      exact hsegments
  | .array element _, h => isClean_arrayType element h
termination_by structural t => t

theorem isClean_arrayType : (t : TypeRef) → t.clean strict = true →
    isClean strict (segmentsText (arrayType t)) = true
  | .primitive p, _ => by
    rw [arrayType, segmentsText_named]
    cases p <;> cases strict <;> decide
  | .classType segments, h => by
    rw [TypeRef.clean, Bool.and_eq_true] at h
    have helement := loose_of_isClean (isClean_segmentList segments h.2)
    have hclass : isClean strict "ObjectArray" = true := by cases strict <;> decide
    simp only [arrayType, objectArray, segmentsText, bracketedText, furtherText]
    refine isClean_append hclass (isClean_append (isClean_append (by decide) ?_) (by decide))
    exact isClean_append (by decide) helement
  | .array element _, h => isClean_arrayType element h
termination_by structural t => t

/-- Without a segment the text is empty. -/
theorem isClean_segmentList : (segments : List TypeSegment) →
    TypeSegment.cleanList strict segments = true →
      isClean (strict && !segments.isEmpty) (segmentsText (segmentList segments)) = true
  | [], _ => by
    rw [segmentList, segmentsText]
    cases strict <;> rfl
  | ⟨name, args⟩ :: segments, h => by
    simp only [TypeSegment.cleanList, Bool.and_eq_true] at h
    have hfirst := isClean_append h.1.1 (isClean_bracketed args h.1.2)
    have hrest := loose_of_isClean (isClean_segmentList segments h.2)
    rw [List.isEmpty_cons, Bool.not_false, Bool.and_true]
    cases segments with
    | nil => simpa [segmentList, segmentsText] using hfirst
    | cons segment segments =>
      obtain ⟨name', args'⟩ := segment
      simp only [segmentList] at hrest ⊢
      rw [segmentsText]
      · exact isClean_append (isClean_append hfirst (by decide)) hrest
      · nofun
termination_by structural segments => segments

theorem isClean_argument : (arg : TypeArg) → arg.clean strict = true →
    isClean false ((argument arg).variance.text ++ segmentsText (argument arg).ty) = true
  | .exactly ty, h | .extending ty, h | .superOf ty, h =>
    isClean_append (isClean_variance _) (loose_of_isClean (isClean_typeRef ty h))
  | .unbounded, _ => by
    rw [argument, anything, segmentsText_named]
    decide
termination_by structural arg => arg

theorem isClean_bracketed : (args : List TypeArg) → TypeArg.cleanList strict args = true →
    isClean false (bracketedText (argumentList args)) = true
  | [], _ => by simp [argumentList, bracketedText, isClean]
  | arg :: args, h => by
    simp only [TypeArg.cleanList, Bool.and_eq_true] at h
    have harg := isClean_argument arg h.1
    rw [argumentList]
    generalize argument arg = a at harg ⊢
    obtain ⟨variance, ty⟩ := a
    rw [bracketedText]
    refine isClean_append (isClean_append (by decide) harg) ?_
    exact isClean_append (isClean_further args h.2) (by decide)
termination_by structural args => args

theorem isClean_further : (args : List TypeArg) → TypeArg.cleanList strict args = true →
    isClean false (furtherText (argumentList args)) = true
  | [], _ => by simp [argumentList, furtherText, isClean]
  | arg :: args, h => by
    simp only [TypeArg.cleanList, Bool.and_eq_true] at h
    have harg := isClean_argument arg h.1
    rw [argumentList]
    generalize argument arg = a at harg ⊢
    obtain ⟨variance, ty⟩ := a
    rw [furtherText]
    exact isClean_append (isClean_append (by decide) harg) (isClean_further args h.2)
termination_by structural args => args
end

theorem isClean_classType {ty : ClassType} (h : ty.clean strict = true) :
    isClean strict (classType ty).text = true :=
  isClean_typeRef (.classType ty) h

section

variable {tys : List Ceylon.Ty} (h : ∀ ty ∈ tys, isClean strict ty.text = true)

include h

theorem isClean_types {between : String} (hbetween : isClean false between = true) :
    isClean false (String.intercalate between (tys.map Ceylon.Ty.text)) = true := by
  refine isClean_intercalate hbetween fun t ht => ?_
  obtain ⟨ty, hty, rfl⟩ := List.mem_map.mp ht
  exact loose_of_isClean (h ty hty)

theorem isClean_typeArgsText : isClean false (Ceylon.typeArgsText tys) = true := by
  unfold Ceylon.typeArgsText
  split
  · rfl
  · exact isClean_append (isClean_append (by decide) (isClean_types h (by decide))) (by decide)

theorem isClean_satisfiesText : isClean false (Ceylon.satisfiesText tys) = true := by
  unfold Ceylon.satisfiesText
  split
  · rfl
  · exact isClean_append (by decide) (isClean_types h (by decide))

end

theorem typeParamsFit {params : List Java.TypeParam}
    (h : params.all (Java.TypeParam.clean strict) = true) :
    Ceylon.TypeParamsFit (params.map typeParam) := by
  have hparams : ∀ p ∈ params.map typeParam, isClean false p.name = true ∧
      ∀ ty ∈ p.bounds, isClean strict ty.text = true := by
    intro p hp
    obtain ⟨q, hq, rfl⟩ := List.mem_map.mp hp
    have hclean := List.all_eq_true.mp h q hq
    rw [Java.TypeParam.clean, Bool.and_eq_true] at hclean
    refine ⟨loose_of_isClean hclean.1, fun ty hty => ?_⟩
    obtain ⟨bound, hbound, rfl⟩ := List.mem_map.mp hty
    exact isClean_classType (List.all_eq_true.mp hclean.2 bound hbound)
  constructor
  · unfold Ceylon.TypeParam.listText
    split
    · rfl
    · refine isClean_append (isClean_append (by decide) ?_) (by decide)
      refine isClean_intercalate (by decide) fun t ht => ?_
      obtain ⟨p, hp, rfl⟩ := List.mem_map.mp ht
      exact (hparams p hp).1
  · refine isClean_join fun t ht => ?_
    obtain ⟨p, hp, rfl⟩ := List.mem_map.mp ht
    obtain ⟨hname, hbounds⟩ := hparams p hp
    unfold Ceylon.TypeParam.constraintText
    split
    · rfl
    · refine isClean_append (isClean_append (isClean_append (by decide) hname) (by decide)) ?_
      exact isClean_types hbounds (by decide)

/-! ## Names made from others -/

/-- A character that a clean text may start with. -/
def isInitial (c : Char) : Bool := isBare c && c != ' '

theorem isClean_ofList {c : Char} {cs : List Char} (hc : isInitial c = true)
    (hcs : cs.all isBare = true) :
    isClean strict (String.ofList (c :: cs)) = true := by
  rw [isInitial, Bool.and_eq_true] at hc
  simp [isClean, hc.1, hc.2, hcs]

theorem isBare_of_isAlphanum {c : Char} (h : (c.isAlphanum || c == '_') = true) :
    isBare c = true := by
  cases hbare : isBare c with
  | true => rfl
  | false =>
    simp only [isBare, Bool.and_eq_false_iff, bne_eq_false_iff_eq] at hbare
    rcases hbare with (((rfl | rfl) | rfl) | rfl) | rfl <;> cases h

theorem isInitial_toLower {c : Char} (hascii : c.toNat < 0x80) (h : (c.isAlpha || c == '_') = true) :
    isInitial c.toLower = true := by
  have hall : ∀ n < 0x80, ((Char.ofNat n).isAlpha || Char.ofNat n == '_') = true →
      isInitial (Char.ofNat n).toLower = true := by decide
  have hc := hall c.toNat hascii
  rw [Char.ofNat_toNat] at hc
  exact hc h

theorem isClean_property {method property : String}
    (h : Ceylon.Name.property method = some property) : isClean strict property = true := by
  unfold Ceylon.Name.property at h
  split at h
  · next c rest _ =>
    split at h
    · next hletters =>
      cases h
      rw [Bool.and_eq_true] at hletters
      have halpha : c.isAlpha = true := Bool.or_eq_true_iff.mpr (.inl hletters.1)
      have hascii : c.toNat < 0x80 := by
        have hle : c.val ≤ 90 := (of_decide_eq_true hletters.1).2
        exact Nat.lt_of_le_of_lt hle (by decide)
      refine isClean_ofList (isInitial_toLower hascii (by simp [halpha])) ?_
      rw [List.all_eq_true] at hletters ⊢
      exact fun d hd => isBare_of_isAlphanum (hletters.2 d hd)
    · cases h
  · cases h

/-- Small forms of letters beyond ASCII are beyond ASCII, but for that of the Kelvin sign. -/
theorem smallForms_beyond : (Text.smallForms.all fun f => Nat.blt f.last 0x80 ||
    Nat.ble 0x80 f.image || (Nat.beq f.first f.last && Nat.beq f.image 0x6b)) = true := by
  decide +kernel

theorem smallFormIn_beyond {fs : List Text.SmallForm} (hfs : (fs.all fun f => Nat.blt f.last 0x80 ||
    Nat.ble 0x80 f.image || (Nat.beq f.first f.last && Nat.beq f.image 0x6b)) = true) {n : Nat}
    (hn : 0x80 ≤ n) : 0x80 ≤ Text.smallFormIn fs n ∨ Text.smallFormIn fs n = 0x6b := by
  induction fs with
  | nil => exact .inl hn
  | cons f fs ih =>
    rw [List.all_cons, Bool.and_eq_true] at hfs
    rw [Text.smallFormIn]
    split
    · exact .inl hn
    · split
      · next hge hle =>
        simp only [Bool.or_eq_true, Bool.and_eq_true, Nat.blt_eq, Nat.ble_eq, Nat.beq_eq,
          decide_eq_true_eq] at hfs hle
        omega
      · exact ih hfs.2

theorem ofNat_ne_of_lt {n : Nat} {c : Char} (hn : c.toNat < n) (hc : c ≠ '\x00') : Char.ofNat n ≠ c := by
  rintro rfl
  by_cases hvalid : n.isValidChar
  · have hof : Char.ofNat n = Char.ofNatAux n hvalid := dif_pos hvalid
    have heq : (Char.ofNatAux n hvalid).toNat = n := rfl
    rw [hof] at hn
    omega
  · exact hc (dif_neg hvalid)

theorem isInitial_ofNat {n : Nat} (h : 0x80 ≤ n ∨ n = 0x6b) : isInitial (Char.ofNat n) = true := by
  rcases h with h | rfl
  · have hsmall : (['(', ')', '{', '}', '\n', ' '].all fun c => c.toNat < 0x80 && c != '\x00') =
        true := by decide
    have hne : ∀ c ∈ ['(', ')', '{', '}', '\n', ' '], Char.ofNat n ≠ c := by
      intro c hc
      have hascii := List.all_eq_true.mp hsmall c hc
      rw [Bool.and_eq_true, decide_eq_true_eq, bne_iff_ne] at hascii
      exact ofNat_ne_of_lt (Nat.lt_of_lt_of_le hascii.1 h) hascii.2
    simp only [List.forall_mem_cons] at hne
    simp [isInitial, isBare, hne]
  · decide

theorem isClean_bindingName (e : Java.Expr) : isClean strict (bindingName e) = true := by
  have hdefault : isClean strict "x" = true := by cases strict <;> decide
  unfold bindingName
  split
  · next c _ _ =>
    split
    · next hletter =>
      unfold Text.toLowercase
      split
      · next hascii =>
        refine isClean_ofList (isInitial_toLower hascii ?_) rfl
        simpa [Text.isAlphabetic, hascii] using hletter
      · split
        · cases strict <;> decide
        · next hbeyond _ =>
          have himage := smallFormIn_beyond smallForms_beyond (Nat.not_lt.mp hbeyond)
          exact isClean_ofList (isInitial_ofNat himage) rfl
    · exact hdefault
  · exact hdefault

end CeylonFromJava.Conversion
