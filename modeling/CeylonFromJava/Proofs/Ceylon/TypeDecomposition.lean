import CeylonFromJava.Proofs.Ceylon.TypeText

/-! Types with the same text are the same type.

A name ends at a blank, a point, a comma or an angle bracket; it may hold all other characters. So a
text that starts with a type can be taken apart in one way only, as long as the type is over where the
text goes on: `decomposes_of_wellNamed`, by induction on one of the types. -/
namespace CeylonFromJava.Ceylon
set_option autoImplicit false

/-! ## Names -/

namespace Name

/-- A character that ends a name in the text of a type. -/
def isSeparator (c : Char) : Bool := c == ' ' || c == '.' || c == ',' || c == '<' || c == '>'

def isUnbroken (name : String) : Bool := name.toList.all (!isSeparator ·)

/-- No name goes on here. -/
def AtSeparator (cs : List Char) : Prop := ∀ c, cs.head? = some c → isSeparator c = true

theorem takeWhile_unbroken {name : String} (h : isUnbroken name = true) {rest : List Char}
    (hr : AtSeparator rest) : (name.toList ++ rest).takeWhile (!isSeparator ·) = name.toList :=
  takeWhile_exact (List.all_eq_true.mp h) fun c hc => congrArg not (hr c hc)

theorem unbroken_append_inj {name name' : String} (h : isUnbroken name = true)
    (h' : isUnbroken name' = true) {rest rest' : List Char} (hr : AtSeparator rest)
    (hr' : AtSeparator rest') (heq : name.toList ++ rest = name'.toList ++ rest') :
    name = name' ∧ rest = rest' := by
  have hchars : name.toList = name'.toList := by
    rw [← takeWhile_unbroken h hr, heq, takeWhile_unbroken h' hr']
  rw [hchars] at heq
  exact ⟨String.toList_inj.mp hchars, List.append_cancel_left heq⟩

end Name

open Name

/-! ## Where a part of a type is over -/

theorem bracketedText_nil_append (cs : List Char) : (bracketedText []).toList ++ cs = cs := by
  simp [bracketedText]

theorem furtherText_nil_append (cs : List Char) : (furtherText []).toList ++ cs = cs := by
  simp [furtherText]

/-- A type is over here: it was all there is, or an argument. -/
def ClosesType (cs : List Char) : Prop := ∀ c, cs.head? = some c → c = ',' ∨ c = '>'

/-- A name with its arguments is over here. -/
def ClosesSegment (cs : List Char) : Prop := ∀ c, cs.head? = some c → c = '.' ∨ c = ',' ∨ c = '>'

theorem ClosesSegment.head_ne_bracket {cs : List Char} (h : ClosesSegment cs) :
    cs.head? ≠ some '<' := by
  intro hc
  rcases h '<' hc with h | h | h <;> cases h

theorem atSeparator_bracketed (args : List Argument) {rest : List Char} (h : ClosesSegment rest) :
    AtSeparator ((bracketedText args).toList ++ rest) := by
  intro c hc
  cases args with
  | nil =>
    rw [bracketedText_nil_append] at hc
    rcases h c hc with rfl | rfl | rfl <;> decide
  | cons a args =>
    rw [bracketedText_cons] at hc
    obtain rfl : '<' = c := Option.some.inj hc
    decide

theorem closesType_further (args : List Argument) (rest : List Char) :
    ClosesType ((furtherText args).toList ++ '>' :: rest) := by
  intro c hc
  cases args with
  | nil =>
    rw [furtherText_nil_append] at hc
    exact .inr (Option.some.inj hc).symm
  | cons a args =>
    rw [furtherText_cons] at hc
    exact .inl (Option.some.inj hc).symm

/-! ## Types -/

/-- A type that has a name, no name in it holding a separator. -/
inductive Ty.WellNamed : Ty → Prop
  | last {name : String} {args : List Argument} :
    isUnbroken name = true → (∀ a ∈ args, WellNamed a.ty) → WellNamed [⟨name, args⟩]
  | within {name : String} {args : List Argument} {segments : List Segment} :
    isUnbroken name = true → (∀ a ∈ args, WellNamed a.ty) → WellNamed segments →
      WellNamed (⟨name, args⟩ :: segments)

theorem Ty.WellNamed.exists_cons {ty : Ty} (h : ty.WellNamed) :
    ∃ name args segments, ty = ⟨name, args⟩ :: segments ∧ isUnbroken name = true ∧
      (∀ a ∈ args, WellNamed a.ty) ∧ (segments ≠ [] → WellNamed segments) := by
  cases h with
  | @last name args hname hargs =>
    exact ⟨name, args, [], rfl, hname, hargs, fun h => absurd rfl h⟩
  | @within name args segments hname hargs hsegments =>
    exact ⟨name, args, segments, rfl, hname, hargs, fun _ => hsegments⟩

/-- What follows the first name with its arguments: a point and the other names, if there are any. -/
def afterSegment : List Segment → List Char → List Char
  | [], rest => rest
  | segment :: segments, rest => '.' :: ((segmentsText (segment :: segments)).toList ++ rest)

theorem segmentsText_cons_append (name : String) (args : List Argument) (segments : List Segment)
    (rest : List Char) :
    (segmentsText (⟨name, args⟩ :: segments)).toList ++ rest =
      name.toList ++ ((bracketedText args).toList ++ afterSegment segments rest) := by
  cases segments <;> simp [segmentsText, afterSegment]

theorem closesSegment_after (segments : List Segment) {rest : List Char} (h : ClosesType rest) :
    ClosesSegment (afterSegment segments rest) := by
  intro c hc
  cases segments with
  | nil => exact .inr (h c hc)
  | cons segment segments => exact .inl (Option.some.inj hc).symm

/-- The type is the only one that a text can start with, if the text starts with it at all. -/
def Ty.Decomposes (ty : Ty) : Prop :=
  ∀ ty' : Ty, ty'.WellNamed → ∀ rest rest', ClosesType rest → ClosesType rest' →
    (segmentsText ty).toList ++ rest = (segmentsText ty').toList ++ rest' → ty = ty' ∧ rest = rest'

/-- A type starts with its first name. After it there is no blank. -/
theorem Ty.WellNamed.exists_name {ty : Ty} (h : ty.WellNamed) {rest : List Char}
    (hr : ClosesType rest) :
    ∃ name tail, (segmentsText ty).toList ++ rest = name.toList ++ tail ∧ isUnbroken name = true ∧
      AtSeparator tail ∧ tail.head? ≠ some ' ' := by
  obtain ⟨name, args, segments, rfl, hname, -, -⟩ := h.exists_cons
  have hafter := closesSegment_after segments hr
  refine ⟨name, (bracketedText args).toList ++ afterSegment segments rest,
    segmentsText_cons_append name args segments rest, hname, atSeparator_bracketed args hafter, ?_⟩
  intro hblank
  cases args with
  | nil =>
    rw [bracketedText_nil_append] at hblank
    rcases hafter ' ' hblank with h | h | h <;> cases h
  | cons a args =>
    rw [bracketedText_cons] at hblank
    cases hblank

/-! ## Arguments -/

/-- The variance of an argument, told from its first word and from what follows it. -/
def varianceOf (word : String) (tail : List Char) : Variance :=
  if tail.head? = some ' ' then if word = "in" then .contravariant else .covariant else .exact

theorem exists_first_word {a : Argument} (ha : Ty.WellNamed a.ty) {rest : List Char}
    (hr : ClosesType rest) :
    ∃ word tail, a.chars ++ rest = word.toList ++ tail ∧ isUnbroken word = true ∧ AtSeparator tail ∧
      a.variance = varianceOf word tail := by
  obtain ⟨variance, ty⟩ := a
  have hend : ∀ cs, AtSeparator (' ' :: cs) := by
    intro cs c hc
    cases hc
    decide
  cases variance with
  | exact =>
    obtain ⟨name, tail, heq, hname, htail, hblank⟩ := ha.exists_name hr
    refine ⟨name, tail, ?_, hname, htail, ?_⟩
    · simpa [Argument.chars, Variance.text] using heq
    · rw [varianceOf, if_neg hblank]
  | covariant =>
    refine ⟨"out", ' ' :: ((segmentsText ty).toList ++ rest), ?_, by decide, hend _, by simp [varianceOf]⟩
    simp [Argument.chars, Variance.text]
  | contravariant =>
    refine ⟨"in", ' ' :: ((segmentsText ty).toList ++ rest), ?_, by decide, hend _, by simp [varianceOf]⟩
    simp [Argument.chars, Variance.text]

theorem chars_append_inj {a b : Argument} (ha : Ty.WellNamed a.ty) (hb : Ty.WellNamed b.ty)
    (h : Ty.Decomposes a.ty) {rest rest' : List Char} (hr : ClosesType rest) (hr' : ClosesType rest')
    (heq : a.chars ++ rest = b.chars ++ rest') : a = b ∧ rest = rest' := by
  obtain ⟨word, tail, hword, hunbroken, hend, hvariance⟩ := exists_first_word ha hr
  obtain ⟨word', tail', hword', hunbroken', hend', hvariance'⟩ := exists_first_word hb hr'
  -- the first words are the same, so the variances are; only then can they be cancelled
  obtain ⟨rfl, rfl⟩ := unbroken_append_inj hunbroken hunbroken' hend hend'
    (hword.symm.trans (heq.trans hword'))
  obtain ⟨variance, ty⟩ := a
  obtain ⟨variance', ty'⟩ := b
  obtain rfl : variance = variance' := hvariance.trans hvariance'.symm
  simp only [Argument.chars, List.append_assoc] at heq
  obtain ⟨rfl, hrest⟩ := h ty' hb rest rest' hr hr' (List.append_cancel_left heq)
  exact ⟨rfl, hrest⟩

/-- Arguments up to the closing bracket, one after the other. -/
theorem arguments_append_inj {a b : Argument} {args args' : List Argument}
    (hargs : ∀ c ∈ a :: args, Ty.WellNamed c.ty) (hargs' : ∀ c ∈ b :: args', Ty.WellNamed c.ty)
    (h : ∀ c ∈ a :: args, Ty.Decomposes c.ty) {rest rest' : List Char}
    (heq : a.chars ++ ((furtherText args).toList ++ '>' :: rest) =
      b.chars ++ ((furtherText args').toList ++ '>' :: rest')) :
    a :: args = b :: args' ∧ rest = rest' := by
  induction args generalizing a b args' with
  | nil =>
    obtain ⟨rfl, hfurther⟩ := chars_append_inj (hargs a (List.mem_cons_self ..))
      (hargs' b (List.mem_cons_self ..)) (h a (List.mem_cons_self ..)) (closesType_further [] rest)
      (closesType_further args' rest') heq
    rw [furtherText_nil_append] at hfurther
    cases args' with
    | nil =>
      rw [furtherText_nil_append] at hfurther
      exact ⟨rfl, (List.cons.inj hfurther).2⟩
    | cons b' args' =>
      rw [furtherText_cons] at hfurther
      cases (List.cons.inj hfurther).1
  | cons a' args ih =>
    obtain ⟨ha, hargs⟩ := List.forall_mem_cons.mp hargs
    obtain ⟨hb, hmembers⟩ := List.forall_mem_cons.mp hargs'
    obtain ⟨hfirst, hmore⟩ := List.forall_mem_cons.mp h
    obtain ⟨rfl, hfurther⟩ := chars_append_inj ha hb hfirst (closesType_further (a' :: args) rest)
      (closesType_further args' rest') heq
    rw [furtherText_cons] at hfurther
    cases args' with
    | nil =>
      rw [furtherText_nil_append] at hfurther
      cases (List.cons.inj hfurther).1
    | cons b' args' =>
      simp only [furtherText_cons, List.cons_append, List.append_assoc, List.cons.injEq,
        true_and] at hfurther
      obtain ⟨hlist, hrest⟩ := ih hargs hmembers hmore hfurther
      exact ⟨List.cons_eq_cons.mpr ⟨rfl, hlist⟩, hrest⟩

theorem bracketed_append_inj {args args' : List Argument} (hargs : ∀ a ∈ args, Ty.WellNamed a.ty)
    (hargs' : ∀ a ∈ args', Ty.WellNamed a.ty) (h : ∀ a ∈ args, Ty.Decomposes a.ty)
    {rest rest' : List Char} (hr : rest.head? ≠ some '<') (hr' : rest'.head? ≠ some '<')
    (heq : (bracketedText args).toList ++ rest = (bracketedText args').toList ++ rest') :
    args = args' ∧ rest = rest' := by
  cases args with
  | nil =>
    rw [bracketedText_nil_append] at heq
    cases args' with
    | nil =>
      rw [bracketedText_nil_append] at heq
      exact ⟨rfl, heq⟩
    | cons b args' =>
      rw [bracketedText_cons] at heq
      exact absurd (congrArg List.head? heq) hr
  | cons a args =>
    rw [bracketedText_cons] at heq
    cases args' with
    | nil =>
      rw [bracketedText_nil_append] at heq
      exact absurd (congrArg List.head? heq).symm hr'
    | cons b args' =>
      simp only [bracketedText_cons, List.cons_append, List.append_assoc, List.nil_append,
        List.cons.injEq, true_and] at heq
      exact arguments_append_inj hargs hargs' h heq

/-! ## Taking types apart -/

theorem segment_append_inj {name name' : String} {args args' : List Argument}
    (hname : isUnbroken name = true) (hname' : isUnbroken name' = true)
    (hargs : ∀ a ∈ args, Ty.WellNamed a.ty) (hargs' : ∀ a ∈ args', Ty.WellNamed a.ty)
    (h : ∀ a ∈ args, Ty.Decomposes a.ty) {rest rest' : List Char} (hr : ClosesSegment rest)
    (hr' : ClosesSegment rest')
    (heq : name.toList ++ ((bracketedText args).toList ++ rest) =
      name'.toList ++ ((bracketedText args').toList ++ rest')) :
    (⟨name, args⟩ : Segment) = ⟨name', args'⟩ ∧ rest = rest' := by
  obtain ⟨rfl, hafter⟩ := unbroken_append_inj hname hname' (atSeparator_bracketed args hr)
    (atSeparator_bracketed args' hr') heq
  obtain ⟨rfl, hrest⟩ := bracketed_append_inj hargs hargs' h hr.head_ne_bracket hr'.head_ne_bracket
    hafter
  exact ⟨rfl, hrest⟩

theorem ClosesType.ne_point {cs : List Char} (h : ClosesType cs) (cs' : List Char) :
    cs ≠ '.' :: cs' := by
  intro heq
  rcases h '.' (by rw [heq]; rfl) with h | h <;> cases h

/-- **A text starts with one type at most.** -/
theorem decomposes_of_wellNamed {ty : Ty} (h : ty.WellNamed) : ty.Decomposes := by
  induction h with
  | @last name args hname hargs ih =>
    intro ty' h' rest rest' hr hr' heq
    obtain ⟨name', args', segments', rfl, hname', hargs', -⟩ := h'.exists_cons
    rw [segmentsText_cons_append, segmentsText_cons_append] at heq
    obtain ⟨hsegment, hafter⟩ := segment_append_inj hname hname' hargs hargs' ih
      (closesSegment_after [] hr) (closesSegment_after segments' hr') heq
    rw [hsegment]
    -- a longer type would go on with a point, which nothing that follows a type starts with
    cases segments' with
    | nil => exact ⟨rfl, hafter⟩
    | cons _ _ => exact absurd hafter (hr.ne_point _)
  | @within name args segments hname hargs hsegments ih ihs =>
    intro ty' h' rest rest' hr hr' heq
    obtain ⟨name', args', segments', rfl, hname', hargs', hsegments'⟩ := h'.exists_cons
    rw [segmentsText_cons_append, segmentsText_cons_append] at heq
    obtain ⟨hsegment, hafter⟩ := segment_append_inj hname hname' hargs hargs' ih
      (closesSegment_after segments hr) (closesSegment_after segments' hr') heq
    rw [hsegment]
    cases segments with
    | nil => cases hsegments
    | cons segment segments =>
      cases segments' with
      | nil => exact absurd hafter.symm (hr'.ne_point _)
      | cons segment' segments' =>
        obtain ⟨hmore, hrest⟩ := ihs (segment' :: segments') (hsegments' (List.cons_ne_nil _ _)) rest
          rest' hr hr' (List.cons.inj hafter).2
        rw [hmore]
        exact ⟨rfl, hrest⟩

theorem eq_of_text_eq {ty ty' : Ty} (h : ty.WellNamed) (h' : ty'.WellNamed)
    (heq : ty.text = ty'.text) : ty = ty' := by
  have hend : ClosesType [] := by
    intro c hc
    cases hc
  have hchars : (segmentsText ty).toList ++ [] = (segmentsText ty').toList ++ [] :=
    congrArg (fun s => s.toList ++ []) heq
  exact (decomposes_of_wellNamed h ty' h' [] [] hend hend hchars).1

end CeylonFromJava.Ceylon
