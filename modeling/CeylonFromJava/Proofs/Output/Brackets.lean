import CeylonFromJava.Proofs.Output.Nesting

/-! Brackets and indentation of a text.

`openAfter` reads a text with a stack of the closing brackets that are still to come. `FollowsBraces`
says of a line that it is indented by the braces that are open before it. Both are followed through
pieces by `putAll`: it gives up at a bracket that does not fit and, if it is strict, at a text that
starts a line at another level than the braces have. -/
namespace CeylonFromJava.Output
set_option autoImplicit false

/-! ## Brackets -/

/-- The closing brackets that are still to come after a text, innermost first. -/
def openAfter : List Char → List Char → Option (List Char)
  | closers, [] => some closers
  | closers, '(' :: cs => openAfter (')' :: closers) cs
  | closers, '{' :: cs => openAfter ('}' :: closers) cs
  | closers, c :: cs =>
    if c = ')' ∨ c = '}' then
      if closers.head? = some c then openAfter closers.tail cs else none
    else openAfter closers cs

/-- Neither a bracket nor the end of a line. -/
def isBare (c : Char) : Bool :=
  c != '(' && c != ')' && c != '{' && c != '}' && c != '\n'

/-- A text without brackets and line ends; a strict one can also start a line. -/
def isClean (strict : Bool) (s : String) : Bool :=
  s.toList.all isBare && (!strict || (s.toList.head?.any (· != ' ')))

theorem openAfter_append (closers cs ds : List Char) :
    openAfter closers (cs ++ ds) = (openAfter closers cs).bind (openAfter · ds) := by
  fun_induction openAfter closers cs with
  | case1 closers => rfl
  | case2 closers cs ih | case3 closers cs ih => simpa [openAfter] using ih
  | case4 closers c cs hparen hbrace hc hfits ih => simp [openAfter, hc, hfits, ih]
  | case5 closers c cs hparen hbrace hc hfits => simp [openAfter, hc, hfits]
  | case6 closers c cs hparen hbrace hc ih => simp [openAfter, hc, ih]

theorem openAfter_bare {cs : List Char} (h : cs.all isBare = true) (closers : List Char) :
    openAfter closers cs = some closers := by
  induction cs with
  | nil => rfl
  | cons c cs ih =>
    simp only [List.all_cons, isBare, Bool.and_eq_true, bne_iff_ne] at h
    obtain ⟨⟨⟨⟨⟨hparen, hparen'⟩, hbrace⟩, hbrace'⟩, -⟩, hcs⟩ := h
    simp [openAfter, hparen', hbrace', ih hcs]

/-- What is opened and not closed again stands on the stack. -/
theorem count_openAfter {closers cs closers' : List Char} (h : openAfter closers cs = some closers') :
    cs.count '{' + closers.count '}' = cs.count '}' + closers'.count '}' := by
  fun_induction openAfter closers cs with
  | case1 closers =>
    cases h
    rfl
  | case2 closers cs ih | case3 closers cs ih =>
    have hrest := ih h
    simp at hrest ⊢
    omega
  | case4 closers c cs hparen hbrace hc hfits ih =>
    have hrest := ih h
    obtain ⟨rest, rfl⟩ : ∃ rest, closers = c :: rest := List.head?_eq_some_iff.mp hfits
    rcases hc with rfl | rfl
    · simp at hrest ⊢
      omega
    · simp at hrest ⊢
      omega
  | case5 => cases h
  | case6 closers c cs hparen hbrace hc ih =>
    have hrest := ih h
    rw [not_or] at hc
    rw [List.count_cons_of_ne hc.2, List.count_cons_of_ne (fun heq => hbrace heq)]
    exact hrest

/-! ## Clean texts -/

section

variable {strict : Bool} {s t : String}

theorem isBare_of_isClean (hs : isClean strict s = true) : s.toList.all isBare = true := by
  rw [isClean, Bool.and_eq_true] at hs
  exact hs.1

/-- What follows a clean text may be empty. -/
theorem isClean_append (hs : isClean strict s = true) (ht : isClean false t = true) :
    isClean strict (s ++ t) = true := by
  simp only [isClean, Bool.and_eq_true] at hs ht
  rw [isClean, String.toList_append, List.all_append, hs.1, ht.1]
  cases strict with
  | false => rfl
  | true =>
    obtain ⟨c, hc, hspace⟩ := (Option.any_eq_true _ _).mp hs.2
    simp [hc, hspace]

theorem loose_of_isClean (h : isClean strict s = true) : isClean false s = true := by
  rw [isClean, isBare_of_isClean h]
  rfl

theorem isClean_join {ts : List String} (h : ∀ t ∈ ts, isClean false t = true) :
    isClean false (String.join ts) = true := by
  induction ts with
  | nil => rfl
  | cons t ts ih =>
    obtain ⟨ht, hts⟩ := List.forall_mem_cons.mp h
    rw [String.join_cons]
    exact isClean_append ht (ih hts)

theorem isClean_intercalate {between : String} (hbetween : isClean false between = true)
    {ts : List String} (h : ∀ t ∈ ts, isClean false t = true) :
    isClean false (String.intercalate between ts) = true := by
  induction ts with
  | nil => rfl
  | cons t ts ih =>
    obtain ⟨ht, hts⟩ := List.forall_mem_cons.mp h
    cases ts with
    | nil => simpa using ht
    | cons t' ts =>
      rw [String.intercalate_cons_cons]
      exact isClean_append (isClean_append ht hbetween) (ih hts)

end

/-! ## Lines -/

/-- How many braces are still open. -/
def openBraces (before : List Char) : Nat := before.count '{' - before.count '}'

/-- A line that is empty, or indented by the braces that are open before it; a brace that closes stands
one level further out. -/
def FollowsBraces (before line : List Char) : Prop :=
  line = [] ∨ ∃ c rest, c ≠ ' ' ∧
    line = List.replicate (4 * (openBraces before - if c = '}' then 1 else 0)) ' ' ++ c :: rest

/-- The text ends where a line starts. -/
def EndsLines (text : List Char) : Prop := text = [] ∨ text.getLast? = some '\n'

/-- Each line of the text follows the braces. -/
def Tidy (text : List Char) : Prop :=
  ∀ before line after, text = before ++ line ++ '\n' :: after → EndsLines before → '\n' ∉ line →
    FollowsBraces before line

theorem FollowsBraces.append {before line : List Char} (h : FollowsBraces before line)
    (hne : line ≠ []) (cs : List Char) : FollowsBraces before (line ++ cs) := by
  rcases h with rfl | ⟨c, rest, hc, rfl⟩
  · exact absurd rfl hne
  · exact .inr ⟨c, rest ++ cs, hc, by simp⟩

theorem EndsLines.eq_nil_of_append {before mid : List Char} (h : EndsLines (before ++ mid))
    (hmid : '\n' ∉ mid) : mid = [] := by
  rcases List.eq_nil_or_concat mid with rfl | ⟨front, c, rfl⟩
  · rfl
  · rcases h with hnil | hlast
    · simp at hnil
    · rw [List.concat_eq_append, ← List.append_assoc, List.getLast?_concat, Option.some.injEq] at hlast
      simp [hlast] at hmid

/-- A line starts in one place only. -/
theorem EndsLines.unique {before line before' line' : List Char} (h : EndsLines before)
    (h' : EndsLines before') (hline : '\n' ∉ line) (hline' : '\n' ∉ line')
    (heq : before ++ line = before' ++ line') : before = before' ∧ line = line' := by
  rcases List.append_eq_append_iff.mp heq with ⟨mid, rfl, rfl⟩ | ⟨mid, rfl, rfl⟩
  · have hmid : mid = [] := h'.eq_nil_of_append fun hmem => hline (List.mem_append_left _ hmem)
    simp [hmid]
  · have hmid : mid = [] := h.eq_nil_of_append fun hmem => hline' (List.mem_append_left _ hmem)
    simp [hmid]

theorem Tidy.append {text : List Char} (h : Tidy text) {cs : List Char} (hcs : '\n' ∉ cs) :
    Tidy (text ++ cs) := by
  intro before line after heq hbefore hline
  -- the line ends in `text`, since `cs` has no line end
  rcases List.append_eq_append_iff.mp heq with ⟨mid, _, hrest⟩ | ⟨mid, hmid, hrest⟩
  · have hlast : '\n' ∈ cs := hrest ▸ List.mem_append_right _ (List.mem_cons_self ..)
    exact absurd hlast hcs
  · cases mid with
    | nil =>
      have hlast : '\n' ∈ cs := by
        rw [List.nil_append] at hrest
        exact hrest ▸ List.mem_cons_self ..
      exact absurd hlast hcs
    | cons c mid =>
      rw [List.cons_append, List.cons.injEq] at hrest
      exact h before line mid (by rw [hmid, ← hrest.1]) hbefore hline

theorem Tidy.newline {before line : List Char} (h : Tidy (before ++ line)) (hbefore : EndsLines before)
    (hline : '\n' ∉ line) (hfollows : FollowsBraces before line) : Tidy (before ++ line ++ ['\n']) := by
  intro before' line' after heq hbefore' hline'
  rcases List.eq_nil_or_concat after with rfl | ⟨front, c, rfl⟩
  · have hwhole : before ++ line = before' ++ line' := List.append_cancel_right heq
    obtain ⟨rfl, rfl⟩ := hbefore.unique hbefore' hline hline' hwhole
    exact hfollows
  · have hearlier : before ++ line = before' ++ line' ++ '\n' :: front := by
      rw [List.concat_eq_append, ← List.cons_append, ← List.append_assoc] at heq
      exact (List.append_inj' heq rfl).1
    exact h before' line' front hearlier hbefore' hline'

theorem lines_append_newline (level : Nat) (fresh : Bool) (ps : List Piece) :
    Piece.lines level fresh (ps ++ [.newline]) = Piece.lines level fresh ps ++ ["\n"] := by
  induction ps generalizing level fresh with
  | nil => rfl
  | cons p ps ih =>
    rw [List.cons_append, Piece.lines_cons, ih, ← List.append_assoc, ← Piece.lines_cons]

theorem endsLines_render {ps : List Piece} (h : Piece.EndsLine ps) :
    EndsLines (Piece.render ps).toList := by
  cases hlast : ps.getLast? with
  | none =>
    rw [List.getLast?_eq_none_iff] at hlast
    subst hlast
    exact .inl rfl
  | some p =>
    obtain ⟨front, rfl⟩ := List.getLast?_eq_some_iff.mp hlast
    obtain rfl := h p hlast
    rw [Piece.render, lines_append_newline, String.join_append, String.toList_append]
    exact .inr List.getLast?_concat

/-! ## Pieces -/

/-- Where pieces are put: the level, the closing brackets that are still to come, and whether a line
starts. -/
structure Place where
  level : Nat
  closers : List Char
  fresh : Bool

namespace Place

/-- Whether a text may start a line here. -/
def fits (p : Place) (s : String) : Bool :=
  s.toList.head?.any fun c => c != ' ' && p.level + (if c = '}' then 1 else 0) == p.closers.count '}'

def put (strict : Bool) (p : Place) : Piece → Option Place
  | .text s =>
    if s.toList.all (· != '\n') && (!(strict && p.fresh) || p.fits s) then
      (openAfter p.closers s.toList).map fun closers => ⟨p.level, closers, false⟩
    else none
  | .newline => some ⟨p.level, p.closers, true⟩
  | .indent => some ⟨p.level + 1, p.closers, p.fresh⟩
  | .dedent => some ⟨p.level - 1, p.closers, p.fresh⟩

def putAll (strict : Bool) : Place → List Piece → Option Place
  | p, [] => some p
  | p, q :: qs => (p.put strict q).bind fun p => putAll strict p qs

/-- Where the text stands after `before`. -/
structure Reads (p : Place) (before : List Char) : Prop where
  closers : openAfter [] before = some p.closers
  tidy : Tidy before
  fresh : p.fresh = true → EndsLines before
  inside : p.fresh = false → ∃ front line, before = front ++ line ∧ EndsLines front ∧ '\n' ∉ line ∧
    line ≠ [] ∧ FollowsBraces front line

theorem reads_nil : Reads ⟨0, [], true⟩ [] := by
  refine ⟨rfl, ?_, fun _ => .inl rfl, nofun⟩
  intro before line after heq
  simp at heq

theorem toList_indentation (level : Nat) :
    (indentation level).toList = List.replicate (4 * level) ' ' := by
  induction level with
  | zero => rfl
  | succ level ih =>
    rw [indentation] at ih
    rw [indentation, List.replicate_succ, String.join_cons, String.toList_append, ih,
      Nat.mul_succ, Nat.add_comm, ← List.replicate_append_replicate]
    rfl

theorem openAfter_indentation (level : Nat) (closers : List Char) :
    openAfter closers (indentation level).toList = some closers := by
  rw [toList_indentation]
  refine openAfter_bare ?_ closers
  rw [List.all_eq_true]
  intro c hc
  rw [List.eq_of_mem_replicate hc]
  rfl

theorem openAfter_lines_one {strict : Bool} {p p' : Place} {q : Piece}
    (h : p.put strict q = some p') (level : Nat) (fresh : Bool) :
    openAfter p.closers (String.join (Piece.lines level fresh [q])).toList = some p'.closers := by
  cases q with
  | text s =>
    simp only [put] at h
    split at h
    · obtain ⟨closers, hclosers, rfl⟩ := Option.map_eq_some_iff.mp h
      by_cases hs : s.isEmpty
      · have hempty : s = "" := String.isEmpty_iff.mp hs
        subst hempty
        simpa [Piece.lines] using hclosers
      · cases fresh <;> simp [Piece.lines, hs, openAfter_append, openAfter_indentation, hclosers]
    · cases h
  | newline =>
    cases h
    simp [Piece.lines, openAfter]
  | indent | dedent =>
    cases h
    simp [Piece.lines, openAfter]

/-- The brackets of the text are those of the pieces. -/
theorem openAfter_lines {strict : Bool} {p p' : Place} {ps : List Piece}
    (h : p.putAll strict ps = some p') (level : Nat) (fresh : Bool) :
    openAfter p.closers (String.join (Piece.lines level fresh ps)).toList = some p'.closers := by
  induction ps generalizing p level fresh with
  | nil =>
    cases h
    simp [Piece.lines, openAfter]
  | cons q ps ih =>
    obtain ⟨m, hm, hrest⟩ := Option.bind_eq_some_iff.mp h
    have hone := openAfter_lines_one hm level fresh
    rw [Piece.lines_cons, String.join_append, String.toList_append, openAfter_append, hone]
    exact ih hrest _ _

/-! ### Lines that are put -/

section

variable {level : Nat} {closers closers' : List Char} {before : List Char} {s : String}

theorem Reads.followsBraces (h : Reads ⟨level, closers, true⟩ before)
    (hs : fits ⟨level, closers, true⟩ s = true) :
    FollowsBraces before ((indentation level).toList ++ s.toList) := by
  obtain ⟨c, hc, hfits⟩ := (Option.any_eq_true _ _).mp hs
  obtain ⟨rest, hrest⟩ := List.head?_eq_some_iff.mp hc
  simp only [Bool.and_eq_true, bne_iff_ne, beq_iff_eq] at hfits
  have hcount := count_openAfter h.closers
  have hlevel : level = openBraces before - if c = '}' then 1 else 0 := by
    rw [openBraces]
    simp at hcount
    omega
  exact .inr ⟨c, rest, hfits.1, by rw [toList_indentation, hlevel, hrest]⟩

theorem Reads.start (h : Reads ⟨level, closers, true⟩ before)
    (hs : fits ⟨level, closers, true⟩ s = true) (hends : '\n' ∉ s.toList)
    (hclosers : openAfter closers s.toList = some closers') :
    Reads ⟨level, closers', false⟩ (before ++ ((indentation level).toList ++ s.toList)) := by
  have hne : s.toList ≠ [] := by
    intro hnil
    simp [fits, hnil] at hs
  have hline : '\n' ∉ (indentation level).toList ++ s.toList := by
    simp [toList_indentation, hends]
  refine ⟨?_, h.tidy.append hline, nofun, fun _ => ?_⟩
  · rw [openAfter_append, h.closers, Option.bind_some, openAfter_append, openAfter_indentation]
    exact hclosers
  · refine ⟨before, _, rfl, h.fresh rfl, hline, ?_, h.followsBraces hs⟩
    exact List.append_ne_nil_of_right_ne_nil _ hne

theorem Reads.goOn (h : Reads ⟨level, closers, false⟩ before) (hends : '\n' ∉ s.toList)
    (hclosers : openAfter closers s.toList = some closers') :
    Reads ⟨level, closers', false⟩ (before ++ s.toList) := by
  obtain ⟨front, line, hfront, hstart, hline, hne, hfollows⟩ := h.inside rfl
  refine ⟨?_, h.tidy.append hends, nofun, fun _ => ?_⟩
  · rw [openAfter_append, h.closers]
    exact hclosers
  · refine ⟨front, line ++ s.toList, by rw [hfront, List.append_assoc], hstart, ?_, ?_,
      hfollows.append hne _⟩
    · simp [hline, hends]
    · simp [hne]

theorem Reads.newline {fresh : Bool} (h : Reads ⟨level, closers, fresh⟩ before) :
    Reads ⟨level, closers, true⟩ (before ++ ['\n']) := by
  refine ⟨?_, ?_, fun _ => .inr List.getLast?_concat, nofun⟩
  · rw [openAfter_append, h.closers]
    simp [openAfter]
  · cases fresh with
    | true =>
      have htidy := h.tidy
      rw [← List.append_nil before] at htidy
      rw [← List.append_nil before]
      exact htidy.newline (h.fresh rfl) List.not_mem_nil (.inl rfl)
    | false =>
      obtain ⟨front, line, rfl, hstart, hline, -, hfollows⟩ := h.inside rfl
      exact h.tidy.newline hstart hline hfollows

end

/-- What a strict place takes leads from a tidy text to a tidy text. -/
theorem Reads.put {p p' : Place} {before : List Char} (hp : p.Reads before) {q : Piece}
    (h : p.put true q = some p') :
    p'.Reads (before ++ (String.join (Piece.lines p.level p.fresh [q])).toList) ∧
      (p'.level, p'.fresh) = Piece.moved (p.level, p.fresh) q := by
  obtain ⟨level, closers, fresh⟩ := p
  cases q with
  | text s =>
    simp only [Place.put] at h
    split at h
    · next hcond =>
      obtain ⟨closers', hclosers, rfl⟩ := Option.map_eq_some_iff.mp h
      simp only [Bool.true_and, Bool.and_eq_true, Bool.or_eq_true, List.all_eq_true, bne_iff_ne] at hcond
      have hends : '\n' ∉ s.toList := fun hmem => hcond.1 _ hmem rfl
      cases fresh with
      | true =>
        have hfits : fits ⟨level, closers, true⟩ s = true := by simpa using hcond.2
        have hne : s ≠ "" := by
          rintro rfl
          simp [fits] at hfits
        simpa [Piece.lines, Piece.moved, hne] using hp.start hfits hends hclosers
      | false =>
        have hgoes := hp.goOn hends hclosers
        by_cases hs : s = "" <;> simpa [Piece.lines, Piece.moved, hs] using hgoes
    · cases h
  | newline =>
    cases h
    exact ⟨by simpa [Piece.lines] using hp.newline, rfl⟩
  | indent | dedent =>
    cases h
    refine ⟨?_, rfl⟩
    simp only [Piece.lines, String.join_nil, String.toList_empty, List.append_nil]
    exact ⟨hp.closers, hp.tidy, hp.fresh, hp.inside⟩

theorem Reads.putAll {p p' : Place} {before : List Char} (hp : p.Reads before) {ps : List Piece}
    (h : p.putAll true ps = some p') :
    p'.Reads (before ++ (String.join (Piece.lines p.level p.fresh ps)).toList) := by
  induction ps generalizing p before with
  | nil =>
    cases h
    simpa [Piece.lines] using hp
  | cons q ps ih =>
    obtain ⟨m, hm, hrest⟩ := Option.bind_eq_some_iff.mp h
    obtain ⟨hone, hmoved⟩ := hp.put hm
    have hlater := ih hone hrest
    rw [Piece.lines_cons, ← hmoved, String.join_append, String.toList_append, ← List.append_assoc]
    exact hlater

/-! ### Texts that are put -/

/-- A strict place stands at the level of its braces. -/
def Level (strict : Bool) (level : Nat) (closers : List Char) : Prop :=
  strict = true → level = closers.count '}'

/-- A text on one line that can start it anywhere. -/
@[simp] def starts (s : String) : Bool :=
  s.toList.all (· != '\n') && s.toList.head?.any fun c => c != ' ' && c != '}'

@[simp] theorem level_loose (n : Nat) (closers : List Char) : Level false n closers := nofun

theorem level_nil (strict : Bool) : Level strict 0 [] := fun _ => rfl

@[simp] theorem level_paren {strict : Bool} {n : Nat} {closers : List Char} :
    Level strict n (')' :: closers) ↔ Level strict n closers := by
  simp [Level]

@[simp] theorem level_brace {strict : Bool} {n : Nat} {closers : List Char} :
    Level strict (n + 1) ('}' :: closers) ↔ Level strict n closers := by
  simp [Level]

section

variable {strict : Bool} {n : Nat} {closers : List Char} {fresh : Bool} {s : String} (ps qs : List Piece)

@[simp] theorem putAll_nil (p : Place) : p.putAll strict [] = some p := rfl

@[simp] theorem putAll_newline :
    putAll strict ⟨n, closers, fresh⟩ (.newline :: ps) = putAll strict ⟨n, closers, true⟩ ps := rfl

@[simp] theorem putAll_indent :
    putAll strict ⟨n, closers, fresh⟩ (.indent :: ps) = putAll strict ⟨n + 1, closers, fresh⟩ ps := rfl

@[simp] theorem putAll_dedent :
    putAll strict ⟨n + 1, closers, fresh⟩ (.dedent :: ps) = putAll strict ⟨n, closers, fresh⟩ ps := rfl

@[simp] theorem putAll_append (p : Place) :
    p.putAll strict (ps ++ qs) = (p.putAll strict ps).bind fun p => p.putAll strict qs := by
  induction ps generalizing p with
  | nil => rfl
  | cons q ps ih =>
    rw [List.cons_append, putAll, putAll]
    cases p.put strict q with
    | none => rfl
    | some p => exact ih p

/-- The pieces after a text, if there is a bracket for each that the text closes. -/
def resume (strict : Bool) (n : Nat) (ps : List Piece) : Option (List Char) → Option Place
  | none => none
  | some closers => putAll strict ⟨n, closers, false⟩ ps

@[simp] theorem resume_none : resume strict n ps none = none := rfl

@[simp] theorem resume_some :
    resume strict n ps (some closers) = putAll strict ⟨n, closers, false⟩ ps := rfl

/-- Inside a line any text goes on. -/
@[simp] theorem putAll_inside :
    putAll strict ⟨n, closers, false⟩ (.text s :: ps) =
      if s.toList.all (· != '\n') then resume strict n ps (openAfter closers s.toList)
      else none := by
  rw [putAll, put]
  cases s.toList.all (· != '\n') with
  | false => rfl
  | true => cases openAfter closers s.toList <;> simp

@[simp] theorem putAll_start (hs : starts s = true) (hn : Level strict n closers) :
    putAll strict ⟨n, closers, fresh⟩ (.text s :: ps) =
      resume strict n ps (openAfter closers s.toList) := by
  rw [starts, Bool.and_eq_true] at hs
  obtain ⟨c, hc, hstarts⟩ := (Option.any_eq_true _ _).mp hs.2
  rw [Bool.and_eq_true, bne_iff_ne, bne_iff_ne] at hstarts
  have hfits : (!(strict && fresh) || fits ⟨n, closers, fresh⟩ s) = true := by
    cases strict with
    | false => rfl
    | true => simp [fits, hc, hstarts.1, hstarts.2, hn rfl]
  rw [putAll, put, hs.1, hfits]
  cases openAfter closers s.toList <;> rfl

/-- The brace that ends a block stands one level further out. -/
@[simp] theorem putAll_close (hn : Level strict n closers) :
    putAll strict ⟨n, '}' :: closers, fresh⟩ (.text "\x7d" :: ps) =
      putAll strict ⟨n, closers, false⟩ ps := by
  have hfits : (!(strict && fresh) || fits ⟨n, '}' :: closers, fresh⟩ "\x7d") = true := by
    cases strict with
    | false => rfl
    | true => simp [fits, hn rfl]
  rw [putAll, put, hfits]
  simp [openAfter]

theorem ends_of_bare (hs : s.toList.all isBare = true) : s.toList.all (· != '\n') = true := by
  rw [List.all_eq_true] at hs ⊢
  intro c hc
  have hbare := hs c hc
  simp only [isBare, Bool.and_eq_true] at hbare
  exact hbare.2

theorem starts_of_isClean (hs : isClean true s = true) : starts s = true := by
  rw [isClean, Bool.and_eq_true] at hs
  obtain ⟨c, hc, hspace⟩ := (Option.any_eq_true _ _).mp hs.2
  have hbare : isBare c = true := List.all_eq_true.mp hs.1 c (List.mem_of_head? hc)
  simp only [isBare, Bool.and_eq_true] at hbare
  rw [starts, ends_of_bare hs.1, hc, Option.any_some, hspace, hbare.1.2]
  rfl

/-- A text without brackets changes none. -/
@[simp high] theorem putAll_loose (hs : isClean false s = true) :
    putAll strict ⟨n, closers, false⟩ (.text s :: ps) = putAll strict ⟨n, closers, false⟩ ps := by
  have hbare := isBare_of_isClean hs
  rw [putAll_inside, openAfter_bare hbare, ends_of_bare hbare]
  rfl

@[simp high] theorem putAll_word_inside (hs : isClean strict s = true) :
    putAll strict ⟨n, closers, false⟩ (.text s :: ps) = putAll strict ⟨n, closers, false⟩ ps := by
  refine putAll_loose ps ?_
  rw [isClean, isBare_of_isClean hs]
  rfl

@[simp high] theorem putAll_word (hs : isClean strict s = true) (hn : Level strict n closers) :
    putAll strict ⟨n, closers, fresh⟩ (.text s :: ps) = putAll strict ⟨n, closers, false⟩ ps := by
  cases strict with
  | false =>
    have hinside : putAll false ⟨n, closers, fresh⟩ (.text s :: ps) =
        putAll false ⟨n, closers, false⟩ (.text s :: ps) := rfl
    rw [hinside, putAll_loose ps hs]
  | true =>
    rw [putAll_start ps (starts_of_isClean hs) hn, openAfter_bare (isBare_of_isClean hs)]
    rfl

end

end Place

/-! ## Parts of lines -/

/-- Pieces that can start a line or go on with it, and leave the brackets as they are. -/
def Phrase (strict : Bool) (ps : List Piece) : Prop :=
  ∀ n closers fresh, Place.Level strict n closers →
    Place.putAll strict ⟨n, closers, fresh⟩ ps = some ⟨n, closers, false⟩

/-- Pieces that go on with a line. -/
def Continuation (strict : Bool) (ps : List Piece) : Prop :=
  ∀ n closers, Place.Level strict n closers →
    Place.putAll strict ⟨n, closers, false⟩ ps = some ⟨n, closers, false⟩

/-- Pieces that are whole lines. -/
def WholeLines (strict : Bool) (ps : List Piece) : Prop :=
  ∀ n closers, Place.Level strict n closers →
    Place.putAll strict ⟨n, closers, true⟩ ps = some ⟨n, closers, true⟩

section

variable {strict : Bool} {ps : List Piece}

theorem WholeLines.braced (h : WholeLines strict ps) : Phrase strict (Piece.braced ps) := by
  intro n closers fresh hn
  simp [Piece.braced, hn, openAfter, h (n + 1) ('}' :: closers)]

theorem Continuation.separated (between : String) (hbetween : isClean false between = true)
    {parts : List (List Piece)} (h : ∀ ps ∈ parts, Phrase strict ps) :
    Continuation strict (Piece.separated between parts) := by
  intro n closers hn
  fun_induction Piece.separated between parts with
  | case1 => rfl
  | case2 ps => exact h ps (List.mem_singleton_self ps) n closers false hn
  | case3 ps rest _ ih =>
    obtain ⟨hps, hrest⟩ := List.forall_mem_cons.mp h
    simp [hps n closers false hn, hbetween, ih hrest]

theorem WholeLines.append {qs : List Piece} (hps : WholeLines strict ps) (hqs : WholeLines strict qs) :
    WholeLines strict (ps ++ qs) := by
  intro n closers hn
  simp [hps n closers hn, hqs n closers hn]

theorem WholeLines.flatMap {α : Type} {xs : List α} {f : α → List Piece}
    (h : ∀ x ∈ xs, WholeLines strict (f x)) : WholeLines strict (xs.flatMap f) := by
  induction xs with
  | nil => exact fun _ _ _ => rfl
  | cons x xs ih =>
    obtain ⟨hx, hxs⟩ := List.forall_mem_cons.mp h
    exact hx.append (ih hxs)

end

end CeylonFromJava.Output
