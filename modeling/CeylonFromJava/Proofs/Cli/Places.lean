import CeylonFromJava.Cli.Disk

/-! Paths and the places they lead to.

A path that can be followed leads to a place that depends on its segments and the working directory
only, `resolve_eq_ok`. Its last name is the file name of the path, and a name joined to a directory leads
to the place of that name in the directory. Writing a file changes what is read at its place and nothing
else. -/
namespace CeylonFromJava.Cli
set_option autoImplicit false

/-! ## Segments -/

namespace Path

theorem segmentsOf_ne_nil (cs : List Char) : segmentsOf cs ≠ [] := by
  fun_induction segmentsOf cs <;> simp

theorem segmentsOf_append_slash (cs ds : List Char) :
    segmentsOf (cs ++ '/' :: ds) = segmentsOf cs ++ segmentsOf ds := by
  induction cs with
  | nil => simp [segmentsOf]
  | cons c cs ih =>
    rw [List.cons_append, segmentsOf, segmentsOf, ih]
    obtain ⟨s, ss, hs⟩ := List.exists_cons_of_ne_nil (segmentsOf_ne_nil cs)
    split <;> simp [hs]

theorem segmentsOf_of_not_mem {cs : List Char} (h : '/' ∉ cs) : segmentsOf cs = [cs] := by
  induction cs with
  | nil => rfl
  | cons c cs ih =>
    rw [List.mem_cons, not_or] at h
    rw [segmentsOf, if_neg (Ne.symm h.1), ih h.2]

theorem not_mem_of_mem_segmentsOf {cs s : List Char} (h : s ∈ segmentsOf cs) : '/' ∉ s := by
  fun_induction segmentsOf cs generalizing s with
  | case1 => simp_all
  | case2 cs ih => rcases List.mem_cons.mp h with rfl | h <;> simp_all
  | case3 c cs hc hnil ih => exact absurd hnil (segmentsOf_ne_nil cs)
  | case4 c cs hc s' ss hcs ih =>
    rcases List.mem_cons.mp h with rfl | h
    · have hs' := @ih s' (by simp [hcs])
      simp [Ne.symm hc, hs']
    · exact ih (by simp [hcs, h])

theorem segments_of_not_mem {name : String} (h : '/' ∉ name.toList) : segments name = [name] := by
  simp [segments, segmentsOf_of_not_mem h]

/-- The segments of a name in a directory: those of the directory, then the name. -/
theorem exists_segments_join (dir : String) : ∃ absolute front, ∀ name : String, '/' ∉ name.toList →
    isAbsolute (join dir name) = absolute ∧ segments (join dir name) = front ++ [name] := by
  unfold join
  split
  · next hnone =>
    refine ⟨false, [], fun name hname => ⟨?_, segments_of_not_mem hname⟩⟩
    cases hchars : name.toList with
    | nil => simp [isAbsolute, hchars]
    | cons c cs =>
      rw [hchars, List.mem_cons, not_or] at hname
      simpa [isAbsolute, hchars] using Ne.symm hname.1
  · next hslash =>
    obtain ⟨front, hfront⟩ := List.getLast?_eq_some_iff.mp hslash
    refine ⟨isAbsolute dir, (segmentsOf front).map String.ofList, fun name hname => ⟨?_, ?_⟩⟩
    · cases front <;> simp [isAbsolute, hfront]
    · simp [segments, hfront, segmentsOf_append_slash, segmentsOf_of_not_mem hname]
  · next hlast =>
    refine ⟨isAbsolute dir, segments dir, fun name hname => ⟨?_, ?_⟩⟩
    · cases hchars : dir.toList with
      | nil => simp [hchars] at hlast
      | cons c cs => simp [isAbsolute, hchars]
    · simp [segments, segmentsOf_append_slash, segmentsOf_of_not_mem hname]

/-! ## File names and stems -/

/-- Whether a segment leads on from where it is met. -/
def isStep (s : String) : Bool := s != "" && s != "."

theorem exists_components_eq (path : String) : ∃ front : List Component,
    (∀ s, .name s ∉ front) ∧
      components path = front ++ ((segments path).filter isStep).map Component.ofSegment := by
  refine ⟨_, fun s => ?_, rfl⟩
  split
  · simp
  · split <;> simp

theorem fileName?_eq_some {path name : String} (h : fileName? path = some name) :
    ((segments path).filter isStep).getLast? = some name ∧ name ≠ ".." := by
  obtain ⟨front, hfront, hcomponents⟩ := exists_components_eq path
  unfold fileName? at h
  split at h
  · next s hlast =>
    cases h
    rw [hcomponents] at hlast
    rcases List.eq_nil_or_concat ((segments path).filter isStep) with hnil | ⟨init, last, hsteps⟩
    · rw [hnil, List.map_nil, List.append_nil] at hlast
      exact absurd (List.mem_of_getLast? hlast) (hfront name)
    · rw [List.concat_eq_append] at hsteps
      rw [hsteps, List.map_append, List.map_singleton, ← List.append_assoc, List.getLast?_concat,
        Component.ofSegment] at hlast
      rw [hsteps, List.getLast?_concat]
      split at hlast
      · cases hlast
      · next hne =>
        cases hlast
        exact ⟨rfl, hne⟩
  · cases h

theorem not_mem_of_fileName? {path name : String} (h : fileName? path = some name) :
    '/' ∉ name.toList ∧ name ≠ "" := by
  have hmem := List.mem_of_getLast? (fileName?_eq_some h).1
  obtain ⟨hsegment, hstep⟩ := List.mem_filter.mp hmem
  obtain ⟨cs, hcs, hname⟩ := List.mem_map.mp hsegment
  refine ⟨by simpa [← hname] using not_mem_of_mem_segmentsOf hcs, ?_⟩
  rintro rfl
  exact absurd hstep (by decide)

theorem stemOf_ne_nil {name : List Char} (h : name ≠ []) : stemOf name ≠ [] := by
  unfold stemOf
  split
  · exact h
  · exact h
  · next hne _ => simpa using hne

theorem mem_of_mem_stemOf {name : List Char} {c : Char} (h : c ∈ stemOf name) : c ∈ name := by
  unfold stemOf at h
  split at h
  · exact h
  · exact h
  · next dot before _ hdrop =>
    have hbefore : c ∈ name.reverse.dropWhile (· != '.') := by
      rw [hdrop]
      exact List.mem_cons_of_mem _ (List.mem_reverse.mp h)
    exact List.mem_reverse.mp (List.dropWhile_subset _ hbefore)

/-- An extension is taken off again. -/
theorem stemOf_append {stem extension : List Char} (hstem : stem ≠ []) (h : '.' ∉ extension) :
    stemOf (stem ++ '.' :: extension) = stem := by
  have hdrop : (stem ++ '.' :: extension).reverse.dropWhile (· != '.') = '.' :: stem.reverse := by
    rw [List.reverse_append, List.reverse_cons, List.append_assoc, List.dropWhile_append_of_pos]
    · simp
    · intro c hc
      have hne : c ≠ '.' := fun hc' => h (hc' ▸ List.mem_reverse.mp hc)
      simpa using hne
  obtain ⟨c, cs, hcs⟩ := List.exists_cons_of_ne_nil (List.reverse_ne_nil_iff.mpr hstem)
  rw [stemOf, hdrop, hcs]
  simp [← hcs]

end Path

/-! ## Places -/

/-- One segment on from a place. -/
def Place.step (place : Place) (segment : String) : Place :=
  if segment = "" || segment = "." then place
  else if segment = ".." then place.dropLast
  else place ++ [segment]

/-- Where a path leads from a working directory, whatever is there. -/
def placeOf (here : Place) (path : String) : Place :=
  (Path.segments path).foldl Place.step (if Path.isAbsolute path then [] else here)

theorem Place.step_eq_append {name : String} (h : Path.isStep name = true) (hparent : name ≠ "..")
    (place : Place) : Place.step place name = place ++ [name] := by
  simp_all [Place.step, Path.isStep]

theorem foldl_step_filter (segments : List String) (place : Place) :
    (segments.filter Path.isStep).foldl Place.step place = segments.foldl Place.step place := by
  induction segments generalizing place with
  | nil => rfl
  | cons s segments ih =>
    rw [List.filter_cons]
    split
    · exact ih _
    · next hstep =>
      have hstay : Place.step place s = place := by
        have hdot : s = "" ∨ s = "." := by
          simpa [Path.isStep, Classical.or_iff_not_imp_left] using hstep
        exact if_pos (by simpa using hdot)
      rw [ih, List.foldl_cons, hstay]

/-- The file name is the last name of the place. -/
theorem getLast?_placeOf {path name : String} (h : Path.fileName? path = some name) (here : Place) :
    (placeOf here path).getLast? = some name := by
  obtain ⟨hlast, hparent⟩ := Path.fileName?_eq_some h
  obtain ⟨front, hfront⟩ := List.getLast?_eq_some_iff.mp hlast
  have hstep : Path.isStep name = true := (List.mem_filter.mp (List.mem_of_getLast? hlast)).2
  rw [placeOf, ← foldl_step_filter, hfront, List.foldl_append, List.foldl_cons, List.foldl_nil,
    Place.step_eq_append hstep hparent, List.getLast?_concat]

/-- A name in a directory leads to that name in the place of the directory. -/
theorem exists_placeOf_join (here : Place) (dir : String) : ∃ place : Place, ∀ name : String,
    '/' ∉ name.toList → Path.isStep name = true → name ≠ ".." →
      placeOf here (Path.join dir name) = place ++ [name] := by
  obtain ⟨absolute, front, hjoin⟩ := Path.exists_segments_join dir
  refine ⟨front.foldl Place.step (if absolute then [] else here), fun name hname hstep hparent => ?_⟩
  obtain ⟨habsolute, hsegments⟩ := hjoin name hname
  rw [placeOf, habsolute, hsegments, List.foldl_append, List.foldl_cons, List.foldl_nil,
    Place.step_eq_append hstep hparent]

/-! ## Following paths -/

theorem bind_eq_ok {ε α β : Type} {result : Except ε α} {f : α → Except ε β} {b : β} :
    (result >>= f) = .ok b ↔ ∃ a, result = .ok a ∧ f a = .ok b := by
  cases result <;> simp [bind, Except.bind]

namespace Disk

variable {d d' : Disk} {path text : String}

theorem enter_eq_ok {place p : Place} {segment : String} :
    d.enter place segment = .ok p ↔ d.at? place = some .directory ∧ p = Place.step place segment := by
  unfold enter
  split
  · next h => simp [h]
  · next h => simp [h]
  · next h =>
    rw [Except.ok.injEq, eq_comm]
    simp [h, Place.step]

theorem foldlM_enter_eq_ok {segments : List String} {place p : Place}
    (h : segments.foldlM d.enter place = .ok p) : p = segments.foldl Place.step place := by
  induction segments generalizing place with
  | nil =>
    cases h
    rfl
  | cons s segments ih =>
    rw [List.foldlM_cons, bind_eq_ok] at h
    obtain ⟨place', hs, h⟩ := h
    rw [List.foldl_cons, ← (enter_eq_ok.mp hs).2]
    exact ih h

theorem resolve_eq_ok {p : Place} (h : d.resolve path = .ok p) : p = placeOf d.here path :=
  foldlM_enter_eq_ok h

/-! ## Files -/

theorem lookup_filter_ne {α β : Type} [BEq α] [LawfulBEq α] {k j : α} (h : j ≠ k)
    (entries : List (α × β)) : (entries.filter (·.1 != k)).lookup j = entries.lookup j := by
  induction entries with
  | nil => rfl
  | cons e entries ih =>
    obtain ⟨i, b⟩ := e
    by_cases hi : i = k
    · subst hi
      have hji : (j == i) = false := by simpa using h
      simp [List.lookup_cons, ih, hji]
    · simp [hi, List.lookup_cons, ih]

theorem at?_put {place : Place} (hplace : place ≠ []) (e : Entry) (p : Place) :
    (d.put place e).at? p = if p = place then some e else d.at? p := by
  cases p with
  | nil => simp [at?, Ne.symm hplace]
  | cons s p =>
    simp only [at?, put, List.lookup_cons]
    by_cases h : s :: p = place
    · simp [h]
    · have hbeq : (s :: p == place) = false := by simpa using h
      rw [hbeq, if_neg h]
      exact lookup_filter_ne h d.entries

section

variable {place : Place} (hplace : d.at? place ≠ some .directory)

include hplace

theorem ne_nil_of_at? : place ≠ [] := fun h => hplace (by rw [h, at?])

theorem enter_put {start p : Place} {segment : String} :
    (d.put place (.file text)).enter start segment = .ok p ↔ d.enter start segment = .ok p := by
  rw [enter_eq_ok, enter_eq_ok, at?_put (ne_nil_of_at? hplace)]
  split
  · next h => simp [h, hplace]
  · rfl

/-- A file in a place that is no directory leaves the paths that can be followed as they are. -/
theorem foldlM_enter_put {segments : List String} {start p : Place} :
    segments.foldlM (d.put place (.file text)).enter start = .ok p ↔
      segments.foldlM d.enter start = .ok p := by
  induction segments generalizing start with
  | nil => rfl
  | cons s segments ih =>
    simp only [List.foldlM_cons, bind_eq_ok, enter_put hplace, ih]

theorem resolve_put {p : Place} :
    (d.put place (.file text)).resolve path = .ok p ↔ d.resolve path = .ok p :=
  foldlM_enter_put hplace

end

theorem write_eq_ok : d.write path text = .ok d' ↔ trimmed path = Path.segments path ∧
    ∃ p, d.resolve path = .ok p ∧ d.at? p ≠ some .directory ∧ d' = d.put p (.file text) := by
  unfold write
  rw [bind_eq_ok]
  by_cases htrimmed : trimmed path = Path.segments path
  · rw [htrimmed]
    refine (exists_congr fun p => and_congr_right fun _ => ?_).trans (and_iff_right rfl).symm
    by_cases hdirectory : d.at? p = some .directory
    · simp [hdirectory]
    · simpa [hdirectory] using eq_comm
  · simp [htrimmed]

theorem exists_write_eq_ok : (∃ d', d.write path text = .ok d') ↔ trimmed path = Path.segments path ∧
    ∃ p, d.resolve path = .ok p ∧ d.at? p ≠ some .directory := by
  constructor
  · rintro ⟨d', h⟩
    obtain ⟨htrimmed, p, hp, hfile, -⟩ := write_eq_ok.mp h
    exact ⟨htrimmed, p, hp, hfile⟩
  · rintro ⟨htrimmed, p, hp, hfile⟩
    exact ⟨_, write_eq_ok.mpr ⟨htrimmed, p, hp, hfile, rfl⟩⟩

theorem read_eq_ok : d.read path = .ok text ↔
    ∃ p, d.resolve path = .ok p ∧ d.at? p = some (.file text) := by
  unfold read
  rw [bind_eq_ok]
  refine exists_congr fun p => and_congr_right fun _ => ?_
  split <;> simp_all

section

variable (h : d.write path text = .ok d')

include h

/-- What is read after a file was written: at its place its text, elsewhere what was read before. -/
theorem read_write {other text' : String} : d'.read other = .ok text' ↔
    if placeOf d.here other = placeOf d.here path then
      text' = text ∧ ∃ p, d.resolve other = .ok p
    else d.read other = .ok text' := by
  obtain ⟨-, p, hp, hfile, rfl⟩ := write_eq_ok.mp h
  have hplace := resolve_eq_ok hp
  simp only [read_eq_ok, resolve_put hfile, at?_put (ne_nil_of_at? hfile)]
  split
  · next hsame =>
    constructor
    · rintro ⟨q, hq, htext⟩
      rw [if_pos (by rw [resolve_eq_ok hq, hsame, hplace])] at htext
      cases htext
      exact ⟨rfl, q, hq⟩
    · rintro ⟨rfl, q, hq⟩
      refine ⟨q, hq, if_pos ?_⟩
      rw [resolve_eq_ok hq, hsame, hplace]
  · next hother =>
    refine exists_congr fun q => and_congr_right fun hq => ?_
    rw [if_neg (by rw [resolve_eq_ok hq, hplace]; exact hother)]

theorem read_write_same : d'.read path = .ok text := by
  obtain ⟨-, p, hp, -, -⟩ := write_eq_ok.mp h
  rw [read_write h, if_pos rfl]
  exact ⟨rfl, p, hp⟩

/-- A file that was written can be written again, with the same outcome as the first time. -/
theorem write_again {text' : String} {d'' : Disk} :
    d'.write path text' = .ok d'' ↔ d.write path text' = .ok d'' := by
  obtain ⟨-, p, hp, hfile, rfl⟩ := write_eq_ok.mp h
  have hresolve {q : Place} : d.resolve path = .ok q ↔ p = q := by
    rw [hp, Except.ok.injEq]
  have hput (e : Entry) : (d.put p (.file text)).put p e = d.put p e := by
    simp [put]
  simp [write_eq_ok, resolve_put hfile, hresolve, at?_put (ne_nil_of_at? hfile), hfile, hput]

/-- What can be written does not depend on the files written before. -/
theorem exists_write_iff {other text' : String} :
    (∃ d'', d'.write other text' = .ok d'') ↔ ∃ d'', d.write other text' = .ok d'' := by
  obtain ⟨-, p, -, hfile, rfl⟩ := write_eq_ok.mp h
  have hdirectory (q : Place) :
      (d.put p (.file text)).at? q = some .directory ↔ d.at? q = some .directory := by
    rw [at?_put (ne_nil_of_at? hfile)]
    split
    · next hq => simp [hq, hfile]
    · rfl
  simp only [exists_write_eq_ok, resolve_put hfile, ne_eq, hdirectory]

end

end Disk

end CeylonFromJava.Cli
