import CeylonFromJava.Proofs.Cli.Runs
import CeylonFromJava.Proofs.Java.Presentation
import Mathlib.Data.List.Nodup

/-! The files that a run into a directory leaves.

The name of an output file is the stem of its input, so two inputs share a file exactly when they
have the same stem. A run does not refuse such inputs: the file holds what the last of them converts
to. Inputs whose stems are different can be converted in every order, and all results are there. -/
namespace CeylonFromJava.Cli
set_option autoImplicit false

/-! ## Output paths -/

section

variable {dir a b p q stem : String}

theorem stem?_eq_some (h : Path.stem? a = some stem) : stem ≠ "" ∧ '/' ∉ stem.toList := by
  obtain ⟨name, hname, rfl⟩ := Option.map_eq_some_iff.mp h
  obtain ⟨hslash, hne⟩ := Path.not_mem_of_fileName? hname
  constructor
  · simpa using Path.stemOf_ne_nil (by simpa using hne)
  · simpa using fun hmem => hslash (Path.mem_of_mem_stemOf hmem)

/-- The place of an output file is made of the place of the directory and the stem. -/
theorem exists_placeOf_outputPath (here : Place) (dir : String) : ∃ place : Place, ∀ a p stem,
    outputPath dir a = .ok p → Path.stem? a = some stem →
      placeOf here p = place ++ [stem ++ ".ceylon"] := by
  obtain ⟨place, hplace⟩ := exists_placeOf_join here dir
  refine ⟨place, fun a p stem hp hstem => ?_⟩
  obtain ⟨-, stem', hstem', rfl⟩ := outputPath_eq_ok.mp hp
  cases hstem.symm.trans hstem'
  -- the extension alone is longer than the segments that are no names
  have hlong : 7 ≤ (stem ++ ".ceylon").length := by
    rw [String.length_append]
    exact Nat.le_add_left ..
  have hne (short : String) (hshort : short.length < 7) : stem ++ ".ceylon" ≠ short := by
    rintro rfl
    omega
  apply hplace
  · simpa using (stem?_eq_some hstem).2
  · simp [Path.isStep, hne "" (by decide), hne "." (by decide)]
  · exact hne ".." (by decide)

section

variable (hp : outputPath dir a = .ok p) (hq : outputPath dir b = .ok q)

include hp hq

theorem placeOf_eq_iff_stem (here : Place) :
    placeOf here p = placeOf here q ↔ Path.stem? a = Path.stem? b := by
  obtain ⟨place, hplace⟩ := exists_placeOf_outputPath here dir
  obtain ⟨-, s, hs, -⟩ := outputPath_eq_ok.mp hp
  obtain ⟨-, t, ht, -⟩ := outputPath_eq_ok.mp hq
  simp [hplace a p s hp hs, hplace b q t hq ht, hs, ht]

theorem outputPath_eq_iff_stem : p = q ↔ Path.stem? a = Path.stem? b := by
  constructor
  · rintro rfl
    exact (placeOf_eq_iff_stem hp hq []).mp rfl
  · intro hstem
    obtain ⟨-, s, hs, rfl⟩ := outputPath_eq_ok.mp hp
    obtain ⟨-, t, ht, rfl⟩ := outputPath_eq_ok.mp hq
    rw [hs, ht, Option.some.injEq] at hstem
    rw [hstem]

/-- An input that is the output file of another input has its stem. -/
theorem stem?_eq_of_placeOf {here : Place} (h : placeOf here b = placeOf here p) :
    Path.stem? b = Path.stem? a := by
  obtain ⟨place, hplace⟩ := exists_placeOf_outputPath here dir
  obtain ⟨-, s, hs, -⟩ := outputPath_eq_ok.mp hp
  obtain ⟨-, t, ht, -⟩ := outputPath_eq_ok.mp hq
  obtain ⟨name, hname, rfl⟩ := Option.map_eq_some_iff.mp ht
  have hlast := getLast?_placeOf hname here
  rw [h, hplace a p s hp hs, List.getLast?_concat, Option.some.injEq] at hlast
  have hnil : s.toList ≠ [] := by simpa using (stem?_eq_some hs).1
  have hstem : Path.stemOf name.toList = s.toList := by
    rw [← hlast, String.toList_append]
    exact Path.stemOf_append hnil (by decide)
  rw [ht, hs, hstem, String.ofList_toList]

end

end

/-! ## Converted texts

A text that a unit is read from opens with a bracket, after blanks. A converted text opens with a
word. -/

theorem head_of_spells {text : String} {s : Json.Scan} (h : Json.Spells text s)
    (hs : s.opens = true) :
    ∃ c, text.toList.head? = some c ∧ (Json.isBlank c = true ∨ c = '[' ∨ c = '\x7b') := by
  rw [Json.Spells] at h
  generalize text.toList = cs at h
  obtain @⟨_, blanks, w, _, hblanks, htext, -⟩ := h
  cases blanks with
  | cons c blanks => exact ⟨c, rfl, .inl (hblanks c List.mem_cons_self)⟩
  | nil =>
    cases htext with
    | literal scan => exact absurd hs (by simp [Json.Decoder.opens_of_scanScalar scan])
    | noItems | array => exact ⟨'[', rfl, .inr (.inl rfl)⟩
    | noMembers | object => exact ⟨'\x7b', rfl, .inr (.inr rfl)⟩

/-- The words that a source file can open with. -/
def openings : List String := ["import ", "shared ", "abstract ", "class ", "interface "]

/-- Pieces that open with one of these words. -/
def Opens (ps : List Output.Piece) : Prop := ∃ word ∈ openings, ∃ rest, ps = .text word :: rest

theorem Opens.append {ps : List Output.Piece} (h : Opens ps) (qs : List Output.Piece) :
    Opens (ps ++ qs) := by
  obtain ⟨word, hword, rest, rfl⟩ := h
  exact ⟨word, hword, rest ++ qs, rfl⟩

theorem Opens.wordIf {ps : List Output.Piece} (h : Opens ps) (wanted : Bool) {word : String}
    (hword : word ∈ openings) : Opens (Ceylon.wordIf wanted word ++ ps) := by
  cases wanted with
  | false => exact h
  | true => exact ⟨word, hword, ps, rfl⟩

theorem opens_typeDecl (t : Ceylon.TypeDecl) (k : Nat) : Opens (t.pieces k) := by
  have hshared : "shared " ∈ openings := by decide
  have habstract : "abstract " ∈ openings := by decide
  cases t with
  | ofClass decl =>
    cases decl
    simp only [Ceylon.TypeDecl.pieces, List.append_assoc]
    apply Opens.wordIf _ _ hshared
    apply Opens.wordIf _ _ habstract
    exact ⟨"class ", by decide, _, rfl⟩
  | ofInterface decl =>
    cases decl
    simp only [Ceylon.TypeDecl.pieces, List.append_assoc]
    apply Opens.wordIf _ _ hshared
    exact ⟨"interface ", by decide, _, rfl⟩
  | ofEnumeration decl =>
    cases decl
    simp only [Ceylon.TypeDecl.pieces, List.append_assoc]
    apply Opens.wordIf _ _ hshared
    exact ⟨"class ", by decide, _, rfl⟩

theorem opens_source (s : Ceylon.Source) (k : Nat) : s.pieces k = [] ∨ Opens (s.pieces k) := by
  obtain ⟨imports, types⟩ := s
  match imports, types with
  | entry :: imports, types => exact .inr ⟨"import ", by decide, _, rfl⟩
  | [], [] => exact .inl rfl
  | [], [t] => exact .inr (opens_typeDecl t k)
  | [], t :: t' :: ts => exact .inr ((opens_typeDecl t k).append _)

theorem toList_render_text {word : String} (hword : word ≠ "") (ps : List Output.Piece) :
    (Output.Piece.render (.text word :: ps)).toList =
      word.toList ++ (String.join (Output.Piece.lines 0 false ps)).toList := by
  simp [Output.Piece.render, Output.Piece.lines, hword, Output.indentation, String.toList_join]

theorem exists_head_of_openings {word : String} (h : word ∈ openings) : ∃ c cs,
    word.toList = c :: cs ∧ ¬ (Json.isBlank c = true ∨ c = '[' ∨ c = '\x7b') := by
  simp only [openings, List.mem_cons, List.not_mem_nil, or_false] at h
  rcases h with rfl | rfl | rfl | rfl | rfl
  all_goals exact ⟨_, _, rfl, by decide⟩

/-- Nothing that was converted can be read as a unit again. -/
theorem readUnit_text_ne (config : Conversion.Config) (u u' : Java.CompilationUnit) :
    Java.readUnit (Conversion.text config u) ≠ .ok u' := by
  intro h
  obtain ⟨s, hs, hok⟩ := Java.exists_spells_of_readUnit h
  obtain ⟨c, hc, hstart⟩ := head_of_spells hs (Json.Decoder.opens_of_record hok)
  rw [Conversion.text] at hc
  rcases opens_source (Conversion.unit config [] u) 0 with hnil | ⟨word, hword, ps, hps⟩
  · rw [hnil] at hc
    cases hc
  · obtain ⟨first, rest, hfirst, hother⟩ := exists_head_of_openings hword
    have hne : word ≠ "" := by
      rintro rfl
      cases hfirst
    rw [hps, toList_render_text hne, hfirst, List.cons_append, List.head?_cons,
      Option.some.injEq] at hc
    exact hother (hc ▸ hstart)

/-! ## Conversions -/

section

variable {config : Conversion.Config} {dir input other path text : String} {d d' : Disk}
  {u : Java.CompilationUnit}

/-- A conversion makes no new inputs. -/
theorem Converts.holds (h : Converts config dir input d d') (hother : d'.Holds other u) :
    d.Holds other u := by
  obtain ⟨path, v, -, -, hwrite⟩ := h
  obtain ⟨text, hread, hu⟩ := hother
  rw [Disk.read_write hwrite] at hread
  split at hread
  · obtain ⟨rfl, -⟩ := hread
    exact absurd hu (readUnit_text_ne config v u)
  · exact ⟨text, hread, hu⟩

theorem Converts.read_other (h : Converts config dir input d d')
    (hpath : outputPath dir other = .ok path) (hstem : Path.stem? input ≠ Path.stem? other) :
    d'.read path = .ok text ↔ d.read path = .ok text := by
  obtain ⟨mine, _, hmine, -, hwrite⟩ := h
  have hplace : placeOf d.here path ≠ placeOf d.here mine := fun hsame =>
    hstem ((placeOf_eq_iff_stem hmine hpath d.here).mp hsame.symm)
  rw [Disk.read_write hwrite, if_neg hplace]

/-- A conversion changes nothing for inputs with another stem. -/
theorem Converts.exists_other (h : Converts config dir input d d')
    (hstem : Path.stem? input ≠ Path.stem? other) :
    (∃ d'', Converts config dir other d' d'') ↔ ∃ d'', Converts config dir other d d'' := by
  obtain ⟨mine, _, hmine, -, hwrite⟩ := h
  have hholds {path : String} (hpath : outputPath dir other = .ok path)
      (u : Java.CompilationUnit) : d'.Holds other u ↔ d.Holds other u := by
    have hplace : placeOf d.here other ≠ placeOf d.here mine := fun hsame =>
      hstem (stem?_eq_of_placeOf hmine hpath hsame).symm
    simp only [Disk.Holds, Disk.read_write hwrite, if_neg hplace]
  constructor
  · rintro ⟨d'', path, u, hpath, hu, hd''⟩
    obtain ⟨e, he⟩ := (Disk.exists_write_iff hwrite).mp ⟨d'', hd''⟩
    exact ⟨e, path, u, hpath, (hholds hpath u).mp hu, he⟩
  · rintro ⟨d'', path, u, hpath, hu, hd''⟩
    obtain ⟨e, he⟩ := (Disk.exists_write_iff hwrite).mpr ⟨d'', hd''⟩
    exact ⟨e, path, u, hpath, (hholds hpath u).mpr hu, he⟩

end

/-! ## Whole runs -/

section

variable {config : Conversion.Config} {dir path text : String} {inputs : List String} {d d' : Disk}

/-- The last of some inputs with a given stem. -/
def lastWithStem (stem : Option String) (inputs : List String) : Option String :=
  (inputs.filter (Path.stem? · == stem)).getLast?

theorem Conversions.read_other {other : String} (h : Conversions config dir inputs d d')
    (hpath : outputPath dir other = .ok path)
    (hstem : ∀ input ∈ inputs, Path.stem? input ≠ Path.stem? other) :
    d'.read path = .ok text ↔ d.read path = .ok text := by
  induction inputs generalizing d with
  | nil =>
    cases h
    rfl
  | cons first rest ih =>
    rw [List.forall_mem_cons] at hstem
    obtain ⟨between, hfirst, hrest⟩ := h
    exact (ih hrest hstem.2).trans (hfirst.read_other hpath hstem.1)

theorem lastWithStem_cons (stem : Option String) (first : String) (rest : List String) :
    lastWithStem stem (first :: rest) =
      (lastWithStem stem rest).or (if Path.stem? first = stem then some first else none) := by
  unfold lastWithStem
  by_cases hfirst : Path.stem? first = stem
  · rw [List.filter_cons_of_pos (by simpa using hfirst), List.getLast?_cons, if_pos hfirst]
    cases (rest.filter (Path.stem? · == stem)).getLast? <;> rfl
  · rw [List.filter_cons_of_neg (by simpa using hfirst), if_neg hfirst, Option.or_none]

theorem lastWithStem_eq_none {stem : Option String} :
    lastWithStem stem inputs = none ↔ ∀ input ∈ inputs, Path.stem? input ≠ stem := by
  simp [lastWithStem]

theorem lastWithStem_eq_some {stem : Option String} {last : String}
    (h : lastWithStem stem inputs = some last) : last ∈ inputs ∧ Path.stem? last = stem := by
  simpa using List.mem_filter.mp (List.mem_of_getLast? h)

theorem exists_lastWithStem {input : String} (h : input ∈ inputs) :
    ∃ last, lastWithStem (Path.stem? input) inputs = some last := by
  rw [← Option.ne_none_iff_exists', Ne, lastWithStem_eq_none]
  exact fun hnone => hnone input h rfl

theorem lastWithStem_self (hstems : (inputs.map Path.stem?).Nodup) {input : String}
    (h : input ∈ inputs) : lastWithStem (Path.stem? input) inputs = some input := by
  obtain ⟨last, hlast⟩ := exists_lastWithStem h
  obtain ⟨hmem, hstem⟩ := lastWithStem_eq_some hlast
  rwa [List.inj_on_of_nodup_map hstems hmem h hstem] at hlast

theorem Conversions.exists_outputPath (h : Conversions config dir inputs d d') {input : String}
    (hmem : input ∈ inputs) : ∃ path, outputPath dir input = .ok path := by
  induction inputs generalizing d with
  | nil => cases hmem
  | cons first rest ih =>
    obtain ⟨between, ⟨path, _, hpath, -, -⟩, hrest⟩ := h
    rcases List.mem_cons.mp hmem with rfl | hmem
    · exact ⟨path, hpath⟩
    · exact ih hrest hmem

/-- A file is made from the last input with its stem, as that input was before the run. -/
theorem Conversions.read_last {input last : String} (h : Conversions config dir inputs d d')
    (hpath : outputPath dir input = .ok path)
    (hlast : lastWithStem (Path.stem? input) inputs = some last) :
    ∃ u, d.Holds last u ∧ d'.read path = .ok (Conversion.text config u) := by
  induction inputs generalizing d with
  | nil => cases hlast
  | cons first rest ih =>
    obtain ⟨between, hfirst, hrest⟩ := h
    rw [lastWithStem_cons] at hlast
    cases hlater : lastWithStem (Path.stem? input) rest with
    | some later =>
      -- the later input was there before, since the first conversion left no unit
      rw [hlater] at hlast
      obtain ⟨u, hu, hread⟩ := ih hrest (hlater.trans hlast)
      exact ⟨u, hfirst.holds hu, hread⟩
    | none =>
      rw [hlater, Option.none_or, Option.ite_none_right_eq_some] at hlast
      obtain ⟨hstem, ⟨⟩⟩ := hlast
      -- the file is written now and then left alone
      obtain ⟨mine, u, hmine, hu, hwrite⟩ := hfirst
      obtain rfl : mine = path := (outputPath_eq_iff_stem hmine hpath).mpr hstem
      refine ⟨u, hu, ?_⟩
      rw [hrest.read_other hpath (lastWithStem_eq_none.mp hlater)]
      exact Disk.read_write_same hwrite

/-- Inputs with different stems can be converted one after the other exactly when each of them can
be converted alone. -/
theorem exists_conversions_iff (hstems : (inputs.map Path.stem?).Nodup) :
    (∃ d', Conversions config dir inputs d d') ↔
      ∀ input ∈ inputs, ∃ d', Converts config dir input d d' := by
  induction inputs generalizing d with
  | nil => simp [Conversions]
  | cons first rest ih =>
    rw [List.map_cons, List.nodup_cons] at hstems
    have hother (input : String) (hmem : input ∈ rest) :
        Path.stem? first ≠ Path.stem? input := fun hsame =>
      hstems.1 (hsame ▸ List.mem_map_of_mem hmem)
    rw [List.forall_mem_cons]
    constructor
    · rintro ⟨d', between, hfirst, hrest⟩
      refine ⟨⟨between, hfirst⟩, fun input hmem => ?_⟩
      exact (hfirst.exists_other (hother input hmem)).mp ((ih hstems.2).mp ⟨d', hrest⟩ input hmem)
    · rintro ⟨⟨between, hfirst⟩, hrest⟩
      obtain ⟨d', hd'⟩ := (ih hstems.2).mpr fun input hmem =>
        (hfirst.exists_other (hother input hmem)).mpr (hrest input hmem)
      exact ⟨d', between, hfirst, hd'⟩

end

/-- Two inputs go to one file exactly when their stems are the same. After a run into a directory
each output file holds what the last input with its stem converts to. If the stems of all inputs are
different, the inputs can be converted in every order, and then all results are there. -/
theorem converted_files_go_by_stem (config : Conversion.Config) (dir : String) :
    (∀ a b p q, outputPath dir a = .ok p → outputPath dir b = .ok q →
      (p = q ↔ Path.stem? a = Path.stem? b)) ∧
    ∀ inputs machine machine',
      Completes (convert config inputs (.directory dir)) machine () machine' →
      ∃ made, machine.disk.makeDirectories dir = .ok made ∧
        (∀ input ∈ inputs, ∃ path last u, outputPath dir input = .ok path ∧
          lastWithStem (Path.stem? input) inputs = some last ∧ made.Holds last u ∧
          machine'.disk.read path = .ok (Conversion.text config u)) ∧
        ((inputs.map Path.stem?).Nodup → ∀ order, order.Perm inputs → ∃ after,
          Completes (convert config order (.directory dir)) machine () after ∧
          ∀ input ∈ inputs, ∃ path u, outputPath dir input = .ok path ∧ made.Holds input u ∧
            after.disk.read path = .ok (Conversion.text config u)) := by
  refine ⟨fun a b p q hp hq => outputPath_eq_iff_stem hp hq, ?_⟩
  intro inputs machine machine' hrun
  obtain ⟨made, d, hmade, hconversions, rfl⟩ := completes_convert.mp hrun
  refine ⟨made, hmade, fun input hmem => ?_, fun hstems order horder => ?_⟩
  · obtain ⟨path, hpath⟩ := hconversions.exists_outputPath hmem
    obtain ⟨last, hlast⟩ := exists_lastWithStem hmem
    obtain ⟨u, hu, hread⟩ := hconversions.read_last hpath hlast
    exact ⟨path, last, u, hpath, hlast, hu, hread⟩
  · have hstems' : (order.map Path.stem?).Nodup := (horder.map Path.stem?).nodup_iff.mpr hstems
    have halone := (exists_conversions_iff hstems).mp ⟨d, hconversions⟩
    obtain ⟨after, hafter⟩ := (exists_conversions_iff hstems').mpr fun input hmem =>
      halone input (horder.mem_iff.mp hmem)
    refine ⟨{ machine with disk := after },
      completes_convert.mpr ⟨made, after, hmade, hafter, rfl⟩, fun input hmem => ?_⟩
    have hmem' := horder.mem_iff.mpr hmem
    obtain ⟨path, hpath⟩ := hafter.exists_outputPath hmem'
    obtain ⟨u, hu, hread⟩ := hafter.read_last hpath (lastWithStem_self hstems' hmem')
    exact ⟨path, u, hpath, hu, hread⟩

/-- A machine with two units in two directories. -/
def twoUnits (second : String) : Machine :=
  ⟨.ofFiles ["w"]
    [("a/Main.json", "\x7b\"types\": [\x7b\"class\": \x7b\"name\": \"A\"\x7d\x7d]\x7d"),
      (second, "\x7b\"types\": [\x7b\"class\": \x7b\"name\": \"B\"\x7d\x7d]\x7d")], "", ""⟩

theorem converted_files_go_by_stem_two :
    (outputPath "out" "a/Main.json" = .ok "out/Main.ceylon" ∧
      outputPath "out" "b/Main.v2.json" = .ok "out/Main.v2.ceylon" ∧
      ("out/Main.ceylon" = "out/Main.v2.ceylon" ↔
        Path.stem? "a/Main.json" = Path.stem? "b/Main.v2.json")) ∧
    ∃ machine' made after,
      Completes (convert .default ["a/Main.json", "b/Main.v2.json"] (.directory "out"))
        (twoUnits "b/Main.v2.json") () machine' ∧
      machine'.disk.changedFrom (twoUnits "b/Main.v2.json").disk =
        [("out/Main.v2.ceylon", "class B() \x7b\n\x7d\n"),
          ("out/Main.ceylon", "class A() \x7b\n\x7d\n")] ∧
      (twoUnits "b/Main.v2.json").disk.makeDirectories "out" = .ok made ∧
      (∃ path last u, outputPath "out" "a/Main.json" = .ok path ∧
        lastWithStem (Path.stem? "a/Main.json") ["a/Main.json", "b/Main.v2.json"] = some last ∧
        made.Holds last u ∧ machine'.disk.read path = .ok (Conversion.text .default u)) ∧
      (["a/Main.json", "b/Main.v2.json"].map Path.stem?).Nodup ∧
      Completes (convert .default ["b/Main.v2.json", "a/Main.json"] (.directory "out"))
        (twoUnits "b/Main.v2.json") () after ∧
      ∃ path u, outputPath "out" "a/Main.json" = .ok path ∧ made.Holds "a/Main.json" u ∧
        after.disk.read path = .ok (Conversion.text .default u) := by
  obtain ⟨hpaths, hruns⟩ := converted_files_go_by_stem .default "out"
  have hstems : (["a/Main.json", "b/Main.v2.json"].map Path.stem?).Nodup := by decide +kernel
  obtain ⟨machine', hrun, hfiles⟩ : ∃ machine',
      Completes (convert .default ["a/Main.json", "b/Main.v2.json"] (.directory "out"))
        (twoUnits "b/Main.v2.json") () machine' ∧
      machine'.disk.changedFrom (twoUnits "b/Main.v2.json").disk =
        [("out/Main.v2.ceylon", "class B() \x7b\n\x7d\n"),
          ("out/Main.ceylon", "class A() \x7b\n\x7d\n")] := by
    apply exists_completes
    decide +kernel
  obtain ⟨made, hmade, hlast, horders⟩ := hruns _ _ _ hrun
  obtain ⟨after, hafter, hthere⟩ := horders hstems _ (.swap ..)
  exact ⟨⟨rfl, rfl, hpaths _ _ _ _ rfl rfl⟩, machine', made, after, hrun, hfiles, hmade,
    hlast _ (by decide), hstems, hafter, hthere _ (by decide)⟩

/-- Two inputs with one stem: the run completes, and of the two results only one is there, the one
that is written last. -/
theorem one_stem_loses_a_unit :
    outputPath "out" "a/Main.json" = .ok "out/Main.ceylon" ∧
    outputPath "out" "b/Main.json" = .ok "out/Main.ceylon" ∧
    (∃ machine', Completes (convert .default ["a/Main.json", "b/Main.json"] (.directory "out"))
        (twoUnits "b/Main.json") () machine' ∧
      machine'.disk.changedFrom (twoUnits "b/Main.json").disk =
        [("out/Main.ceylon", "class B() \x7b\n\x7d\n")]) ∧
    ∃ machine', Completes (convert .default ["b/Main.json", "a/Main.json"] (.directory "out"))
        (twoUnits "b/Main.json") () machine' ∧
      machine'.disk.changedFrom (twoUnits "b/Main.json").disk =
        [("out/Main.ceylon", "class A() \x7b\n\x7d\n")] := by
  refine ⟨rfl, rfl, ?_, ?_⟩
  · apply exists_completes
    decide +kernel
  · apply exists_completes
    decide +kernel

end CeylonFromJava.Cli
