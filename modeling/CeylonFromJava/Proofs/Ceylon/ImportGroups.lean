import CeylonFromJava.Ceylon.ImportTable
import Mathlib.Data.List.Induction

/-! Imports gathered by package, as a function of the whole list.

The table of a list of imports has the packages of the list, each once and in the order in which they
first come. The entry of a package is a wildcard if any import of it is one, wherever that stands, and
otherwise holds the names imported from it, each once and in the order in which they first come. -/
namespace CeylonFromJava.Ceylon
set_option autoImplicit false

open Java (Import ImportMember)

/-! ## First occurrences -/

section

variable {α : Type} [DecidableEq α]

theorem eraseDups_append_singleton (xs : List α) (x : α) :
    (xs ++ [x]).eraseDups = if x ∈ xs then xs.eraseDups else xs.eraseDups ++ [x] := by
  rw [List.eraseDups_append]
  split <;> simp [List.removeAll, List.eraseDups_cons, *]

theorem nodup_eraseDups (xs : List α) : xs.eraseDups.Nodup := by
  induction xs using List.reverseRecOn with
  | nil => simp
  | append_singleton xs x ih =>
    rw [eraseDups_append_singleton]
    split
    · exact ih
    · next h =>
      rw [List.nodup_append]
      refine ⟨ih, by simp, fun y hy z hz hyz => ?_⟩
      rw [hyz, List.mem_singleton.mp hz, List.mem_eraseDups] at hy
      exact h hy

theorem eraseDups_append_of_subset {xs ys : List α} (h : ys ⊆ xs) :
    (xs ++ ys).eraseDups = xs.eraseDups := by
  have hnone : ys.removeAll xs = [] := by
    rw [List.removeAll, List.filter_eq_nil_iff]
    intro y hy
    simp [h hy]
  rw [List.eraseDups_append, hnone, List.eraseDups_nil, List.append_nil]

end

/-! ## What a list of imports takes from a package -/

namespace ImportTable

/-- The names imported from a package one by one. -/
def namesFrom (package : String) : List Import → List String
  | [] => []
  | ⟨p, .single name⟩ :: is =>
    if p = package then name :: namesFrom package is else namesFrom package is
  | ⟨_, .wildcard⟩ :: is => namesFrom package is

/-- The entry of a package: its names as they first come, unless all are imported. -/
def entryOf (imports : List Import) (package : String) : ImportEntry :=
  if ⟨package, .wildcard⟩ ∈ imports then .wildcard
  else .members (namesFrom package imports).eraseDups

/-- The packages as they first come, with their entries. -/
def byPackage (imports : List Import) : ImportTable :=
  (imports.map (·.package)).eraseDups.map fun package => (package, entryOf imports package)

theorem namesFrom_append (package : String) (is js : List Import) :
    namesFrom package (is ++ js) = namesFrom package is ++ namesFrom package js := by
  fun_induction namesFrom package is with
  | case1 => rfl
  | case2 name is ih => simp [namesFrom, ih]
  | case3 p name is hp ih => simp [namesFrom, hp, ih]
  | case4 p is ih => simp [namesFrom, ih]

theorem mem_namesFrom {package name : String} {imports : List Import} :
    name ∈ namesFrom package imports ↔ ⟨package, .single name⟩ ∈ imports := by
  fun_induction namesFrom package imports with
  | case1 => simp
  | case2 name' is ih => simp [ih]
  | case3 p name' is hp ih => simp [ih, Ne.symm hp]
  | case4 p is ih => simp [ih]

theorem namesFrom_eq_nil {package : String} {imports : List Import}
    (h : package ∉ imports.map (·.package)) : namesFrom package imports = [] := by
  refine List.eq_nil_iff_forall_not_mem.mpr fun name hname => h ?_
  exact List.mem_map_of_mem (mem_namesFrom.mp hname)

/-! ## One import more -/

theorem entryOf_append_other {package : String} {i : Import} (h : i.package ≠ package)
    (imports : List Import) : entryOf (imports ++ [i]) package = entryOf imports package := by
  obtain ⟨p, member⟩ := i
  cases member <;> simp_all [entryOf, namesFrom_append, namesFrom, Ne.symm h]

theorem entryOf_append_same (imports : List Import) (i : Import) :
    entryOf (imports ++ [i]) i.package =
      if i.package ∈ imports.map (·.package) then (entryOf imports i.package).add i.member
      else .ofMember i.member := by
  obtain ⟨package, member⟩ := i
  cases member with
  | wildcard => split <;> simp [entryOf, ImportEntry.add, ImportEntry.ofMember]
  | single name =>
    by_cases hwild : ⟨package, .wildcard⟩ ∈ imports
    · have hpackage : package ∈ imports.map (·.package) := List.mem_map_of_mem hwild
      simp [entryOf, hwild, hpackage, ImportEntry.add]
    · have hentry : entryOf (imports ++ [⟨package, .single name⟩]) package =
          .members (namesFrom package imports ++ [name]).eraseDups := by
        simp [entryOf, hwild, namesFrom_append, namesFrom]
      by_cases hpackage : package ∈ imports.map (·.package)
      · rw [hentry, eraseDups_append_singleton, if_pos hpackage, entryOf, if_neg hwild]
        simp only [ImportEntry.add, List.contains_eq_mem, List.mem_eraseDups, decide_eq_true_eq]
        split <;> rfl
      · rw [hentry, if_neg hpackage, namesFrom_eq_nil hpackage]
        simp [List.eraseDups_cons, ImportEntry.ofMember]

/-- Adding to a table with an entry for each of some packages. -/
theorem add_map {packages : List String} (h : packages.Nodup) (entry : String → ImportEntry)
    (i : Import) :
    add (packages.map fun package => (package, entry package)) i =
      if i.package ∈ packages then
        packages.map fun package =>
          (package, if package = i.package then (entry package).add i.member else entry package)
      else packages.map (fun package => (package, entry package)) ++
        [(i.package, .ofMember i.member)] := by
  induction packages with
  | nil => rfl
  | cons package packages ih =>
    obtain ⟨hnew, hrest⟩ := List.nodup_cons.mp h
    rw [List.map_cons, add]
    split
    · next heq =>
      subst heq
      rw [if_pos List.mem_cons_self, List.map_cons, if_pos rfl]
      congr 1
      refine List.map_congr_left fun p hp => ?_
      have hother : p ≠ i.package := fun hpi => hnew (hpi ▸ hp)
      rw [if_neg hother]
    · next hne =>
      rw [ih hrest]
      have hmem : i.package ∈ package :: packages ↔ i.package ∈ packages := by
        simp [Ne.symm hne]
      by_cases hin : i.package ∈ packages
      · simp [hmem, hin, hne]
      · simp [hmem, hin]

theorem add_byPackage (imports : List Import) (i : Import) :
    add (byPackage imports) i = byPackage (imports ++ [i]) := by
  rw [byPackage, add_map (nodup_eraseDups _), byPackage, List.map_append, List.map_singleton,
    eraseDups_append_singleton]
  simp only [List.mem_eraseDups]
  have hsame := entryOf_append_same imports i
  split
  · next hold =>
    rw [if_pos hold] at hsame
    refine List.map_congr_left fun package _ => ?_
    split
    · next heq => rw [heq, hsame]
    · next hne => rw [entryOf_append_other (Ne.symm hne)]
  · next hnew =>
    rw [if_neg hnew] at hsame
    rw [List.map_append, List.map_singleton, hsame]
    congr 1
    refine List.map_congr_left fun package hpackage => ?_
    have hne : i.package ≠ package := by
      rintro rfl
      exact hnew (List.mem_eraseDups.mp hpackage)
    rw [entryOf_append_other hne]

/-! ## Whole lists -/

theorem foldl_add (imports further : List Import) :
    further.foldl add (byPackage imports) = byPackage (imports ++ further) := by
  induction further generalizing imports with
  | nil => simp
  | cons i further ih => rw [List.foldl_cons, add_byPackage, ih, List.append_assoc]; rfl

theorem ofImports_eq (imports : List Import) : ofImports imports = byPackage imports :=
  foldl_add [] imports

theorem map_fst_byPackage (imports : List Import) :
    (byPackage imports).map (·.1) = (imports.map (·.package)).eraseDups := by
  simp [byPackage, Function.comp_def]

theorem mem_byPackage {imports : List Import} {package : String} {entry : ImportEntry} :
    (package, entry) ∈ byPackage imports ↔
      package ∈ imports.map (·.package) ∧ entry = entryOf imports package := by
  simp only [byPackage, List.mem_map, List.mem_eraseDups, Prod.mk.injEq]
  constructor
  · rintro ⟨p, hp, rfl, rfl⟩
    exact ⟨hp, rfl⟩
  · rintro ⟨hp, rfl⟩
    exact ⟨package, hp, rfl, rfl⟩

theorem get?_map (packages : List String) (entry : String → ImportEntry) (package : String) :
    get? (packages.map fun p => (p, entry p)) package =
      if package ∈ packages then some (entry package) else none := by
  induction packages with
  | nil => rfl
  | cons p packages ih =>
    unfold get? at ih ⊢
    by_cases h : p = package
    · simp [h]
    · rw [List.map_cons, List.find?_cons_of_neg (by simpa using h), ih]
      simp [Ne.symm h]

theorem get?_byPackage (imports : List Import) (package : String) :
    get? (byPackage imports) package =
      if package ∈ imports.map (·.package) then some (entryOf imports package) else none := by
  rw [byPackage, get?_map]
  simp only [List.mem_eraseDups]

theorem entryOf_members {imports : List Import} {package : String} {names : List String}
    (hpackage : package ∈ imports.map (·.package)) (h : entryOf imports package = .members names) :
    names ≠ [] ∧ names.Nodup := by
  unfold entryOf at h
  split at h
  · cases h
  · next hwild =>
    cases h
    refine ⟨?_, nodup_eraseDups _⟩
    obtain ⟨⟨p, member⟩, hi, rfl⟩ := List.mem_map.mp hpackage
    cases member with
    | wildcard => exact absurd hi hwild
    | single name =>
      exact List.ne_nil_of_mem (List.mem_eraseDups.mpr (mem_namesFrom.mpr hi))

/-- Imports that are in the list already change nothing. -/
theorem byPackage_append {imports further : List Import} (h : further ⊆ imports) :
    byPackage (imports ++ further) = byPackage imports := by
  have hpackages : (imports ++ further).map (·.package) =
      imports.map (·.package) ++ further.map (·.package) := List.map_append
  have hentry (package : String) : entryOf (imports ++ further) package = entryOf imports package := by
    have hnames : namesFrom package further ⊆ namesFrom package imports := fun name hname =>
      mem_namesFrom.mpr (h (mem_namesFrom.mp hname))
    have hwild : ⟨package, .wildcard⟩ ∈ imports ++ further ↔ ⟨package, .wildcard⟩ ∈ imports :=
      ⟨fun hi => (List.mem_append.mp hi).elim id fun hi => h hi, List.mem_append_left _⟩
    simp only [entryOf, hwild, namesFrom_append, eraseDups_append_of_subset hnames]
  rw [byPackage, hpackages, eraseDups_append_of_subset (List.map_subset _ h)]
  simp only [hentry, byPackage]

/-- The table of a list of imports: which packages it lists, with which entries, how they are looked up,
and that imports which are in the list already add nothing. -/
theorem ofImports_groups (imports : List Import) :
    let table := ofImports imports
    let packages := imports.map (·.package)
    table.map (·.1) = packages.eraseDups ∧ (table.map (·.1)).Nodup ∧
      (∀ package entry, (package, entry) ∈ table ↔ package ∈ packages ∧
        entry = if ⟨package, .wildcard⟩ ∈ imports then .wildcard
          else .members (namesFrom package imports).eraseDups) ∧
      (∀ package names, (package, .members names) ∈ table → names ≠ [] ∧ names.Nodup) ∧
      (∀ package entry, table.get? package = some entry ↔ (package, entry) ∈ table) ∧
      (∀ package, table.get? package = none ↔ package ∉ packages) ∧
      (∀ further : List Import, further ⊆ imports → ofImports (imports ++ further) = table) := by
  intro table packages
  have htable : table = byPackage imports := ofImports_eq imports
  have hkeys : table.map (·.1) = packages.eraseDups := by rw [htable, map_fst_byPackage]
  have hget (package : String) : table.get? package =
      if package ∈ packages then some (entryOf imports package) else none := by
    rw [htable, get?_byPackage]
  have hmem (package : String) (entry : ImportEntry) :
      (package, entry) ∈ table ↔ package ∈ packages ∧ entry = entryOf imports package := by
    rw [htable, mem_byPackage]
  refine ⟨hkeys, hkeys ▸ nodup_eraseDups packages, hmem, ?_, ?_, ?_, ?_⟩
  · intro package names h
    obtain ⟨hpackage, hentry⟩ := (hmem package _).mp h
    exact entryOf_members hpackage hentry.symm
  · intro package entry
    rw [hget, hmem]
    split
    · next h => simp [h, eq_comm]
    · next h => simp [h]
  · intro package
    rw [hget]
    split
    · next h => simp [h]
    · next h => simp [h]
  · intro further h
    rw [ofImports_eq, byPackage_append h, htable]

/-- Three packages: one with a wildcard between its names, one with a wildcard only, one with a name
that comes twice. Two of the imports once more change nothing. -/
theorem ofImports_groups_interleaved :
    let imports : List Import := [⟨"p", .single "A"⟩, ⟨"q", .wildcard⟩, ⟨"r", .single "C"⟩,
      ⟨"p", .wildcard⟩, ⟨"r", .single "B"⟩, ⟨"p", .single "D"⟩, ⟨"r", .single "C"⟩]
    let table := ofImports imports
    table = [("p", .wildcard), ("q", .wildcard), ("r", .members ["C", "B"])] ∧
      ("r", .members ["C", "B"]) ∈ table ∧ (["C", "B"] ≠ [] ∧ ["C", "B"].Nodup) ∧
      table.get? "r" = some (.members ["C", "B"]) ∧ table.get? "s" = none ∧
      [⟨"r", .single "B"⟩, ⟨"p", .single "A"⟩] ⊆ imports ∧
      ofImports (imports ++ [⟨"r", .single "B"⟩, ⟨"p", .single "A"⟩]) = table := by
  intro imports table
  obtain ⟨-, -, hentries, hnames, hlisted, habsent, hagain⟩ := ofImports_groups imports
  have hmembers : ("r", .members ["C", "B"]) ∈ table := (hentries _ _).mpr (by decide)
  have hfurther : [⟨"r", .single "B"⟩, ⟨"p", .single "A"⟩] ⊆ imports := by decide
  exact ⟨by decide, hmembers, hnames _ _ hmembers, (hlisted _ _).mpr hmembers,
    (habsent _).mpr (by decide), hfurther, hagain _ hfurther⟩

end ImportTable

end CeylonFromJava.Ceylon
