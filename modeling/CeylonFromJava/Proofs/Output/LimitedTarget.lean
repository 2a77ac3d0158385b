import CeylonFromJava.Output.Writer
import CeylonFromJava.Proofs.Output.SinkBytes

/-! A target that fails holds a front part of the whole output.

Two writers run through the same units, one onto a target with a limit, the other onto a target
without. As long as everything fits they agree. From the first failure on the limited target is full,
so whatever the failed unit has left in its writer, nothing more gets through. -/
namespace CeylonFromJava.Output
set_option autoImplicit false

open Conversion (Config Scope)

/-! ## Units that write something -/

theorem exists_visible_typeDecl (t : Ceylon.TypeDecl) (k : Nat) :
    ∃ p ∈ t.pieces k, p.IsVisible := by
  refine ⟨.newline, ?_, trivial⟩
  cases t with
  | ofClass decl =>
    cases decl
    simp [Ceylon.TypeDecl.pieces]
  | ofInterface decl =>
    cases decl
    simp [Ceylon.TypeDecl.pieces]
  | ofEnumeration decl =>
    cases decl
    simp [Ceylon.TypeDecl.pieces]

theorem exists_visible_typeDecls (ts : List Ceylon.TypeDecl) (k : Nat) :
    (∃ p ∈ Ceylon.TypeDecl.piecesList ts k, p.IsVisible) ↔ ts ≠ [] := by
  match ts with
  | [] => simp [Ceylon.TypeDecl.piecesList]
  | [t] => simpa [Ceylon.TypeDecl.piecesList] using exists_visible_typeDecl t k
  | t :: t' :: ts =>
    obtain ⟨p, hp, hv⟩ := exists_visible_typeDecl t k
    refine ⟨fun _ => by simp, fun _ => ⟨p, ?_, hv⟩⟩
    simp [Ceylon.TypeDecl.piecesList, hp]

namespace Writer

/-- The bytes of a unit if it is written here. -/
def unitBytes (w : Writer) (config : Config) (u : Java.CompilationUnit) : ByteArray :=
  Piece.bytes w.sink.level w.sink.fresh ((Conversion.unit config w.scope u).pieces w.temps)

/-- Whether a unit has bytes does not depend on the writer. -/
theorem size_unitBytes_pos (w w' : Writer) (config : Config) (u : Java.CompilationUnit) :
    0 < (w.unitBytes config u).size ↔ 0 < (w'.unitBytes config u).size := by
  have hvisible : ∀ w : Writer, 0 < (w.unitBytes config u).size ↔
      (∃ p ∈ (Ceylon.ImportTable.ofImports u.imports).pieces, p.IsVisible) ∨ u.types ≠ [] := by
    intro w
    have htypes := exists_visible_typeDecls (Conversion.unit config w.scope u).types w.temps
    rw [unitBytes, Piece.size_bytes_pos, Ceylon.Source.pieces]
    simp only [List.mem_append, or_and_right, exists_or, htypes]
    simp [Conversion.unit, Conversion.unitUpTo]
  rw [hvisible w, hvisible w']

theorem target_writeUnit (w : Writer) (config : Config) (u : Java.CompilationUnit) :
    ((w.writeUnit config u).1.sink.target, (w.writeUnit config u).2) =
      w.sink.target.write (w.unitBytes config u) :=
  w.sink.target_putAll _

/-! ## Runs -/

/-- What a unit that fails half way leaves in its writer: frames and a count of temporary values. -/
abbrev Residue := Writer → Config → Java.CompilationUnit → Scope × Nat

/-- Writes a unit; the writer can be used again after a failure. -/
def step (residue : Residue) (w : Writer) (config : Config) (u : Java.CompilationUnit) :
    Writer × Option WriteError :=
  match w.writeUnit config u with
  | (w', none) => (w', none)
  | (w', some e) => (⟨w'.sink, (residue w config u).1, (residue w config u).2⟩, some e)

/-- The residue of a writer as it is: a unit that fails leaves what a whole one leaves. -/
def ownResidue : Residue := fun w config u =>
  ((w.writeUnit config u).1.scope, (w.writeUnit config u).1.temps)

theorem step_ownResidue (w : Writer) (config : Config) (u : Java.CompilationUnit) :
    w.step ownResidue config u = w.writeUnit config u := by
  rw [step, ownResidue]
  rcases w.writeUnit config u with ⟨w', _ | e⟩ <;> rfl

/-- Writes units one after another, also after a failure, and tells which of them have failed. -/
def writeAll (residue : Residue) (w : Writer) :
    List (Config × Java.CompilationUnit) → Writer × List (Option WriteError)
  | [] => (w, [])
  | (config, u) :: steps =>
    let (w', failed) := w.step residue config u
    let (last, failures) := w'.writeAll residue steps
    (last, failed :: failures)

def held (w : Writer) : ByteArray := w.sink.target.held

theorem writeAll_append (residue : Residue) (w : Writer)
    (before after : List (Config × Java.CompilationUnit)) :
    w.writeAll residue (before ++ after) =
      (((w.writeAll residue before).1.writeAll residue after).1,
        (w.writeAll residue before).2 ++ ((w.writeAll residue before).1.writeAll residue after).2) := by
  induction before generalizing w with
  | nil => rfl
  | cons s before ih => simp [writeAll, ih]

theorem length_writeAll (residue : Residue) (w : Writer)
    (steps : List (Config × Java.CompilationUnit)) :
    (w.writeAll residue steps).2.length = steps.length := by
  induction steps generalizing w with
  | nil => rfl
  | cons s steps ih => simp [writeAll, ih]

theorem target_step (residue : Residue) (w : Writer) (config : Config) (u : Java.CompilationUnit) :
    ((w.step residue config u).1.sink.target, (w.step residue config u).2) =
      w.sink.target.write (w.unitBytes config u) := by
  rw [← target_writeUnit, step]
  rcases w.writeUnit config u with ⟨w', _ | e⟩ <;> rfl

/-- A unit that does not fail leaves the residue out. -/
theorem step_eq_writeUnit {residue : Residue} {w : Writer} {config : Config}
    {u : Java.CompilationUnit} (h : (w.step residue config u).2 = none) :
    w.step residue config u = w.writeUnit config u := by
  rw [step] at h ⊢
  rcases hw : w.writeUnit config u with ⟨w', _ | e⟩
  · rfl
  · rw [hw] at h
    cases h

/-! ## Writers at the same place -/

/-- The writers stand at the same place, with the same frames and the same count. -/
structure SamePlace (w w' : Writer) : Prop where
  level : w.sink.level = w'.sink.level
  fresh : w.sink.fresh = w'.sink.fresh
  scope : w.scope = w'.scope
  temps : w.temps = w'.temps

theorem SamePlace.unitBytes_eq {w w' : Writer} (h : SamePlace w w') (config : Config)
    (u : Java.CompilationUnit) : w.unitBytes config u = w'.unitBytes config u := by
  rw [unitBytes, unitBytes, h.level, h.fresh, h.scope, h.temps]

theorem SamePlace.step {w w' : Writer} (h : SamePlace w w') {residue : Residue} {config : Config}
    {u : Java.CompilationUnit} (hw : (w.step residue config u).2 = none)
    (hw' : (w'.step residue config u).2 = none) :
    SamePlace (w.step residue config u).1 (w'.step residue config u).1 := by
  have hstep := step_eq_writeUnit hw
  have hstep' := step_eq_writeUnit hw'
  rw [hstep] at hw
  rw [hstep'] at hw'
  rw [hstep, hstep']
  have hpos := w.sink.position_putAll _ hw
  have hpos' := w'.sink.position_putAll _ hw'
  rw [h.level, h.fresh, h.scope, h.temps, ← hpos'] at hpos
  obtain ⟨hlevel, hfresh⟩ := Prod.mk.inj hpos
  refine ⟨?_, ?_, h.scope, ?_⟩
  · simpa [writeUnit, h.scope, h.temps] using hlevel
  · simpa [writeUnit, h.scope, h.temps] using hfresh
  · simp [writeUnit, h.scope, h.temps]

/-! ## Limited and unlimited -/

/-- The limited writer `w` has got through what fits of the output of `full`. While all of it fits the
writers agree. -/
structure Tracks (n : Nat) (refusal : Refusal) (flushFails : Bool) (w full : Writer) : Prop where
  target : w.sink.target = ⟨full.held.extract 0 n, some n, refusal, flushFails⟩
  unlimited : full.sink.target.limit = none
  agree : full.held.size ≤ n → SamePlace w full

theorem step_unlimited {full : Writer} (h : full.sink.target.limit = none) (residue : Residue)
    (config : Config) (u : Java.CompilationUnit) :
    (full.step residue config u).2 = none ∧
      (full.step residue config u).1.sink.target.limit = none ∧
      (full.step residue config u).1.held = full.held ++ full.unitBytes config u := by
  have ht := full.target_step residue config u
  simp only [Target.write, h] at ht
  obtain ⟨htarget, hfailed⟩ := Prod.mk.inj ht
  simp [held, htarget, hfailed]

section

variable {n : Nat} {refusal : Refusal} {flushFails : Bool} {w full : Writer}

/-- One more unit while everything fits: it fits as well, or the target is full now. -/
theorem Tracks.step_of_fits (h : Tracks n refusal flushFails w full) (hfits : full.held.size ≤ n)
    (residue : Residue) (config : Config) (u : Java.CompilationUnit) :
    Tracks n refusal flushFails (w.step residue config u).1 (full.step residue config u).1 ∧
      (w.step residue config u).2 =
        if n < (full.held ++ full.unitBytes config u).size then some refusal.error else none := by
  obtain ⟨hnone, hunlimited, hheld⟩ := step_unlimited h.unlimited residue config u
  have hplace := h.agree hfits
  have hall : full.held.extract 0 n = full.held := by
    rw [← Nat.max_eq_left hfits, ByteArray.extract_zero_max_size]
  have ht := w.target_step residue config u
  rw [h.target, hall, hplace.unitBytes_eq] at ht
  have hsize : (full.held ++ full.unitBytes config u).size =
      full.held.size + (full.unitBytes config u).size := ByteArray.size_append
  by_cases hu : (full.unitBytes config u).size ≤ n - full.held.size
  · rw [Target.write_of_le hu] at ht
    obtain ⟨htarget, hfailed⟩ := Prod.mk.inj ht
    have hmore : (full.held ++ full.unitBytes config u).size ≤ n := by omega
    refine ⟨⟨?_, hunlimited, fun _ => hplace.step hfailed hnone⟩, ?_⟩
    · rw [htarget, hheld, ← Nat.max_eq_left hmore, ByteArray.extract_zero_max_size]
    · rw [hfailed, if_neg (Nat.not_lt.mpr hmore)]
  · rw [Target.write_of_lt (Nat.not_le.mp hu)] at ht
    obtain ⟨htarget, hfailed⟩ := Prod.mk.inj ht
    have hmore : n < (full.held ++ full.unitBytes config u).size := by omega
    refine ⟨⟨?_, hunlimited, fun hle => ?_⟩, ?_⟩
    · rw [htarget, hheld, ByteArray.extract_append, hall, Nat.zero_sub]
    · rw [hheld] at hle
      exact absurd hmore (Nat.not_lt.mpr hle)
    · rw [hfailed, if_pos hmore]

/-- One more unit once the target is full. -/
theorem Tracks.step_of_full (h : Tracks n refusal flushFails w full) (hfull : n < full.held.size)
    (residue : Residue) (config : Config) (u : Java.CompilationUnit) :
    Tracks n refusal flushFails (w.step residue config u).1 (full.step residue config u).1 ∧
      (w.step residue config u).2 =
        if 0 < (full.unitBytes config u).size then some refusal.error else none := by
  obtain ⟨-, hunlimited, hheld⟩ := step_unlimited h.unlimited residue config u
  have ht := w.target_step residue config u
  have hn : (full.held.extract 0 n).size = n := by
    rw [ByteArray.size_extract]
    omega
  have hroom : n - (full.held.extract 0 n).size = 0 := by omega
  have hmore : n < (full.held ++ full.unitBytes config u).size := by
    rw [ByteArray.size_append]
    omega
  have hcut : (full.held ++ full.unitBytes config u).extract 0 n = full.held.extract 0 n := by
    have hz : n - full.held.size = 0 := by omega
    rw [ByteArray.extract_append, Nat.zero_sub, hz, ByteArray.extract_same, ByteArray.append_empty]
  have hagree : (full.step residue config u).1.held.size ≤ n →
      SamePlace (w.step residue config u).1 (full.step residue config u).1 := by
    intro hle
    rw [hheld] at hle
    exact absurd hmore (Nat.not_lt.mpr hle)
  -- the bytes may differ from those of the other writer, but there are some here if there are there
  have hpos := size_unitBytes_pos w full config u
  rw [h.target] at ht
  by_cases hu : 0 < (full.unitBytes config u).size
  · rw [Target.write_of_lt (by rw [hroom]; exact hpos.mpr hu), hroom, ByteArray.extract_same,
      ByteArray.append_empty] at ht
    obtain ⟨htarget, hfailed⟩ := Prod.mk.inj ht
    refine ⟨⟨?_, hunlimited, hagree⟩, ?_⟩
    · rw [htarget, hheld, hcut]
    · rw [hfailed, if_pos hu]
  · have hempty : w.unitBytes config u = .empty := by
      have hz : (w.unitBytes config u).size = 0 := by omega
      exact ByteArray.size_eq_zero_iff.mp hz
    rw [hempty, Target.write_empty] at ht
    obtain ⟨htarget, hfailed⟩ := Prod.mk.inj ht
    refine ⟨⟨?_, hunlimited, hagree⟩, ?_⟩
    · rw [htarget, hheld, hcut]
    · rw [hfailed, if_neg hu]

/-- One more unit: it fails if it has bytes and they end beyond the limit. -/
theorem Tracks.step (h : Tracks n refusal flushFails w full) (residue : Residue) (config : Config)
    (u : Java.CompilationUnit) :
    Tracks n refusal flushFails (w.step residue config u).1 (full.step residue config u).1 ∧
      (w.step residue config u).2 =
        if full.held.size < (full.step residue config u).1.held.size ∧
          n < (full.step residue config u).1.held.size then some refusal.error else none := by
  obtain ⟨-, -, hheld⟩ := step_unlimited h.unlimited residue config u
  have hsize : (full.held ++ full.unitBytes config u).size =
      full.held.size + (full.unitBytes config u).size := ByteArray.size_append
  rw [hheld]
  rcases Nat.lt_or_ge n full.held.size with hfull | hfits
  · obtain ⟨htracks, hfailed⟩ := h.step_of_full hfull residue config u
    refine ⟨htracks, ?_⟩
    rw [hfailed]
    by_cases hu : 0 < (full.unitBytes config u).size
    · rw [if_pos hu, if_pos (by omega)]
    · rw [if_neg hu, if_neg (by omega)]
  · obtain ⟨htracks, hfailed⟩ := h.step_of_fits hfits residue config u
    refine ⟨htracks, ?_⟩
    rw [hfailed]
    by_cases hmore : n < (full.held ++ full.unitBytes config u).size
    · rw [if_pos hmore, if_pos (by omega)]
    · rw [if_neg hmore, if_neg (by omega)]

theorem Tracks.writeAll (h : Tracks n refusal flushFails w full) (residue : Residue)
    (steps : List (Config × Java.CompilationUnit)) :
    Tracks n refusal flushFails (w.writeAll residue steps).1 (full.writeAll residue steps).1 := by
  induction steps generalizing w full with
  | nil => exact h
  | cons s steps ih => exact ih (h.step residue s.1 s.2).1

/-- What comes later is added to what a target without limit holds. -/
theorem held_writeAll_unlimited (h : full.sink.target.limit = none) (residue : Residue)
    (steps : List (Config × Java.CompilationUnit)) :
    ∃ more, (full.writeAll residue steps).1.held = full.held ++ more := by
  induction steps generalizing full with
  | nil => exact ⟨.empty, ByteArray.append_empty.symm⟩
  | cons s steps ih =>
    obtain ⟨-, hunlimited, hheld⟩ := step_unlimited h residue s.1 s.2
    obtain ⟨more, hmore⟩ := ih hunlimited
    refine ⟨full.unitBytes s.1 s.2 ++ more, ?_⟩
    rw [← ByteArray.append_assoc, ← hheld, ← hmore]
    rfl

/-- A failure means that the output is longer than the limit. -/
theorem Tracks.lt_size_of_failed (h : Tracks n refusal flushFails w full) {residue : Residue}
    {steps : List (Config × Java.CompilationUnit)} {e : WriteError}
    (hfailed : some e ∈ (w.writeAll residue steps).2) :
    n < (full.writeAll residue steps).1.held.size := by
  induction steps generalizing w full with
  | nil => cases hfailed
  | cons s steps ih =>
    obtain ⟨htracks, hstep⟩ := h.step residue s.1 s.2
    rcases List.mem_cons.mp hfailed with hnow | hlater
    · have hlt : n < (full.step residue s.1 s.2).1.held.size := by
        by_cases hc : full.held.size < (full.step residue s.1 s.2).1.held.size ∧
          n < (full.step residue s.1 s.2).1.held.size
        · exact hc.2
        · rw [if_neg hc] at hstep
          exact absurd (hnow.trans hstep) (by simp)
      obtain ⟨more, hmore⟩ := held_writeAll_unlimited htracks.unlimited residue steps
      have hsize : ((full.step residue s.1 s.2).1.held ++ more).size =
          (full.step residue s.1 s.2).1.held.size + more.size := ByteArray.size_append
      show n < ((full.step residue s.1 s.2).1.writeAll residue steps).1.held.size
      rw [hmore]
      omega
    · exact ih htracks hlater

end

theorem tracks_onto (n : Nat) (refusal : Refusal) (flushFails : Bool) :
    Tracks n refusal flushFails (onto ⟨.empty, some n, refusal, flushFails⟩) (onto .unlimited) := by
  refine ⟨?_, rfl, fun _ => ⟨rfl, rfl, rfl, rfl⟩⟩
  have hempty : ByteArray.empty.extract 0 n = .empty := by
    rw [ByteArray.extract_eq_empty_iff]
    simp
  simp [onto, Sink.onto, held, Target.unlimited, hempty]

theorem extract_min_size (bytes : ByteArray) (n : Nat) :
    bytes.extract 0 (min n bytes.size) = bytes.extract 0 n := by
  rcases Nat.le_total n bytes.size with h | h
  · rw [Nat.min_eq_left h]
  · rw [Nat.min_eq_right h, ← Nat.max_eq_left h, ByteArray.extract_zero_max_size,
      ByteArray.extract_zero_size]

/-- Writing one unit is one write and a flush. -/
theorem convertInto_eq (target : Target) (config : Config) (u : Java.CompilationUnit) :
    convertInto target config u =
      match target.write ((onto target).unitBytes config u) with
      | (t, some e) => (t, some e)
      | (t, none) => (t, t.flush) := by
  have ht : _ = target.write ((onto target).unitBytes config u) :=
    target_writeUnit (onto target) config u
  rw [← ht, convertInto]
  rcases (onto target).writeUnit config u with ⟨w, _ | e⟩ <;> rfl

/-- It succeeds if the output fits and the target can be flushed. -/
theorem convertInto_eq_none_iff (n : Nat) (refusal : Refusal) (flushFails : Bool) (config : Config)
    (u : Java.CompilationUnit) :
    (convertInto ⟨.empty, some n, refusal, flushFails⟩ config u).2 = none ↔
      (convertInto .unlimited config u).1.held.size ≤ n ∧ flushFails = false := by
  have hwhole : (convertInto .unlimited config u).1.held = (onto .unlimited).unitBytes config u := by
    simp [convertInto_eq, Target.write, Target.unlimited]
  have hsame : (onto ⟨.empty, some n, refusal, flushFails⟩).unitBytes config u =
    (onto .unlimited).unitBytes config u := rfl
  rw [hwhole, convertInto_eq, hsame]
  by_cases hfits : ((onto .unlimited).unitBytes config u).size ≤ n
  · rw [Target.write_of_le (by simpa using hfits)]
    cases flushFails <;> simp [Target.flush, hfits]
  · rw [Target.write_of_lt (by simpa using hfits)]
    simp [hfits]

/-! ## Runs onto a limited target -/

/-- The target with a limit holds the front part of the whole output. A unit fails if it has output
that ends beyond the limit. After the first failure nothing is written any more. -/
theorem limited_target_holds_prefix (residue : Residue) (n : Nat) (refusal : Refusal)
    (flushFails : Bool) :
    let target : Target := ⟨.empty, some n, refusal, flushFails⟩
    let run := (onto target).writeAll residue
    let whole := fun steps => ((onto .unlimited).writeAll residue steps).1.held
    (∀ steps, (run steps).1.held = (whole steps).extract 0 (min n (whole steps).size)) ∧
    (∀ before config u after,
      (run (before ++ (config, u) :: after)).2[before.length]? =
        some (if (whole before).size < (whole (before ++ [(config, u)])).size ∧
          n < (whole (before ++ [(config, u)])).size then some refusal.error else none)) ∧
    (∀ before after e, some e ∈ (run before).2 →
      (run (before ++ after)).1.held = (run before).1.held) ∧
    (∀ config u, (convertInto target config u).2 = none ↔
      (convertInto .unlimited config u).1.held.size ≤ n ∧ flushFails = false) := by
  intro target run whole
  have htracks := fun steps => (tracks_onto n refusal flushFails).writeAll residue steps
  have hheld : ∀ steps, (run steps).1.held = (whole steps).extract 0 n := by
    intro steps
    have h := (htracks steps).target
    exact congrArg Target.held h
  refine ⟨?_, ?_, ?_, convertInto_eq_none_iff n refusal flushFails⟩
  · intro steps
    rw [hheld, extract_min_size]
  · intro before config u after
    have hstep := ((htracks before).step residue config u).2
    have hwhole : whole (before ++ [(config, u)]) =
        (((onto .unlimited).writeAll residue before).1.step residue config u).1.held := by
      simp only [whole, writeAll_append]
      rfl
    have hlength := length_writeAll residue (onto target) before
    simp only [run]
    rw [writeAll_append, ← hlength, List.getElem?_append_right (Nat.le_refl _), Nat.sub_self,
      hwhole]
    exact congrArg some hstep
  · intro before after e hfailed
    have hlt := (tracks_onto n refusal flushFails).lt_size_of_failed hfailed
    obtain ⟨more, hmore⟩ := held_writeAll_unlimited (htracks before).unlimited residue after
    have hwhole : whole (before ++ after) = whole before ++ more := by
      simp only [whole, writeAll_append]
      exact hmore
    have hz : n - (whole before).size = 0 := Nat.sub_eq_zero_of_le (Nat.le_of_lt hlt)
    rw [hheld, hheld, hwhole, ByteArray.extract_append, Nat.zero_sub, hz, ByteArray.extract_same,
      ByteArray.append_empty]

end Writer

end CeylonFromJava.Output
