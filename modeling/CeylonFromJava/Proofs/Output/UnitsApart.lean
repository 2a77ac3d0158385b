import CeylonFromJava.Proofs.Ceylon.LayoutNesting
import CeylonFromJava.Proofs.Conversion.TracedTrees
import CeylonFromJava.Proofs.Output.LimitedTarget

/-! A unit leaves its writer where it found it.

The pieces of a unit are nested whole lines, so a unit that does not fail ends at the start of a line
and at the level it started from. Each frame that is entered along the unit is left again, so the
frames are the same as before; only the count of temporary values has moved on. So units written one
after another do not see each other, but for that count. -/
namespace CeylonFromJava.Output
set_option autoImplicit false

open Conversion (Config Scope)

namespace Writer

/-! ## One unit -/

/-- The writer `w'` stands at the start of a line where `w` stands, and has taken `n` more numbers. -/
structure Restored (w w' : Writer) (n : Nat) : Prop where
  fresh : w'.sink.fresh = true
  level : w'.sink.level = w.sink.level
  scope : w'.scope = w.scope
  temps : w'.temps = w.temps + n

section

variable {w : Writer} {config : Config} {u : Java.CompilationUnit}

theorem restored_writeUnit (hfresh : w.sink.fresh = true) (h : (w.writeUnit config u).2 = none) :
    Restored w (w.writeUnit config u).1 (Conversion.unit config w.scope u).temps := by
  have hposition := w.sink.position_putAll _ h
  have hnested := (Conversion.unit config w.scope u).nested_pieces w.temps
  have hends := (Conversion.unit config w.scope u).endsLine_pieces w.temps
  rw [hfresh, hnested.foldl_moved hends] at hposition
  obtain ⟨hlevel, hfresh'⟩ := Prod.mk.inj hposition
  exact ⟨hfresh', hlevel, rfl, rfl⟩

/-- The frames entered and left along a unit. No frame is left that was not entered, those of the
writer remain, and the local values are met under the frames that they are written under. -/
theorem run_unitEvents (w : Writer) (config : Config) (u : Java.CompilationUnit) :
    (Conversion.Visit.mk w.scope []).run
        (Conversion.Env.upTo config (fun _ _ => []) (Conversion.budget w.scope u))
        (Conversion.unitEvents u) =
      some ⟨(w.writeUnit config u).1.scope, (Conversion.unit config w.scope u).locals⟩ :=
  Conversion.traced_unit config w.scope u []

/-- A `dedent` that is reached has a level to take back. -/
theorem level_pos_of_dedent {before after : List Piece}
    (hpieces : (Conversion.unit config w.scope u).pieces w.temps = before ++ .dedent :: after)
    (h : (w.sink.putAll before).2 = none) : 0 < (w.sink.putAll before).1.level := by
  have hposition := congrArg Prod.fst (w.sink.position_putAll before h)
  have hnested := (Conversion.unit config w.scope u).nested_pieces w.temps
  rw [hpieces] at hnested
  rw [show (w.sink.putAll before).1.level = _ from hposition]
  exact hnested.level_pos_of_dedent w.sink.level w.sink.fresh

theorem held_writeUnit (h : (w.writeUnit config u).2 = none) :
    (w.writeUnit config u).1.held = w.held ++ w.unitBytes config u := by
  obtain ⟨htarget, hfailed⟩ := Prod.mk.inj (w.target_writeUnit config u)
  rw [held, htarget]
  exact Target.held_write_of_taken (hfailed ▸ h)

end

/-! ## Units one after another -/

/-- A writer of its own that goes on with the number `k`. -/
def numberedFrom (k : Nat) : Writer := ⟨Sink.onto .unlimited, [], k⟩

/-- What each unit is written as by a writer of its own, which goes on with the numbers of the units
before. -/
def apart : Nat → List (Config × Java.CompilationUnit) → ByteArray
  | _, [] => .empty
  | k, (config, u) :: steps =>
    ((numberedFrom k).writeUnit config u).1.held ++
      apart (k + (Conversion.unit config [] u).temps) steps

theorem held_writeUnit_numberedFrom (k : Nat) (config : Config) (u : Java.CompilationUnit) :
    ((numberedFrom k).writeUnit config u).1.held = (numberedFrom k).unitBytes config u := by
  have hnone : ((numberedFrom k).step ownResidue config u).2 = none :=
    (step_unlimited rfl ownResidue config u).1
  rw [step_ownResidue] at hnone
  rw [held_writeUnit hnone]
  exact ByteArray.empty_append

/-- A run that does not fail writes each unit as a writer of its own would. -/
theorem held_writeAll_eq_apart {residue : Residue} {w : Writer}
    {steps : List (Config × Java.CompilationUnit)} (hfresh : w.sink.fresh = true)
    (hlevel : w.sink.level = 0) (hscope : w.scope = [])
    (h : ∀ failed ∈ (w.writeAll residue steps).2, failed = none) :
    (w.writeAll residue steps).1.held = w.held ++ apart w.temps steps := by
  induction steps generalizing w with
  | nil => exact ByteArray.append_empty.symm
  | cons s steps ih =>
    obtain ⟨config, u⟩ := s
    have hnow : (w.step residue config u).2 = none := h _ (List.mem_cons_self ..)
    have hstep := step_eq_writeUnit hnow
    rw [hstep] at hnow
    have hrestored := restored_writeUnit hfresh hnow
    have hplace : SamePlace w (numberedFrom w.temps) := ⟨hlevel, hfresh, hscope, rfl⟩
    have hlater := ih (w := (w.step residue config u).1) (by rw [hstep, hrestored.fresh])
      (by rw [hstep, hrestored.level, hlevel]) (by rw [hstep, hrestored.scope, hscope])
      fun failed hmem => h failed (List.mem_cons_of_mem _ hmem)
    show ((w.step residue config u).1.writeAll residue steps).1.held = _
    rw [hlater, hstep, held_writeUnit hnow, hrestored.temps, hscope, hplace.unitBytes_eq,
      ByteArray.append_assoc, apart, held_writeUnit_numberedFrom]

theorem writeAll_unlimited {residue : Residue} {w : Writer}
    {steps : List (Config × Java.CompilationUnit)} (h : w.sink.target.limit = none) :
    ∀ failed ∈ (w.writeAll residue steps).2, failed = none := by
  induction steps generalizing w with
  | nil => exact fun _ hmem => absurd hmem (List.not_mem_nil)
  | cons s steps ih =>
    obtain ⟨hnone, hunlimited, -⟩ := step_unlimited h residue s.1 s.2
    exact List.forall_mem_cons.mpr ⟨hnone, ih hunlimited⟩

/-- Units without temporary values do not need the count of the units before them. -/
theorem apart_of_temps_eq_zero {steps : List (Config × Java.CompilationUnit)}
    (h : ∀ s ∈ steps, (Conversion.unit s.1 [] s.2).temps = 0) :
    apart 0 steps =
      (steps.map fun s => (convertInto .unlimited s.1 s.2).1.held).foldr (· ++ ·) .empty := by
  induction steps with
  | nil => rfl
  | cons s steps ih =>
    obtain ⟨hs, hsteps⟩ := List.forall_mem_cons.mp h
    have hown : (convertInto .unlimited s.1 s.2).1.held =
        ((numberedFrom 0).writeUnit s.1 s.2).1.held := by
      rw [held_writeUnit_numberedFrom]
      simp [convertInto_eq, Target.write, Target.unlimited, numberedFrom, onto]
    rw [List.map_cons, List.foldr_cons, hown, ← ih hsteps, apart, hs]

/-- A unit that does not fail restores its writer: no `dedent` in it is lost, and its frames are entered
and left on top of those of the writer. So what a run holds is what each unit is written as apart. -/
theorem units_written_apart (residue : Residue) :
    (∀ (w : Writer) (config : Config) (u : Java.CompilationUnit), w.sink.fresh = true →
      let source := Conversion.unit config w.scope u
      (∀ before after, source.pieces w.temps = before ++ .dedent :: after →
        (w.sink.putAll before).2 = none → 0 < (w.sink.putAll before).1.level) ∧
      ((w.writeUnit config u).2 = none → Restored w (w.writeUnit config u).1 source.temps) ∧
      (Conversion.Visit.mk w.scope []).run
          (Conversion.Env.upTo config (fun _ _ => []) (Conversion.budget w.scope u))
          (Conversion.unitEvents u) = some ⟨(w.writeUnit config u).1.scope, source.locals⟩) ∧
    (∀ (target : Target) (steps : List (Config × Java.CompilationUnit)),
      let run := (onto target).writeAll residue steps
      (target.limit = none → ∀ failed ∈ run.2, failed = none) ∧
      ((∀ failed ∈ run.2, failed = none) → run.1.held = target.held ++ apart 0 steps ∧
        ((∀ s ∈ steps, (Conversion.unit s.1 [] s.2).temps = 0) → run.1.held = target.held ++
          (steps.map fun s => (convertInto .unlimited s.1 s.2).1.held).foldr (· ++ ·) .empty))) := by
  refine ⟨fun w config u hfresh => ⟨?_, ?_, ?_⟩, fun target steps => ⟨?_, fun hall => ?_⟩⟩
  · intro before after hpieces hbefore
    exact level_pos_of_dedent hpieces hbefore
  · exact restored_writeUnit hfresh
  · exact run_unitEvents w config u
  · exact fun hlimit => writeAll_unlimited hlimit
  · have hheld := held_writeAll_eq_apart (w := onto target) rfl rfl rfl hall
    refine ⟨hheld, fun htemps => ?_⟩
    rw [← apart_of_temps_eq_zero htemps]
    exact hheld

end Writer

end CeylonFromJava.Output
