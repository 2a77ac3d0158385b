import CeylonFromJava.Cli.Command
import CeylonFromJava.Proofs.Cli.Places

/-! Runs of the command that complete on a machine.

Each part of a run has one lemma that says when it completes and what it leaves. A run into a
directory takes the disk through one conversion after another, `completes_convert`. -/
namespace CeylonFromJava.Cli
set_option autoImplicit false

/-- A part of a run on a machine completes with an answer and leaves a machine. -/
def Completes {α : Type} (act : ExceptT Failure (StateM Machine) α) (machine : Machine) (a : α)
    (machine' : Machine) : Prop :=
  (act.run.run machine).run = (.ok a, machine')

/-- A run that is carried out: it completes, and what it leaves can be looked at. -/
theorem exists_completes {act : ExceptT Failure (StateM Machine) Unit} {machine : Machine}
    {p : Machine → Prop} [DecidablePred p]
    (h : (match (act.run.run machine).run with
      | (.ok _, machine') => decide (p machine')
      | (.error _, _) => false) = true) :
    ∃ machine', Completes act machine () machine' ∧ p machine' := by
  unfold Completes
  revert h
  rcases (act.run.run machine).run with ⟨e | ⟨⟩, machine'⟩
  · exact fun h => nomatch h
  · exact fun h => ⟨machine', rfl, of_decide_eq_true h⟩

/-! ## Ways to build a run -/

section

variable {α β : Type} {machine machine' : Machine} {a : α} {b : β}

theorem completes_bind {act : ExceptT Failure (StateM Machine) α}
    {next : α → ExceptT Failure (StateM Machine) β} :
    Completes (act >>= next) machine b machine' ↔
      ∃ a between, Completes act machine a between ∧ Completes (next a) between b machine' := by
  have hrun : ((act >>= next).run.run machine).run =
      match (act.run.run machine).run with
      | (.ok a, between) => ((next a).run.run between).run
      | (.error e, between) => (.error e, between) := by
    rw [ExceptT.run_bind, StateT.run_bind]
    rcases act.run.run machine with ⟨_ | _, _⟩ <;> rfl
  unfold Completes
  rw [hrun]
  rcases (act.run.run machine).run with ⟨e | a, between⟩
  · simp
  · constructor
    · exact fun h => ⟨a, between, rfl, h⟩
    · rintro ⟨_, _, ⟨⟩, h⟩
      exact h

-- The pairs below are named with their type: behind the identity monad they would not be taken apart.

theorem completes_pure {a' : α} :
    Completes (pure a') machine a machine' ↔ a' = a ∧ machine = machine' := by
  change ((.ok a', machine) : Except Failure α × Machine) = _ ↔ _
  simp

theorem not_completes_throw {e : Failure} : ¬ Completes (throw e) machine a machine' := by
  change ¬ ((.error e, machine) : Except Failure α × Machine) = _
  simp

theorem completes_liftM {result : Except Failure α} :
    Completes (liftM result) machine a machine' ↔ result = .ok a ∧ machine = machine' := by
  change (result, machine) = _ ↔ _
  simp

theorem completes_orFail {failure : FileError → Failure}
    {act : StateM Machine (Except FileError α)} :
    Completes (orFail failure act) machine a machine' ↔
      (act.run machine).run = (.ok a, machine') := by
  change (((act.run machine).run.1.mapError failure, (act.run machine).run.2) :
    Except Failure α × Machine) = _ ↔ _
  rcases (act.run machine).run with ⟨e | a, between⟩
  · change ((.error (failure e), between) : Except Failure α × Machine) = _ ↔ _
    simp
  · change ((.ok a, between) : Except Failure α × Machine) = _ ↔ _
    simp

end

/-! ## The system -/

section

variable {machine machine' : Machine}

theorem completes_log {severity : Severity} {text : String} {a : Unit} :
    Completes (liftM (Host.log (m := StateM Machine) severity text)) machine a machine' ↔
      machine = machine' := by
  change ((.ok (), machine) : Except Failure Unit × Machine) = _ ↔ _
  simp

theorem run_readFile {path text : String} :
    ((Host.readFile (m := StateM Machine) path).run machine).run = (.ok text, machine') ↔
      machine.disk.read path = .ok text ∧ machine = machine' := by
  change (machine.disk.read path, machine) = _ ↔ _
  simp

theorem run_change {result : Disk → Except FileError Disk} {a : Unit} :
    ((Machine.change result).run machine).run = (.ok a, machine') ↔
      ∃ d, result machine.disk = .ok d ∧ { machine with disk := d } = machine' := by
  rw [Machine.change, StateT.run_bind, StateT.run_get, pure_bind]
  cases result machine.disk with
  | error e =>
    change ((.error e, machine) : Except FileError Unit × Machine) = _ ↔ _
    simp
  | ok d =>
    change ((.ok (), { machine with disk := d }) : Except FileError Unit × Machine) = _ ↔ _
    simp

end

/-! ## Units in files -/

/-- A file of a disk has the text of a unit. -/
def Disk.Holds (d : Disk) (path : String) (u : Java.CompilationUnit) : Prop :=
  ∃ text, d.read path = .ok text ∧ Java.readUnit text = .ok u

section

variable {machine machine' : Machine} {config : Conversion.Config} {dir input path : String}
  {u : Java.CompilationUnit}

theorem completes_readUnit (h : isStandardInput input = false) :
    Completes (readUnit input) machine u machine' ↔
      machine.disk.Holds input u ∧ machine = machine' := by
  simp only [readUnit, h, Bool.false_eq_true, if_false, completes_bind, completes_orFail,
    run_readFile]
  constructor
  · rintro ⟨text, _, ⟨hread, rfl⟩, hend⟩
    split at hend
    · next u' hu =>
      obtain ⟨rfl, rfl⟩ := completes_pure.mp hend
      exact ⟨⟨text, hread, hu⟩, rfl⟩
    · exact absurd hend not_completes_throw
  · rintro ⟨⟨text, hread, hu⟩, rfl⟩
    refine ⟨text, machine, ⟨hread, rfl⟩, ?_⟩
    rw [hu]
    exact completes_pure.mpr ⟨rfl, rfl⟩

/-- Making the file first makes no difference to writing it. -/
theorem completes_writeUnit {a : Unit} : Completes (writeUnit config path u) machine a machine' ↔
    ∃ d, machine.disk.write path (Conversion.text config u) = .ok d ∧
      { machine with disk := d } = machine' := by
  simp only [writeUnit, completes_bind, completes_orFail, Host.createFile, Host.writeFile,
    run_change]
  constructor
  · rintro ⟨_, _, ⟨made, hmade, rfl⟩, d, hd, rfl⟩
    exact ⟨d, (Disk.write_again hmade).mp hd, rfl⟩
  · rintro ⟨d, hd, rfl⟩
    have hmakes : ∃ made, machine.disk.write path "" = .ok made :=
      Disk.exists_write_eq_ok.mpr (Disk.exists_write_eq_ok.mp ⟨d, hd⟩)
    obtain ⟨made, hmade⟩ := hmakes
    exact ⟨(), _, ⟨made, hmade, rfl⟩, d, (Disk.write_again hmade).mpr hd, rfl⟩

theorem outputPath_eq_ok : outputPath dir input = .ok path ↔
    isStandardInput input = false ∧
      ∃ stem, Path.stem? input = some stem ∧ path = Path.join dir (stem ++ ".ceylon") := by
  unfold outputPath
  cases isStandardInput input with
  | true => simp
  | false => cases Path.stem? input <;> simp [eq_comm]

/-- What the conversion of one input into a directory makes of a disk. -/
def Converts (config : Conversion.Config) (dir input : String) (d d' : Disk) : Prop :=
  ∃ path u, outputPath dir input = .ok path ∧ d.Holds input u ∧
    d.write path (Conversion.text config u) = .ok d'

theorem completes_convertIntoDirectory {a : Unit} :
    Completes (convertIntoDirectory config dir input) machine a machine' ↔
      ∃ d, Converts config dir input machine.disk d ∧ { machine with disk := d } = machine' := by
  simp only [convertIntoDirectory, completes_bind, completes_liftM, completes_writeUnit,
    completes_log]
  constructor
  · rintro ⟨path, _, ⟨hpath, rfl⟩, u, _, hread, _, _, ⟨d, hd, rfl⟩, rfl⟩
    obtain ⟨hheld, rfl⟩ := (completes_readUnit (outputPath_eq_ok.mp hpath).1).mp hread
    exact ⟨d, ⟨path, u, hpath, hheld, hd⟩, rfl⟩
  · rintro ⟨d, ⟨path, u, hpath, hheld, hd⟩, rfl⟩
    have hread := (completes_readUnit (outputPath_eq_ok.mp hpath).1).mpr ⟨hheld, rfl⟩
    exact ⟨path, machine, ⟨hpath, rfl⟩, u, machine, hread, (), _, ⟨d, hd, rfl⟩, rfl⟩

/-- The conversions of several inputs, one after the other. -/
def Conversions (config : Conversion.Config) (dir : String) : List String → Disk → Disk → Prop
  | [], d, d' => d = d'
  | input :: inputs, d, d' =>
    ∃ between, Converts config dir input d between ∧ Conversions config dir inputs between d'

theorem completes_forM {inputs : List String} {a : Unit} :
    Completes (inputs.forM (convertIntoDirectory config dir)) machine a machine' ↔
      ∃ d, Conversions config dir inputs machine.disk d ∧
        { machine with disk := d } = machine' := by
  induction inputs generalizing machine with
  | nil => simp [completes_pure, Conversions]
  | cons input inputs ih =>
    simp only [List.forM, completes_bind, completes_convertIntoDirectory, ih, Conversions]
    constructor
    · rintro ⟨_, _, ⟨between, hfirst, rfl⟩, d, hrest, rfl⟩
      exact ⟨d, ⟨between, hfirst, hrest⟩, rfl⟩
    · rintro ⟨d, ⟨between, hfirst, hrest⟩, rfl⟩
      exact ⟨(), _, ⟨between, hfirst, rfl⟩, d, hrest, rfl⟩

/-- A run into a directory makes the directory and converts the inputs in their order. -/
theorem completes_convert {inputs : List String} {a : Unit} :
    Completes (convert config inputs (.directory dir)) machine a machine' ↔
      ∃ made d, machine.disk.makeDirectories dir = .ok made ∧
        Conversions config dir inputs made d ∧ { machine with disk := d } = machine' := by
  simp only [convert, completes_bind, completes_orFail, Host.makeDirectories, run_change,
    completes_forM]
  constructor
  · rintro ⟨_, _, ⟨made, hmade, rfl⟩, d, hd, rfl⟩
    exact ⟨made, d, hmade, hd, rfl⟩
  · rintro ⟨made, d, hmade, hd, rfl⟩
    exact ⟨(), _, ⟨made, hmade, rfl⟩, d, hd, rfl⟩

end

end CeylonFromJava.Cli
