import CeylonFromJava.Cli.Host
import CeylonFromJava.Cli.Path

/-! A file system held as data, and the system made of it: a run of the command on a disk is a
function from disks to disks. -/
namespace CeylonFromJava.Cli
set_option autoImplicit false

inductive Entry where
  | file (text : String)
  | directory
  deriving DecidableEq, Repr

/-- A place on a disk: the names that lead to it from the root. -/
abbrev Place := List String

/-- The entries of a disk below its root, and the working directory. -/
structure Disk where
  entries : List (Place × Entry)
  here : Place

namespace Disk

/-- What is at a place. -/
def at? (d : Disk) : Place → Option Entry
  | [] => some .directory
  | place => d.entries.lookup place

def put (d : Disk) (place : Place) (e : Entry) : Disk :=
  ⟨(place, e) :: d.entries.filter (·.1 != place), d.here⟩

/-- Goes one segment on from a directory. -/
def enter (d : Disk) (place : Place) (segment : String) : Except FileError Place :=
  match d.at? place with
  | none => .error .missing
  | some (.file _) => .error .notDirectory
  | some .directory =>
    .ok (if segment = "" || segment = "." then place
      else if segment = ".." then place.dropLast
      else place ++ [segment])

/-- Where segments lead. There need not be anything there yet. -/
def follow (d : Disk) (absolute : Bool) (segments : List String) : Except FileError Place :=
  segments.foldlM d.enter (if absolute then [] else d.here)

def resolve (d : Disk) (path : String) : Except FileError Place :=
  d.follow (Path.isAbsolute path) (Path.segments path)

/-- The segments of a path without the slashes at its end. -/
def trimmed (path : String) : List String :=
  ((Path.segments path).reverse.dropWhile (· == "")).reverse

def find? (d : Disk) (path : String) : Option Entry :=
  match d.resolve path with
  | .ok place => d.at? place
  | .error _ => none

def isFile (d : Disk) (path : String) : Bool :=
  match d.find? path with
  | some (.file _) => true
  | _ => false

def isDirectory (d : Disk) (path : String) : Bool := d.find? path == some .directory

def read (d : Disk) (path : String) : Except FileError String := do
  match d.at? (← d.resolve path) with
  | none => .error .missing
  | some .directory => .error .isDirectory
  | some (.file text) => .ok text

/-- Makes one directory. -/
def makeDirectory (d : Disk) (path : String) : Except FileError Disk := do
  let place ← d.follow (Path.isAbsolute path) (trimmed path)
  match d.at? place with
  | some _ => .error .exists
  | none => .ok (d.put place .directory)

/-- Makes the first of a list of directories, each inside the next, and of the others those that it
needs. -/
def makeNested (d : Disk) : List String → Except FileError Disk
  | [] => .ok d
  | path :: above =>
    match d.makeDirectory path with
    | .ok d => .ok d
    | .error .missing => do
      let d ← makeNested d above
      orThere d path (d.makeDirectory path)
    | .error e => orThere d path (.error e)
where
  orThere (d : Disk) (path : String) (result : Except FileError Disk) : Except FileError Disk :=
    match result with
    | .ok d => .ok d
    | .error e => if d.isDirectory path then .ok d else .error e

def makeDirectories (d : Disk) (path : String) : Except FileError Disk :=
  d.makeNested (path :: Path.ancestors path)

/-- Makes or replaces a file. A path that ends in a slash can only be a directory. -/
def write (d : Disk) (path text : String) : Except FileError Disk := do
  let place ← d.follow (Path.isAbsolute path) (trimmed path)
  if trimmed path != Path.segments path || d.at? place == some .directory then .error .isDirectory
  else .ok (d.put place (.file text))

/-- Puts a file at a place, with the directories above it. -/
def addFile (d : Disk) (place : Place) (text : String) : Disk :=
  let above := (List.range place.length).drop 1 |>.map place.take
  (above.foldl (fun d p => d.put p .directory) d).put place (.file text)

/-- A disk that holds a working directory and files below it, by their paths from there. -/
def ofFiles (here : Place) (files : List (String × String)) : Disk :=
  let empty : Disk := ⟨((List.range (here.length + 1)).drop 1).map
    fun n => (here.take n, .directory), here⟩
  files.foldl (fun d (path, text) =>
    d.addFile (here ++ (Path.segments path).filter fun s => s != "" && s != ".") text) empty

/-- The files below the working directory, by their paths from there. -/
def files (d : Disk) : List (String × String) :=
  d.entries.filterMap fun
    | (place, .file text) =>
      if d.here.isPrefixOf place then some ("/".intercalate (place.drop d.here.length), text)
      else none
    | _ => none

/-- The files that differ from those of an earlier disk. -/
def changedFrom (d before : Disk) : List (String × String) :=
  d.files.filter fun (path, text) => before.files.lookup path != some text

end Disk

/-- A disk with standard streams. -/
structure Machine where
  disk : Disk
  input : String
  printed : String

/-- Changes the disk if the change can be made. -/
def Machine.change (result : Disk → Except FileError Disk) :
    StateM Machine (Except FileError Unit) := do
  let machine ← get
  match result machine.disk with
  | .ok disk =>
    set { machine with disk := disk }
    return .ok ()
  | .error e => return .error e

instance : Host (StateM Machine) where
  isFile path := return (← get).disk.isFile path
  readFile path := return (← get).disk.read path
  makeDirectories path := Machine.change (·.makeDirectories path)
  createFile path := Machine.change (·.write path "")
  writeFile path text := Machine.change (·.write path text)
  readInput := do
    let machine ← get
    set { machine with input := "" }
    return .ok machine.input
  print text := do
    modify fun machine => { machine with printed := machine.printed ++ text }
    return .ok ()
  log _ _ := return ()

end CeylonFromJava.Cli
