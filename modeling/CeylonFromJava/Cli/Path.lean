/-! Paths as text: their segments, their components, and the names of files. -/
namespace CeylonFromJava.Cli.Path
set_option autoImplicit false

/-- The pieces of a path between its slashes, one more than there are slashes. -/
def segmentsOf : List Char → List (List Char)
  | [] => [[]]
  | c :: cs =>
    if c = '/' then [] :: segmentsOf cs
    else
      match segmentsOf cs with
      | [] => [[c]]
      | s :: ss => (c :: s) :: ss

def segments (path : String) : List String := (segmentsOf path.toList).map String.ofList

def isAbsolute (path : String) : Bool := path.toList.head? == some '/'

inductive Component where
  | root
  | current
  | parent
  | name (s : String)
  deriving DecidableEq, Repr

def Component.ofSegment (s : String) : Component := if s = ".." then .parent else .name s

/-- What a path goes through. Empty segments and single dots do not count, a dot in front excepted.
-/
def components (path : String) : List Component :=
  let front : List Component :=
    if isAbsolute path then [.root]
    else if (segments path).head? == some "." then [.current]
    else []
  front ++ ((segments path).filter fun s => s != "" && s != ".").map Component.ofSegment

/-- A path through the given components. -/
def ofComponents (cs : List Component) : String :=
  match cs with
  | .root :: rest => "/" ++ "/".intercalate (rest.map segment)
  | cs => "/".intercalate (cs.map segment)
where
  segment : Component → String
    | .root => ""
    | .current => "."
    | .parent => ".."
    | .name s => s

/-- The last component, if it is a name. -/
def fileName? (path : String) : Option String :=
  match (components path).getLast? with
  | some (.name s) => some s
  | _ => none

/-- A name without its extension, which starts at the last dot unless that dot comes first. -/
def stemOf (name : List Char) : List Char :=
  match name.reverse.dropWhile (· != '.') with
  | [] => name
  | [_] => name
  | _ :: before => before.reverse

def stem? (path : String) : Option String :=
  (fileName? path).map fun name => String.ofList (stemOf name.toList)

/-- A name inside a directory. -/
def join (dir name : String) : String :=
  match dir.toList.getLast? with
  | none => name
  | some '/' => dir ++ name
  | some _ => dir ++ "/" ++ name

/-- The directories above a path, nearest first, without the one a relative path starts from. -/
def ancestors (path : String) : List String :=
  let cs := components path
  ((List.range cs.length).drop 1).reverse.map fun n => ofComponents (cs.take n)

end CeylonFromJava.Cli.Path
