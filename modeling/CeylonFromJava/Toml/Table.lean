/-! TOML documents as data: values, the entries of a table, and the rules for adding to them.
A document is a list of sections; `Entries.ofSections` builds its root table, or fails where a name
would be defined twice. -/
namespace CeylonFromJava.Toml
set_option autoImplicit false

/-- How a table came to be. It decides what may still be added to the table. -/
inductive Origin where
  /-- Opened by a header of its own. -/
  | header
  /-- Named on the way by a longer header. -/
  | passage
  /-- Made by a dotted key. -/
  | dotted
  /-- Written between braces. -/
  | inline
  deriving DecidableEq, Repr

/-- A value. Numbers with a fraction or an exponent, dates and times keep their spelling. -/
inductive Value where
  | bool (b : Bool)
  | integer (i : Int)
  | real (spelling : String)
  | moment (spelling : String)
  | text (s : String)
  | array (items : List Value)
  | table (origin : Origin) (entries : List (String × Value))
  /-- The tables opened by double-bracketed headers of one name. -/
  | tables (items : List (List (String × Value)))

abbrev Entries := List (String × Value)

/-- A key with the names that lead to it. -/
structure Key where
  path : List String
  name : String

structure Assignment where
  key : Key
  value : Value

inductive Header where
  | table (key : Key)
  | element (key : Key)

/-- A header with the assignments below it; the first section of a document has none. -/
structure Section where
  header : Option Header
  assignments : List Assignment

namespace Entries

def find? (es : Entries) (name : String) : Option Value := es.lookup name

/-- Gives `name` a value, in its old place if it has one. -/
def set (name : String) (v : Value) : Entries → Entries
  | [] => [(name, v)]
  | (n, w) :: rest => if n = name then (n, v) :: rest else (n, w) :: set name v rest

/-- Adds a name that is not there yet. -/
def add (name : String) (v : Value) (es : Entries) : Option Entries :=
  match es.find? name with
  | none => some (es.set name v)
  | some _ => none

/-- Changes the last of a list of tables. -/
def changeLast (change : Entries → Option Entries) : List Entries → Option (List Entries)
  | [] => none
  | [t] => (change t).map ([·])
  | t :: rest => (changeLast change rest).map (t :: ·)

/-- Adds a value under a dotted key. Tables on the way are made as needed; a table with a header of
its own or between braces is closed, and only a table of dotted keys takes the value itself. -/
def assign (name : String) (v : Value) : List String → Entries → Option Entries
  | [], es => es.add name v
  | p :: ps, es =>
    match es.find? p with
    | none => (assign name v ps []).map fun inner => es.set p (.table .dotted inner)
    | some (.table .dotted inner) =>
      (assign name v ps inner).map fun inner => es.set p (.table .dotted inner)
    | some (.table .passage inner) =>
      if ps.isEmpty then none
      else (assign name v ps inner).map fun inner => es.set p (.table .passage inner)
    | some (.tables items) =>
      if ps.isEmpty then none
      else (changeLast (assign name v ps) items).map fun items => es.set p (.tables items)
    | some _ => none

def assignAll (es : Entries) (as : List Assignment) : Option Entries :=
  as.foldlM (fun es a => es.assign a.key.name a.value a.key.path) es

/-- Changes the table that a header's path leads to, the last one of a list of tables. -/
def changeAt (change : Entries → Option Entries) : List String → Entries → Option Entries
  | [], es => change es
  | p :: ps, es =>
    match es.find? p with
    | none => (changeAt change ps []).map fun inner => es.set p (.table .passage inner)
    | some (.table .inline _) => none
    | some (.table origin inner) =>
      (changeAt change ps inner).map fun inner => es.set p (.table origin inner)
    | some (.tables items) =>
      (changeLast (changeAt change ps) items).map fun items => es.set p (.tables items)
    | some _ => none

/-- Opens the table of a header, which may so far only have been named on the way, and fills it. -/
def openTable (name : String) (as : List Assignment) (es : Entries) : Option Entries :=
  match es.find? name with
  | none => (assignAll [] as).map fun inner => es.set name (.table .header inner)
  | some (.table .passage inner) =>
    (assignAll inner as).map fun inner => es.set name (.table .header inner)
  | some _ => none

/-- Adds one more table to the list of a double-bracketed header. -/
def openElement (name : String) (as : List Assignment) (es : Entries) : Option Entries :=
  match es.find? name with
  | none => (assignAll [] as).map fun t => es.set name (.tables [t])
  | some (.tables items) => (assignAll [] as).map fun t => es.set name (.tables (items ++ [t]))
  | some _ => none

def addSection (es : Entries) (s : Section) : Option Entries :=
  match s.header with
  | none => es.assignAll s.assignments
  | some (.table key) => es.changeAt (openTable key.name s.assignments) key.path
  | some (.element key) => es.changeAt (openElement key.name s.assignments) key.path

/-- The root table of a document. -/
def ofSections (ss : List Section) : Option Entries := ss.foldlM addSection []

end Entries

end CeylonFromJava.Toml
