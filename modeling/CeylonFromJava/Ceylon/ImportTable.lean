import CeylonFromJava.Java.Tree
import CeylonFromJava.Output.Piece

/-! Imports gathered by package. Java imports one member at a time; Ceylon lists the members of a
package between braces. Packages and members keep the order in which they first came. -/
namespace CeylonFromJava.Ceylon
set_option autoImplicit false

open Java (Import ImportMember)
open Output (Piece HasPieces)
open Output.HasPieces (text newline)

/-- What is imported from one package. -/
inductive ImportEntry where
  | members (names : List String)
  | wildcard
  deriving DecidableEq

namespace ImportEntry

/-- The member that stands for all members. -/
def everything : String := "..."

def ofMember : ImportMember → ImportEntry
  | .single name => .members [name]
  | .wildcard => .wildcard

/-- One more member; a wildcard takes in all others. -/
def add : ImportEntry → ImportMember → ImportEntry
  | _, .wildcard => .wildcard
  | .wildcard, .single _ => .wildcard
  | .members names, .single name =>
    if names.contains name then .members names else .members (names ++ [name])

/-- The names as they stand between the braces. -/
def listed : ImportEntry → List String
  | .members names => names
  | .wildcard => [everything]

end ImportEntry

/-- Packages with what is imported from them. -/
abbrev ImportTable := List (String × ImportEntry)

namespace ImportTable

def add : ImportTable → Import → ImportTable
  | [], i => [(i.package, .ofMember i.member)]
  | (package, entry) :: table, i =>
    if package = i.package then (package, entry.add i.member) :: table
    else (package, entry) :: add table i

def ofImports (imports : List Import) : ImportTable := imports.foldl add []

def get? (table : ImportTable) (package : String) : Option ImportEntry :=
  (table.find? fun (p, _) => p == package).map (·.2)

variable {α : Type} [HasPieces α]

/-- The members on lines of their own, with a comma after all but the last. -/
def memberPieces : List String → List α
  | [] => []
  | [name] => [text name, newline]
  | name :: names => [text name, text ",", newline] ++ memberPieces names

def entryPieces : String × ImportEntry → List α
  | (package, entry) =>
    [text "import ", text package, text " "] ++ Piece.braced (memberPieces entry.listed) ++
      [newline]

/-- All entries and an empty line after them; nothing for an empty table. -/
def pieces (table : ImportTable) : List α :=
  match table with
  | [] => []
  | table => table.flatMap entryPieces ++ [newline]

end ImportTable

end CeylonFromJava.Ceylon
