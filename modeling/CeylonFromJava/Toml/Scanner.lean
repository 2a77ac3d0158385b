/-! Scanners: what reads a piece off the front of a text, or fails. -/
namespace CeylonFromJava.Toml
set_option autoImplicit false

/-- Reads something off the front of the characters left. A failed alternative takes nothing. -/
abbrev Scanner := StateT (List Char) Option

namespace Scanner
variable {α β : Type}

def one (p : Char → Bool) : Scanner Char
  | c :: rest => if p c then some (c, rest) else none
  | [] => none

def char (c : Char) : Scanner Unit := do
  let _ ← one (· == c)

/-- Reads a word as it stands. -/
def word (w : String) : Scanner Unit := w.toList.forM char

/-- The longest run of characters of a class, which may be empty. -/
def span (p : Char → Bool) : Scanner (List Char) := fun s => some (s.span p)

/-- Reads nothing at the end of the text, and fails anywhere else. -/
def eof : Scanner Unit
  | [] => some ((), [])
  | _ => none

def optional (step : Scanner α) : Scanner (Option α) := some <$> step <|> pure none

/-- Repeats a step as long as it succeeds and takes something. -/
def manyFrom (step : Scanner α) (s : List Char) : List α × List Char :=
  match step.run s with
  | none => ([], s)
  | some (a, rest) =>
    if rest.length < s.length then
      let (as, rest) := manyFrom step rest
      (a :: as, rest)
    else ([], s)
termination_by s.length

def many (step : Scanner α) : Scanner (List α) := fun s => some (manyFrom step s)

/-- None, one or more items with a comma between each two. -/
def commaSeparated (item : Scanner α) : Scanner (List α) :=
  (do
    let first ← item
    let more ← many (do
      char ','
      item)
    return first :: more)
  <|> pure []

/-- Exactly `n` characters of a class. -/
def exactly (n : Nat) (p : Char → Bool) : Scanner (List Char) :=
  (List.replicate n ()).mapM fun _ => one p

/-- What a step takes, as it stands in the text. -/
def spelling (step : Scanner α) : Scanner (α × String) := fun s =>
  (step.run s).map fun (a, rest) =>
    ((a, String.ofList (s.take (s.length - rest.length))), rest)

/-- Accepts a result only if a test holds of it. -/
def only (test : α → Bool) (step : Scanner α) : Scanner α := do
  let a ← step
  if test a then return a else failure

end Scanner

end CeylonFromJava.Toml
