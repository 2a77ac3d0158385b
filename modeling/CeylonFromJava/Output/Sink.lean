import CeylonFromJava.Output.Piece
import CeylonFromJava.Output.Target

/-! A sink lays out pieces onto a target. It knows the level of indentation and whether it stands
at the start of a line. -/
namespace CeylonFromJava.Output
set_option autoImplicit false

structure Sink where
  target : Target
  level : Nat
  fresh : Bool

namespace Sink

def onto (target : Target) : Sink := ⟨target, 0, true⟩

/-- Writes text. The first text of a line is preceded by the indentation; until that is written the
sink stays at the start of the line. -/
def write (s : Sink) (text : String) : Sink × Option WriteError :=
  if text.isEmpty then (s, none)
  else
    let (target, failed) :=
      if s.fresh then s.target.write (indentation s.level).toUTF8 else (s.target, none)
    match failed with
    | some e => (⟨target, s.level, s.fresh⟩, some e)
    | none =>
      let (target, failed) := target.write text.toUTF8
      (⟨target, s.level, false⟩, failed)

/-- Ends the line. -/
def newline (s : Sink) : Sink × Option WriteError :=
  let (target, failed) := s.target.write "\n".toUTF8
  (⟨target, s.level, s.fresh || failed.isNone⟩, failed)

def put (s : Sink) : Piece → Sink × Option WriteError
  | .text text => s.write text
  | .newline => s.newline
  | .indent => (⟨s.target, s.level + 1, s.fresh⟩, none)
  | .dedent => (⟨s.target, s.level - 1, s.fresh⟩, none)

/-- Puts pieces until one fails. -/
def putAll (s : Sink) : List Piece → Sink × Option WriteError
  | [] => (s, none)
  | p :: ps =>
    match s.put p with
    | (s, none) => s.putAll ps
    | (s, some e) => (s, some e)

/-- Flushes the target. The sink stays where it is. -/
def flush (s : Sink) : Sink × Option WriteError := (s, s.target.flush)

/-- What a sink can be asked for. -/
inductive Request where
  | put (piece : Piece)
  | flush
  deriving DecidableEq, Repr

def answer (s : Sink) : Request → Sink × Option WriteError
  | .put piece => s.put piece
  | .flush => s.flush

/-- Answers requests one after another, also after a failure, and tells which of them have failed. -/
def answerAll (s : Sink) : List Request → Sink × List (Option WriteError)
  | [] => (s, [])
  | r :: rs =>
    let (s', failed) := s.answer r
    let (last, failures) := s'.answerAll rs
    (last, failed :: failures)

end Sink

end CeylonFromJava.Output
