/-! Targets that take bytes up to a limit. -/
namespace CeylonFromJava.Output
set_option autoImplicit false

/-- Why a target did not take what it was given. -/
inductive WriteError where
  | closed
  | wholeBuffer
  | flushFailed
  deriving DecidableEq, Repr

def WriteError.message : WriteError → String
  | .closed => "failed to write output: closed"
  | .wholeBuffer => "failed to write output: failed to write whole buffer"
  | .flushFailed => "failed to write output: flush failed"

/-- What a target does once it is full: it fails, or it goes on to take nothing. -/
inductive Refusal where
  | fails
  | takesNothing
  deriving DecidableEq, Repr

def Refusal.error : Refusal → WriteError
  | .fails => .closed
  | .takesNothing => .wholeBuffer

/-- A target: the bytes it holds, and how many it takes, if there is a limit. -/
structure Target where
  held : ByteArray
  limit : Option Nat
  refusal : Refusal
  flushFails : Bool

namespace Target

/-- A target that takes everything. -/
def unlimited : Target := ⟨.empty, none, .fails, false⟩

/-- Gives bytes to the target. It takes as many of them as it has room for. -/
def write (t : Target) (bytes : ByteArray) : Target × Option WriteError :=
  match t.limit with
  | none => (⟨t.held ++ bytes, t.limit, t.refusal, t.flushFails⟩, none)
  | some limit =>
    let room := limit - t.held.size
    if bytes.size ≤ room then (⟨t.held ++ bytes, t.limit, t.refusal, t.flushFails⟩, none)
    else
      (⟨t.held ++ bytes.extract 0 room, t.limit, t.refusal, t.flushFails⟩, some t.refusal.error)

def flush (t : Target) : Option WriteError :=
  if t.flushFails then some .flushFailed else none

end Target

end CeylonFromJava.Output
