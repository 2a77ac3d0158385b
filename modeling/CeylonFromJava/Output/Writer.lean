import CeylonFromJava.Conversion.Unit
import CeylonFromJava.Output.Sink

/-! A writer converts units one after another onto one target. Its indentation, the frames around
it and its count of temporary values stay with it from unit to unit. -/
namespace CeylonFromJava.Output
set_option autoImplicit false

open Conversion (Config Scope)

structure Writer where
  sink : Sink
  scope : Scope
  temps : Nat

namespace Writer

def onto (target : Target) : Writer := ⟨Sink.onto target, [], 0⟩

/-- Writes a unit up to the first failure. -/
def writeUnit (w : Writer) (config : Config) (u : Java.CompilationUnit) :
    Writer × Option WriteError :=
  let source := Conversion.unit config w.scope u
  let (sink, failed) := w.sink.putAll (source.pieces w.temps)
  (⟨sink, w.scope, w.temps + source.temps⟩, failed)

/-- Flushes the target. -/
def finish (w : Writer) : Option WriteError := w.sink.target.flush

end Writer

/-- Writes one unit onto a target and flushes it. -/
def convertInto (target : Target) (config : Config) (u : Java.CompilationUnit) :
    Target × Option WriteError :=
  match (Writer.onto target).writeUnit config u with
  | (w, some e) => (w.sink.target, some e)
  | (w, none) => (w.sink.target, w.finish)

/-! ## Reading what a target holds -/

/-- The mark for bytes that are no whole character. -/
def replacement : Char := Char.ofNat 0xfffd

/-- How many bytes a character has that starts with `b`; none if no character does. -/
def sequenceLength (b : UInt8) : Nat :=
  if b < 0x80 then 1 else if b < 0xc0 then 0 else if b < 0xe0 then 2 else if b < 0xf0 then 3 else 4

/-- The code point of a lead byte and the bytes after it. -/
def codePoint (lead : UInt8) (rest : List UInt8) : Nat :=
  let first := match rest.length with
    | 0 => lead.toNat
    | 1 => lead.toNat % 0x20
    | 2 => lead.toNat % 0x10
    | _ => lead.toNat % 0x08
  rest.foldl (fun n b => n * 0x40 + b.toNat % 0x40) first

/-- The characters of bytes that are the front part of a text. Only the last character can be cut
off; what is left of it is one mark. -/
def decodeBytes : Nat → List UInt8 → List Char
  | 0, _ => []
  | _, [] => []
  | fuel + 1, b :: bs =>
    let more := sequenceLength b - 1
    if (bs.take more).length < more then [replacement]
    else Char.ofNat (codePoint b (bs.take more)) :: decodeBytes fuel (bs.drop more)

/-- The text that bytes from `start` on stand for. -/
def heldText (bytes : ByteArray) (start : Nat) : String :=
  let bs := bytes.toList.drop start
  String.ofList (decodeBytes bs.length bs)

end CeylonFromJava.Output
