import CeylonFromJava.Json.Scan

/-! Decoders of scanned JSON.

A decoder gets the number of lists and objects that may still be opened and a scanned value. Records
are described by their fields and read from an object, in any order of keys, or from a list, in the
order of the fields. Variants are described by a table and read from a name or from an object with
one key. Everything is met from left to right and the first fault is the answer. -/
namespace CeylonFromJava.Json
set_option autoImplicit false

abbrev Decoder (α : Type) := Nat → Scan → Except Fault α

namespace Decoder

/-- The answer to a value of another kind. -/
def mismatch {α : Type} (expected : String) (s : Scan) : Except Fault α :=
  match s.found with
  | .ok found => .error (.invalidType found expected)
  | .error fault => .error fault

def map {α β : Type} (f : α → β) (p : Decoder α) : Decoder β :=
  fun depth s => (p depth s).map f

/-! ## Plain values -/

def unit : Decoder Unit
  | _, .null => .ok ()
  | _, s => mismatch "unit" s

def bool : Decoder Bool
  | _, .bool b => .ok b
  | _, s => mismatch "a boolean" s

def string : Decoder String
  | _, .string text => text
  | _, s => mismatch "a string" s

/-- A number of things, of 64 bits. -/
def count : Decoder UInt64
  | _, .number (.ok (.natural n)) => .ok n
  | _, .number (.ok (.negative n)) => .error (.invalidValue (.number (.negative n)) "usize")
  | _, s => mismatch "usize" s

/-- `null`, or a value. -/
def option {α : Type} (p : Decoder α) : Decoder (Option α)
  | _, .null => .ok none
  | _, .brokenNull fault => .error fault
  | depth, s => (p depth s).map some

/-! ## Lists -/

/-- The fault of a list that is read to its end. -/
def listEnd : ArrayStop → Except Fault Unit
  | .closed | .cut => .ok ()
  | .danglingComma => .error .trailingComma
  | .noSeparator true => .error .eofList
  | .noSeparator false => .error .expectedListCommaOrEnd

def items {α : Type} (p : Scan → Except Fault α) : List Scan → Except Fault (List α)
  | [] => .ok []
  | x :: xs => do
    let a ← p x
    let as ← items p xs
    return a :: as

def list {α : Type} (p : Decoder α) : Decoder (List α)
  | 0, .array _ _ => .error .recursionLimit
  | depth + 1, .array xs stop => do
    let as ← items (p depth) xs
    listEnd stop
    return as
  | _, s => mismatch "a sequence" s

/-- The fault of a list from which all that is wanted was read. -/
def surplus : List Scan → ArrayStop → Except Fault Unit
  | _ :: _, _ => .error .trailingCharacters
  | [], .closed | [], .cut => .ok ()
  | [], .danglingComma => .error .trailingComma
  | [], .noSeparator true => .error .eofList
  | [], .noSeparator false => .error .trailingCharacters

/-! ## Records -/

/-- A field: its name, its decoder, and the value it takes when it is absent, if it may be. -/
structure Field (α : Type) where
  name : String
  read : Decoder α
  absent : Option α

def required {α : Type} (name : String) (read : Decoder α) : Field α := ⟨name, read, none⟩

def defaulted {α : Type} (name : String) (read : Decoder α) (absent : α) : Field α :=
  ⟨name, read, some absent⟩

/-- The fields of a record in order, indexed by their types. -/
inductive Fields : List Type → Type 1 where
  | nil : Fields []
  | cons {α : Type} {ts : List Type} (field : Field α) (rest : Fields ts) : Fields (α :: ts)

/-- One value for each field. -/
@[reducible] def Values : List Type → Type
  | [] => Unit
  | α :: ts => α × Values ts

/-- The values met so far. -/
@[reducible] def Slots : List Type → Type
  | [] => Unit
  | α :: ts => Option α × Slots ts

namespace Fields

section
variable {α β γ δ ε ζ : Type}

def of1 (a : Field α) : Fields [α] := .cons a .nil

def of2 (a : Field α) (b : Field β) : Fields [α, β] := .cons a (of1 b)

def of3 (a : Field α) (b : Field β) (c : Field γ) : Fields [α, β, γ] := .cons a (of2 b c)

def of4 (a : Field α) (b : Field β) (c : Field γ) (d : Field δ) : Fields [α, β, γ, δ] :=
  .cons a (of3 b c d)

def of5 (a : Field α) (b : Field β) (c : Field γ) (d : Field δ) (e : Field ε) :
    Fields [α, β, γ, δ, ε] := .cons a (of4 b c d e)

def of6 (a : Field α) (b : Field β) (c : Field γ) (d : Field δ) (e : Field ε) (f : Field ζ) :
    Fields [α, β, γ, δ, ε, ζ] := .cons a (of5 b c d e f)

end

def size {ts : List Type} : Fields ts → Nat
  | .nil => 0
  | .cons _ rest => rest.size + 1

def noSlots : {ts : List Type} → Fields ts → Slots ts
  | _, .nil => ()
  | _, .cons _ rest => (none, noSlots rest)

/-- Whether there is a field `key`, and whether its value was met. -/
def met? (key : String) : {ts : List Type} → Fields ts → Slots ts → Option Bool
  | _, .nil, _ => none
  | _, .cons field rest, (slot, slots) =>
    if field.name = key then some slot.isSome else met? key rest slots

/-- Reads the value of the field `key` into its slot. -/
def put (key : String) (depth : Nat) (s : Scan) :
    {ts : List Type} → Fields ts → Slots ts → Except Fault (Slots ts)
  | _, .nil, slots => .ok slots
  | _, .cons field rest, (slot, slots) =>
    if field.name = key then do
      let a ← field.read depth s
      return (some a, slots)
    else do
      let slots ← put key depth s rest slots
      return (slot, slots)

/-- Takes the name of a member: a field that was met before must not come again. -/
def accept {ts : List Type} (fields : Fields ts) (key : Except Fault String) (slots : Slots ts) :
    Except Fault (Option String) :=
  match key with
  | .error fault => .error fault
  | .ok key =>
    match fields.met? key slots with
    | none => .ok none
    | some true => .error (.duplicateField key)
    | some false => .ok (some key)

/-- Takes the members of an object one after another; unknown ones are walked over. -/
def takeMembers {ts : List Type} (fields : Fields ts) (depth : Nat) :
    List (Except Fault String × Scan) → Slots ts → Except Fault (Slots ts)
  | [], slots => .ok slots
  | (key, s) :: members, slots => do
    match ← fields.accept key slots with
    | some key =>
      let slots ← fields.put key depth s slots
      fields.takeMembers depth members slots
    | none =>
      s.skip
      fields.takeMembers depth members slots

/-- The fault of an object that is read to its end; `first` when it had no member. -/
def objectEnd {ts : List Type} (fields : Fields ts) (first : Bool) (slots : Slots ts) :
    ObjectStop → Except Fault Unit
  | .closed | .cut => .ok ()
  | .danglingComma => .error .trailingComma
  | .noKey true => .error (if first then .eofObject else .eofValue)
  | .noKey false => .error .keyMustBeString
  | .brokenKey read _ => .error read
  | .noColon key atEnd => do
    let _ ← fields.accept key slots
    .error (if atEnd then .eofObject else .expectedColon)
  | .noSeparator true => .error .eofObject
  | .noSeparator false => .error .expectedObjectCommaOrEnd

/-- The values of all fields; the first one that is missing is the fault. -/
def finish : {ts : List Type} → Fields ts → Slots ts → Except Fault (Values ts)
  | _, .nil, _ => .ok ()
  | _, .cons field rest, (slot, slots) =>
    match slot, field.absent with
    | some a, _ | none, some a => do
      let values ← finish rest slots
      return (a, values)
    | none, none => .error (.missingField field.name)

/-- Reads the fields from the items of a list; `met` of them are read. -/
def takeItems (expected : String) (depth : Nat) (stop : ArrayStop) :
    {ts : List Type} → Fields ts → Nat → List Scan → Except Fault (Values ts)
  | _, .nil, _, xs => do
    surplus xs stop
    return ()
  | _, .cons field rest, met, x :: xs => do
    let a ← field.read depth x
    let values ← takeItems expected depth stop rest (met + 1) xs
    return (a, values)
  | _, .cons field rest, met, [] => do
    listEnd stop
    match field.absent with
    | none => .error (.invalidLength met expected)
    | some a =>
      let values ← takeItems expected depth stop rest (met + 1) []
      return (a, values)

end Fields

/-- How a record with its number of fields is called. -/
def withElements (name : String) (size : Nat) : String :=
  name ++ " with " ++ size.repr ++ (if size = 1 then " element" else " elements")

/-- A record called `name`, from an object or from a list. -/
def record {α : Type} {ts : List Type} (name : String) (fields : Fields ts)
    (build : Values ts → α) : Decoder α
  | 0, .array _ _ | 0, .object _ _ => .error .recursionLimit
  | depth + 1, .array xs stop => do
    let values ← fields.takeItems (withElements name fields.size) depth stop 0 xs
    return build values
  | depth + 1, .object members stop => do
    let slots ← fields.takeMembers depth members fields.noSlots
    fields.objectEnd members.isEmpty slots stop
    let values ← fields.finish slots
    return build values
  | _, s => mismatch name s

/-- Two values in a list. -/
def pair {α β : Type} (p : Decoder α) (q : Decoder β) : Decoder (α × β)
  | 0, .array _ _ => .error .recursionLimit
  | depth + 1, .array xs stop => do
    let (a, b, _) ← Fields.takeItems "a tuple of size 2" depth stop
      (.of2 (required "0" p) (required "1" q)) 0 xs
    return (a, b)
  | _, s => mismatch "a tuple of size 2" s

/-! ## Variants -/

/-- What a variant holds: nothing, one value, or fields. -/
inductive Content (α : Type) where
  | unit (value : α)
  | value (read : Decoder α)
  | fields (read : Decoder α)

structure Variant (α : Type) where
  name : String
  content : Content α

def variantNamed {α : Type} (table : List (Variant α)) (name : String) :
    Except Fault (Content α) :=
  match table.find? (·.name == name) with
  | some v => .ok v.content
  | none => .error (.unknownVariant name (table.map (·.name)))

/-- A variant that stands as a bare name. -/
def Content.bare {α : Type} : Content α → Except Fault α
  | .unit a => .ok a
  | .value _ => .error (.invalidType .unitVariant "newtype variant")
  | .fields _ => .error (.invalidType .unitVariant "struct variant")

/-- A variant whose content follows. -/
def Content.read {α : Type} : Content α → Decoder α
  | .unit a => Decoder.unit.map fun _ => a
  | .value p | .fields p => p

/-- The fault of an object that should have held one variant and no more. -/
def variantEnd : List (Except Fault String × Scan) → ObjectStop → Except Fault Unit
  | [], .closed | [], .cut => .ok ()
  | [], .noSeparator true => .error .eofObject
  | _, _ => .error .expectedValue

/-- The fault of an object that should have held a variant and holds no whole member. -/
def noVariant {α : Type} (table : List (Variant α)) : ObjectStop → Fault
  | .noKey true => .eofObject
  | .noKey false => .keyMustBeString
  | .brokenKey read _ => read
  | .noColon (.error fault) _ => fault
  | .noColon (.ok key) atEnd =>
    match variantNamed table key with
    | .error fault => fault
    | .ok _ => if atEnd then .eofObject else .expectedColon
  | _ => .expectedValue

/-- One of the variants of a table, from its name or from an object with its name as the only key.
-/
def variant {α : Type} (table : List (Variant α)) : Decoder α
  | _, .string text => do
    let name ← text
    let content ← variantNamed table name
    content.bare
  | _, .brokenString read _ => .error read
  | 0, .object _ _ => .error .recursionLimit
  | _ + 1, .object [] stop => .error (noVariant table stop)
  | depth + 1, .object ((key, s) :: members) stop => do
    let name ← key
    let content ← variantNamed table name
    let a ← content.read depth s
    variantEnd members stop
    return a
  | _, .nothing true => .error .eofValue
  | _, _ => .error .expectedValue

/-- Variants without content, each with its name. -/
def names {α : Type} (table : List (String × α)) : Decoder α :=
  variant (table.map fun (name, a) => ⟨name, .unit a⟩)

/-! ## Whole texts -/

/-- At most this many lists and objects may be open at once. -/
def depthLimit : Nat := 127

/-- A value and nothing but blanks after it. -/
def decodeText {α : Type} (p : Decoder α) (text : String) : Except Fault α :=
  match Scan.ofChars text.toList with
  | (s, none) => p depthLimit s
  | (s, some rest) => do
    let a ← p depthLimit s
    match dropBlanks rest with
    | [] => return a
    | _ :: _ => .error .trailingCharacters

end Decoder

end CeylonFromJava.Json
