import CeylonFromJava.Json.Fault

/-! Number literals. `readNumber` gives the value; `skipNumber` only walks over the literal, for
values that nobody asked for, and so never minds how large it is.

A fraction or an exponent makes a float, and so does a whole number that 64 bits do not hold. Its
value is the leading digits, as many as fit 64 bits, scaled by a power of ten in floating point. -/
namespace CeylonFromJava.Json
set_option autoImplicit false

def digitValue (c : Char) : Nat := c.toNat - 48

/-- The digits at the front, and what follows them. -/
def leadingDigits (cs : List Char) : List Nat × List Char :=
  ((cs.takeWhile Char.isDigit).map digitValue, cs.dropWhile Char.isDigit)

/-- Wants one digit or more, and goes on with them. -/
def readDigits {α : Type} (next : List Nat → List Char → Except Fault α) (cs : List Char) :
    Except Fault α :=
  match cs, leadingDigits cs with
  | [], _ => .error .eofValue
  | _ :: _, ([], _) => .error .invalidNumber
  | _ :: _, (ds, rest) => next ds rest

/-- Appends digits to a significand while it fits 64 bits; the digits that no longer fit are left.
-/
def absorb (significand : Nat) : List Nat → Nat × List Nat
  | [] => (significand, [])
  | d :: ds =>
    if significand * 10 + d < Nat.pow 2 64 then absorb (significand * 10 + d) ds
    else (significand, d :: ds)

/-! ## Floats -/

def powerOfTen (n : Nat) : Float := Float.ofScientific 1 false n

/-- Divides by `10 ^ n`, in steps that a float can hold. -/
def divideByPower (f : Float) (n : Nat) : Nat → Float
  | 0 => f
  | steps + 1 =>
    if n ≤ 308 then f / powerOfTen n
    else if f == 0.0 then f
    else divideByPower (f / powerOfTen 308) (n - 308) steps

/-- `significand * 10 ^ exponent` with its sign, refused when it is beyond the largest float. -/
def scaled (negative : Bool) (significand : Nat) (exponent : Int) : Except Fault Number :=
  let f := (UInt64.ofNat significand).toFloat
  let signed (f : Float) : Number := .real (if negative then -f else f).toBits
  if exponent < 0 then .ok (signed (divideByPower f exponent.natAbs 4))
  else if exponent ≤ 308 then
    let g := f * powerOfTen exponent.natAbs
    if g.isInf then .error .numberOutOfRange else .ok (signed g)
  else if significand = 0 then .ok (signed f)
  else .error .numberOutOfRange

/-- The sign of an exponent, down or not, and what follows it. -/
def exponentSign (cs : List Char) : Bool × List Char :=
  match cs with
  | '+' :: rest => (false, rest)
  | '-' :: rest => (true, rest)
  | _ => (false, cs)

/-- The number with the exponent moved by the digits `ds`. -/
def exponentValue (negative : Bool) (significand : Nat) (exponent : Int) (down : Bool)
    (ds : List Nat) : Except Fault Number :=
  let size : Nat := ds.foldl (fun n d => n * 10 + d) 0
  if size < Nat.pow 2 31 then
    scaled negative significand (if down then exponent - size else exponent + size)
  else if significand = 0 || down then scaled negative 0 0
  else .error .numberOutOfRange

/-- Reads on after the mark of an exponent. -/
def readExponent (negative : Bool) (significand : Nat) (exponent : Int) (cs : List Char) :
    Except Fault (Number × List Char) :=
  let (down, cs) := exponentSign cs
  readDigits (fun ds rest => do
    let n ← exponentValue negative significand exponent down ds
    return (n, rest)) cs

/-- Reads on where an exponent may follow. -/
def readScale (negative : Bool) (significand : Nat) (exponent : Int) (cs : List Char) :
    Except Fault (Number × List Char) :=
  match cs with
  | 'e' :: rest | 'E' :: rest => readExponent negative significand exponent rest
  | _ => do
    let n ← scaled negative significand exponent
    return (n, cs)

/-- Reads on after the point. -/
def readFraction (negative : Bool) (significand : Nat) (exponent : Int) (cs : List Char) :
    Except Fault (Number × List Char) :=
  readDigits (fun ds rest =>
    let (significand, left) := absorb significand ds
    readScale negative significand (exponent - (ds.length - left.length : Nat)) rest) cs

/-! ## Whole literals -/

/-- A whole number with its sign; zero below zero is a float, as is what 64 bits do not hold. -/
def wholeNumber (negative : Bool) (n : Nat) : Number :=
  if !negative then .natural (UInt64.ofNat n)
  else if n = 0 || n > Nat.pow 2 63 then .real (-(UInt64.ofNat n).toFloat).toBits
  else .negative (-n)

/-- Reads on after the digits before the point: `significand`, and `left` digits that did not fit.
-/
def readAfterWhole (negative : Bool) (significand left : Nat) (cs : List Char) :
    Except Fault (Number × List Char) :=
  match cs with
  | '.' :: rest => readFraction negative significand left rest
  | 'e' :: rest | 'E' :: rest => readExponent negative significand left rest
  | _ =>
    if left = 0 then .ok (wholeNumber negative significand, cs)
    else do
      let n ← scaled negative significand left
      return (n, cs)

/-- Reads a literal after its sign. -/
def readMagnitude (negative : Bool) (cs : List Char) : Except Fault (Number × List Char) :=
  match cs with
  | '0' :: rest =>
    if (rest.head?.map Char.isDigit).getD false then .error .invalidNumber
    else readAfterWhole negative 0 0 rest
  | cs =>
    readDigits (fun ds rest =>
      let (significand, left) := absorb 0 ds
      readAfterWhole negative significand left.length rest) cs

/-- Reads the literal at the front. -/
def readNumber (cs : List Char) : Except Fault (Number × List Char) :=
  match cs with
  | '-' :: rest => readMagnitude true rest
  | _ => readMagnitude false cs

/-! ## Skipping -/

/-- Walks over one digit or more. -/
def skipDigits (cs : List Char) : Except Fault (List Char) :=
  match leadingDigits cs with
  | ([], _) => .error .invalidNumber
  | (_, rest) => .ok rest

def skipExponent (cs : List Char) : Except Fault (List Char) :=
  skipDigits (exponentSign cs).2

def skipScale (cs : List Char) : Except Fault (List Char) :=
  match cs with
  | 'e' :: rest | 'E' :: rest => skipExponent rest
  | _ => .ok cs

def skipAfterWhole (cs : List Char) : Except Fault (List Char) :=
  match cs with
  | '.' :: rest => skipDigits rest >>= skipScale
  | _ => skipScale cs

/-- Walks over a literal after its sign. -/
def skipMagnitude (cs : List Char) : Except Fault (List Char) :=
  match cs with
  | '0' :: rest =>
    if (rest.head?.map Char.isDigit).getD false then .error .invalidNumber
    else skipAfterWhole rest
  | cs => skipDigits cs >>= skipAfterWhole

/-- Walks over the literal at the front. -/
def skipNumber (cs : List Char) : Except Fault (List Char) :=
  match cs with
  | '-' :: rest => skipMagnitude rest
  | _ => skipMagnitude cs

end CeylonFromJava.Json
