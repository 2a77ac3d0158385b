/-! Shortest decimal text of a binary floating-point number.

A finite number is `significand * 2 ^ exponent`. The reals that round to it form an interval around
it, ends included when the significand is even. Of all decimals in that interval the one with the
fewest digits is taken, the nearer of two, and the even one of two equally near. All comparisons are
exact, in natural numbers. -/
namespace CeylonFromJava.Decimal
set_option autoImplicit false

/-! ## Binary numbers and their intervals -/

/-- The number `significand * 2 ^ exponent`; `narrow` when the gap below it is half the gap above.
-/
structure Binary where
  significand : Nat
  exponent : Int
  narrow : Bool

/-- The magnitude held in the 64 bits of a finite number. -/
def Binary.ofBits (bits : UInt64) : Binary :=
  let fraction : Nat := bits.toNat % Nat.pow 2 52
  let exponent : Nat := bits.toNat / Nat.pow 2 52 % Nat.pow 2 11
  if exponent = 0 then ⟨fraction, -1074, false⟩
  else ⟨fraction + Nat.pow 2 52, (exponent : Int) - 1075, fraction = 0 && exponent > 1⟩

/-- Compares `a * 10 ^ e` with `b * 2 ^ q`. -/
def compareScaled (a : Nat) (e : Int) (b : Nat) (q : Int) : Ordering :=
  compare (a * Nat.pow 10 e.toNat * Nat.pow 2 (-q).toNat)
    (b * Nat.pow 2 q.toNat * Nat.pow 10 (-e).toNat)

namespace Binary

/-- Whether `d * 10 ^ e` rounds to the number. -/
def admits (b : Binary) (d : Nat) (e : Int) : Bool :=
  let least := compareScaled d e (4 * b.significand - (if b.narrow then 1 else 2)) (b.exponent - 2)
  let greatest := compareScaled d e (4 * b.significand + 2) (b.exponent - 2)
  if b.significand % 2 = 0 then least.isGE && greatest.isLE else least.isGT && greatest.isLT

/-- The multiple of `10 ^ e` just below the number or equal to it, in units of `10 ^ e`. -/
def below (b : Binary) (e : Int) : Nat :=
  b.significand * Nat.pow 2 b.exponent.toNat * Nat.pow 10 (-e).toNat /
    (Nat.pow 2 (-b.exponent).toNat * Nat.pow 10 e.toNat)

/-- Of the two multiples of `10 ^ e` around the number, the one that rounds to it. -/
def onGrid (b : Binary) (e : Int) : Option Nat :=
  let d := b.below e
  match b.admits d e, b.admits (d + 1) e with
  | true, false => some d
  | false, true => some (d + 1)
  | true, true =>
    match compareScaled (2 * d + 1) e (2 * b.significand) b.exponent with
    | .lt => some (d + 1)
    | .gt => some d
    | .eq => some (if d % 2 = 0 then d else d + 1)
  | false, false => none

/-- The greatest `p` from `top` down, at most `steps` below it, with `10 ^ p` at most the number. -/
def decimalExponent (b : Binary) (top : Int) : Nat → Int
  | 0 => top
  | steps + 1 =>
    if (compareScaled 1 top b.significand b.exponent).isLE then top
    else b.decimalExponent (top - 1) steps

/-- The first grid with a hit, from one digit up to as many as `places`. -/
def firstGrid (b : Binary) (top : Int) : Nat → Nat × Int
  | 0 => (b.below top, top)
  | places + 1 =>
    match b.onGrid top with
    | some d => (d, top)
    | none => b.firstGrid (top - 1) places

/-- Digits and decimal exponent of the shortest decimal for a number above zero. -/
def shortest (b : Binary) : Nat × Int :=
  b.firstGrid (b.decimalExponent 308 632) 17

end Binary

/-! ## Text -/

/-- Digits of `d * 10 ^ e` without zeros at the end, and the exponent of the first digit. -/
def significantDigits (d : Nat) (e : Int) : List Char × Int :=
  let digits := Nat.toDigits 10 d
  let trimmed := (digits.reverse.dropWhile (· == '0')).reverse
  (trimmed, e + digits.length - 1)

/-- First digits, a point, the other digits; a point and a zero after a whole number. -/
def positional (digits : List Char) (exponent : Int) : List Char :=
  if exponent < 0 then
    ['0', '.'] ++ List.replicate ((-exponent).toNat - 1) '0' ++ digits
  else
    let whole := exponent.toNat + 1
    if digits.length ≤ whole then
      digits ++ List.replicate (whole - digits.length) '0' ++ ['.', '0']
    else digits.take whole ++ ['.'] ++ digits.drop whole

/-- One digit, the others after a point if there are any, and the exponent with its sign. -/
def scientific (digits : List Char) (exponent : Int) : List Char :=
  digits.take 1 ++ (if digits.length ≤ 1 then [] else '.' :: digits.drop 1) ++
    ['e', if exponent < 0 then '-' else '+'] ++ Nat.toDigits 10 exponent.natAbs

/-- The exponents of the first digit that are written with a plain point. -/
structure Style where
  least : Int
  greatest : Int

/-- Text of the finite number held in `bits`. -/
def Style.text (style : Style) (bits : UInt64) : String :=
  let sign := if bits.toNat ≥ Nat.pow 2 63 then "-" else ""
  let binary := Binary.ofBits bits
  if binary.significand = 0 then sign ++ "0.0"
  else
    let (d, e) := binary.shortest
    let (digits, exponent) := significantDigits d e
    let body :=
      if style.least ≤ exponent && exponent ≤ style.greatest then positional digits exponent
      else scientific digits exponent
    sign ++ String.ofList body

end CeylonFromJava.Decimal
