import CeylonFromJava.Json.Fault

/-! String literals, from after the opening quote. `readString` gives the text and wants surrogates
in pairs; `skipString` only walks to the closing quote, for values that nobody asked for, and lets
any four hexadecimal digits pass. Both go through the characters once, with a state for where
inside an escape they are. -/
namespace CeylonFromJava.Json
set_option autoImplicit false

/-- Where a reader stands: outside escapes, after a backslash, inside the digits of a code with
`left` of them to come, or between the two codes of a surrogate pair whose first is `high`. -/
inductive LiteralState where
  | plain
  | escape
  | code (high : Option Nat) (left : Nat) (value : Nat)
  | pairBackslash (high : Nat)
  | pairLetter (high : Nat)

/-- The character that a one-letter escape stands for. -/
def shortEscape : Char → Option Char
  | '"' => some '"'
  | '\\' => some '\\'
  | '/' => some '/'
  | 'b' => some '\x08'
  | 'f' => some '\x0c'
  | 'n' => some '\n'
  | 'r' => some '\r'
  | 't' => some '\t'
  | _ => none

def hexValue (c : Char) : Option Nat :=
  if '0' ≤ c ∧ c ≤ '9' then some (c.toNat - 48)
  else if 'a' ≤ c ∧ c ≤ 'f' then some (c.toNat - 87)
  else if 'A' ≤ c ∧ c ≤ 'F' then some (c.toNat - 55)
  else none

/-- Whether fewer than four bytes are left, too few for a code. -/
def endsInsideCode (cs : List Char) : Bool :=
  (cs.take 4).foldl (fun n c => n + c.utf8Size) 0 < 4

def isHighSurrogate (n : Nat) : Bool := 0xd800 ≤ n && n ≤ 0xdbff

def isLowSurrogate (n : Nat) : Bool := 0xdc00 ≤ n && n ≤ 0xdfff

def pairedChar (high low : Nat) : Char :=
  Char.ofNat (0x10000 + (high - 0xd800) * 0x400 + (low - 0xdc00))

/-- Puts `c` in front of the text that was read. -/
def prepend (c : Char) (result : Except Fault (List Char × List Char)) :
    Except Fault (List Char × List Char) :=
  match result with
  | .ok (text, rest) => .ok (c :: text, rest)
  | .error fault => .error fault

/-- The text up to the closing quote, and what follows the quote. -/
def readStringFrom : LiteralState → List Char → Except Fault (List Char × List Char)
  | _, [] => .error .eofString
  | .plain, c :: cs =>
    if c = '"' then .ok ([], cs)
    else if c = '\\' then readStringFrom .escape cs
    else if c.toNat < 0x20 then .error .controlCharacter
    else prepend c (readStringFrom .plain cs)
  | .escape, c :: cs =>
    match shortEscape c with
    | some d => prepend d (readStringFrom .plain cs)
    | none =>
      if c ≠ 'u' then .error .invalidEscape
      else if endsInsideCode cs then .error .eofString
      else readStringFrom (.code none 3 0) cs
  | .code high left value, c :: cs =>
    match hexValue c with
    | none => .error .invalidEscape
    | some d =>
      let value := value * 16 + d
      match left, high with
      | left + 1, _ => readStringFrom (.code high left value) cs
      | 0, none =>
        if isLowSurrogate value then .error .loneLeadingSurrogate
        else if isHighSurrogate value then readStringFrom (.pairBackslash value) cs
        else prepend (Char.ofNat value) (readStringFrom .plain cs)
      | 0, some high =>
        if isLowSurrogate value then prepend (pairedChar high value) (readStringFrom .plain cs)
        else .error .loneLeadingSurrogate
  | .pairBackslash high, c :: cs =>
    if c = '\\' then readStringFrom (.pairLetter high) cs else .error .unexpectedEndOfHexEscape
  | .pairLetter high, c :: cs =>
    if c ≠ 'u' then .error .unexpectedEndOfHexEscape
    else if endsInsideCode cs then .error .eofString
    else readStringFrom (.code (some high) 3 0) cs

def readString (cs : List Char) : Except Fault (String × List Char) :=
  match readStringFrom .plain cs with
  | .ok (text, rest) => .ok (String.ofList text, rest)
  | .error fault => .error fault

/-! ## Skipping -/

/-- Where a skipper stands: outside escapes, after a backslash, or inside the digits of a code. -/
inductive SkipState where
  | plain
  | escape
  | code (left : Nat)

/-- What follows the closing quote. -/
def skipStringFrom : SkipState → List Char → Except Fault (List Char)
  | _, [] => .error .eofString
  | .plain, c :: cs =>
    if c = '"' then .ok cs
    else if c = '\\' then skipStringFrom .escape cs
    else if c.toNat < 0x20 then .error .controlCharacter
    else skipStringFrom .plain cs
  | .escape, c :: cs =>
    if (shortEscape c).isSome then skipStringFrom .plain cs
    else if c ≠ 'u' then .error .invalidEscape
    else if endsInsideCode cs then .error .eofString
    else skipStringFrom (.code 3) cs
  | .code left, c :: cs =>
    match hexValue c, left with
    | none, _ => .error .invalidEscape
    | some _, left + 1 => skipStringFrom (.code left) cs
    | some _, 0 => skipStringFrom .plain cs

def skipString (cs : List Char) : Except Fault (List Char) :=
  skipStringFrom .plain cs

end CeylonFromJava.Json
