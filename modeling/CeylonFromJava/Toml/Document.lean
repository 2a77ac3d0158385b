import CeylonFromJava.Toml.Scanner
import CeylonFromJava.Toml.Table

/-! The TOML text form: keys, values, lines, and whole documents. Nesting has a limit: a key has
fewer than `nestingLimit` names, and fewer than that many brackets and braces are open at once. -/
namespace CeylonFromJava.Toml
set_option autoImplicit false
open Scanner

def nestingLimit : Nat := 80

/-! ## Blanks and line ends -/

def isBlank (c : Char) : Bool := c == ' ' || c == '\t'

/-- What may stand in a comment or a text: no control character but the tab. -/
def isPlain (c : Char) : Bool := c == '\t' || (' ' ≤ c && c != '\x7f')

def blanks : Scanner Unit := do
  let _ ← span isBlank

def newline : Scanner Unit := char '\n' <|> word "\r\n"

def comment : Scanner Unit := do
  char '#'
  let _ ← span isPlain

def lineEnd : Scanner Unit := newline <|> eof

/-- What may follow an assignment or a header on its line. -/
def lineRest : Scanner Unit := do
  blanks
  let _ ← Scanner.optional comment
  lineEnd

/-- Blanks, line ends and comments between the items of an array. -/
def gap : Scanner Unit := do
  let _ ← many ((do let _ ← one isBlank) <|> newline <|> (do comment; newline))

/-! ## Texts -/

def isHex (c : Char) : Bool :=
  c.isDigit || ('a' ≤ c && c ≤ 'f') || ('A' ≤ c && c ≤ 'F')

def digitValue (c : Char) : Nat :=
  if c.isDigit then c.toNat - 48 else if c ≤ 'F' then c.toNat - 55 else c.toNat - 87

def natural (base : Nat) (digits : List Char) : Nat :=
  digits.foldl (fun n c => n * base + digitValue c) 0

/-- A character by its number in `n` hexadecimal digits. -/
def numbered (n : Nat) : Scanner Char := do
  let code := natural 16 (← exactly n isHex)
  if code.isValidChar then return Char.ofNat code else failure

def escape : Scanner Char := do
  char '\\'
  match ← one fun _ => true with
  | 'b' => return '\x08'
  | 't' => return '\t'
  | 'n' => return '\n'
  | 'f' => return '\x0c'
  | 'r' => return '\r'
  | '"' => return '"'
  | '\\' => return '\\'
  | 'u' => numbered 4
  | 'U' => numbered 8
  | _ => failure

def basicText : Scanner String := do
  char '"'
  let cs ← many (one (fun c => isPlain c && c != '"' && c != '\\') <|> escape)
  char '"'
  return String.ofList cs

def literalText : Scanner String := do
  char '\''
  let cs ← span fun c => isPlain c && c != '\''
  char '\''
  return String.ofList cs

/-- One or two quotes inside a text of several lines. Three end it. -/
def innerQuotes (quote : Char) : Scanner (List Char) :=
  only (fun cs => 0 < cs.length && cs.length < 3) (span (· == quote))

/-- The quotes that end a text of several lines: three, and up to two of the text before them. -/
def closingQuotes (quote : Char) : Scanner (List Char) := do
  let cs ← only (fun cs => 3 ≤ cs.length && cs.length ≤ 5) (span (· == quote))
  return cs.drop 3

/-- A line end inside a text of several lines, however it is written. -/
def innerNewline : Scanner (List Char) := do
  newline
  return ['\n']

/-- A backslash at the end of a line joins it with the next text, over blanks and empty lines. -/
def lineJoin : Scanner (List Char) := do
  char '\\'
  blanks
  newline
  let _ ← many ((do let _ ← one isBlank) <|> newline)
  return []

/-- A text of several lines between triple quotes. A line end right after the opening quotes is not
part of it. -/
def longText (quote : Char) (piece : Scanner (List Char)) : Scanner String := do
  let _ ← exactly 3 (· == quote)
  let _ ← Scanner.optional newline
  let pieces ← many (piece <|> innerNewline <|> innerQuotes quote)
  let last ← closingQuotes quote
  return String.ofList (pieces.flatten ++ last)

def longBasicText : Scanner String :=
  longText '"'
    ((List.singleton <$> one (fun c => isPlain c && c != '"' && c != '\\')) <|> lineJoin
      <|> (List.singleton <$> escape))

def longLiteralText : Scanner String :=
  longText '\'' (List.singleton <$> one (fun c => isPlain c && c != '\''))

def text : Scanner String := longBasicText <|> basicText <|> longLiteralText <|> literalText

/-! ## Keys -/

def isBare (c : Char) : Bool := c.isAlphanum || c == '-' || c == '_'

def keyName : Scanner String := do
  blanks
  let name ← basicText <|> literalText <|>
    (String.ofList <$> only (fun cs => !cs.isEmpty) (span isBare))
  blanks
  return name

def key : Scanner Key := do
  let first ← keyName
  let more ← many (do
    char '.'
    keyName)
  if more.length + 1 < nestingLimit then
    match more.getLast? with
    | none => return ⟨[], first⟩
    | some last => return ⟨first :: more.dropLast, last⟩
  else failure

/-! ## Numbers and moments -/

/-- Digits, with single underscores between them left out. -/
def digits (p : Char → Bool) : Scanner (List Char) := do
  let first ← one p
  let more ← many (one p <|> (do
    char '_'
    one p))
  return first :: more

/-- Is there a minus sign? A plus sign counts for nothing. -/
def sign : Scanner Bool := do
  match ← Scanner.optional (one fun c => c == '+' || c == '-') with
  | some '-' => return true
  | _ => return false

/-- A decimal whole number: its sign and its digits, without leading zeros. -/
def whole : Scanner (Bool × List Char) := do
  let negative ← sign
  let ds ← digitsOrZero
  return (negative, ds)
where
  digitsOrZero : Scanner (List Char) :=
    only (fun ds => ds.head? != some '0') (digits Char.isDigit)
      <|> (List.singleton <$> one Char.isDigit)

/-- A whole number in 64 bits. -/
def integer : Scanner Int :=
  only (fun i => -(Nat.pow 2 63 : Int) ≤ i && i < (Nat.pow 2 63 : Int))
    (based "0x" 16 isHex <|> based "0o" 8 (fun c => '0' ≤ c && c ≤ '7')
      <|> based "0b" 2 (fun c => c == '0' || c == '1')
      <|> (do
        let (negative, ds) ← whole
        let n : Int := natural 10 ds
        return if negative then -n else n))
where
  based (mark : String) (base : Nat) (p : Char → Bool) : Scanner Int := do
    word mark
    return (natural base (← digits p) : Int)

/-- Is `significand * 10 ^ exponent` so large that the nearest double is infinite? -/
def overflows (significand : Nat) (exponent : Int) : Bool :=
  let size : Int := (Nat.toDigits 10 significand).length + exponent
  if significand == 0 || size < 309 then false
  else if 309 < size then true
  else
    let bound := Nat.pow 2 1024 - Nat.pow 2 970
    match exponent with
    | .ofNat e => bound ≤ significand * Nat.pow 10 e
    | .negSucc e => bound * Nat.pow 10 (e + 1) ≤ significand

/-- A number with a fraction, an exponent or both. Only a positive one can be too large. -/
def decimal : Scanner Unit := do
  let (negative, ds) ← whole
  let (fraction, exponent) ← (do return ([], ← power)) <|> (do
    char '.'
    let fraction ← digits Char.isDigit
    return (fraction, (← Scanner.optional power).getD 0))
  if !negative && overflows (natural 10 (ds ++ fraction)) (exponent - fraction.length) then failure
where
  power : Scanner Int := do
    let _ ← one fun c => c == 'e' || c == 'E'
    let negative ← sign
    let n : Int := natural 10 (← digits Char.isDigit)
    return if negative then -n else n

/-- A number that is not whole, or one of the special values. -/
def real : Scanner Unit := decimal <|> (do
  let _ ← sign
  word "inf" <|> word "nan")

/-- A number of `n` digits from `least` to `greatest`. -/
def ranged (n least greatest : Nat) : Scanner Nat :=
  only (fun v => least ≤ v && v ≤ greatest) (natural 10 <$> exactly n Char.isDigit)

def daysIn (year month : Nat) : Nat :=
  if month = 2 then
    if year % 4 = 0 && (year % 100 != 0 || year % 400 = 0) then 29 else 28
  else if month = 4 || month = 6 || month = 9 || month = 11 then 30
  else 31

def date : Scanner Unit := do
  let year ← ranged 4 0 9999
  char '-'
  let month ← ranged 2 1 12
  char '-'
  let _ ← ranged 2 1 (daysIn year month)

def clock : Scanner Unit := do
  let _ ← ranged 2 0 23
  char ':'
  let _ ← ranged 2 0 59
  char ':'
  let _ ← ranged 2 0 60
  let _ ← Scanner.optional (do
    char '.'
    only (fun ds => !ds.isEmpty) (span Char.isDigit))

def timeZone : Scanner Unit := (do let _ ← one fun c => c == 'Z' || c == 'z') <|> (do
  let _ ← one fun c => c == '+' || c == '-'
  let _ ← ranged 2 0 23
  char ':'
  let _ ← ranged 2 0 59)

/-- A date, a time of day, or both with or without a time zone. -/
def moment : Scanner Unit := (do
    date
    let _ ← Scanner.optional (do
      let _ ← one fun c => c == 'T' || c == 't' || c == ' '
      clock
      let _ ← Scanner.optional timeZone))
  <|> clock

/-! ## Values -/

def scalar : Scanner Value :=
  (.text <$> text) <|> ((fun (_, s) => .moment s) <$> spelling moment)
    <|> ((fun (_, s) => .real s) <$> spelling real) <|> (.integer <$> integer)
    <|> (do word "true"; return .bool true) <|> (do word "false"; return .bool false)

def array (item : Scanner Value) : Scanner Value := do
  char '['
  let items ← commaSeparated (do
    gap
    let v ← item
    gap
    return v)
  if !items.isEmpty then
    let _ ← Scanner.optional (char ',')
  gap
  char ']'
  return .array items

/-- A key, its value, and the blanks around them. -/
def assignment (item : Scanner Value) : Scanner Assignment := do
  let k ← key
  char '='
  blanks
  let v ← item
  blanks
  return ⟨k, v⟩

def inlineTable (item : Scanner Value) : Scanner Value := do
  char '\x7b'
  let as ← commaSeparated (assignment item)
  blanks
  char '\x7d'
  match Entries.assignAll [] as with
  | some es => return .table .inline es
  | none => failure

/-- A value with at most `depth` brackets and braces open at once. -/
def value : (depth : Nat) → Scanner Value
  | 0 => scalar
  | depth + 1 => scalar <|> array (value depth) <|> inlineTable (value depth)

/-! ## Documents -/

inductive Line where
  | empty
  | header (h : Header)
  | assignment (a : Assignment)

def tableHeader : Scanner Header := do
  char '['
  let k ← key
  char ']'
  lineRest
  return .table k

def elementHeader : Scanner Header := do
  word "[["
  let k ← key
  word "]]"
  lineRest
  return .element k

def line : Scanner Line := do
  let l ← (do comment; lineEnd; return .empty) <|> (do newline; return .empty)
    <|> (.header <$> elementHeader) <|> (.header <$> tableHeader)
    <|> (do
      let a ← assignment (value (nestingLimit - 1))
      lineRest
      return .assignment a)
  blanks
  return l

/-- Cuts lines into sections, one more at each header. `current` is the section they go on with. -/
def sections (current : Section) : List Line → List Section
  | [] => [current]
  | .empty :: ls => sections current ls
  | .assignment a :: ls => sections ⟨current.header, current.assignments ++ [a]⟩ ls
  | .header h :: ls => current :: sections ⟨some h, []⟩ ls

def document : Scanner (List Line) := do
  let _ ← Scanner.optional (char '\uFEFF')
  blanks
  let ls ← many line
  eof
  return ls

/-- The root table of a document; `none` for a text that is not one. -/
def parse? (source : String) : Option Entries := do
  let (ls, _) ← document.run source.toList
  Entries.ofSections (sections ⟨none, []⟩ ls)

end CeylonFromJava.Toml
