import CeylonFromJava.Json.Number
import CeylonFromJava.Json.StringLiteral

/-! What a JSON text holds, faults included.

A text is scanned once, without knowing what a reader will ask of it. The result is a tree that ends
where the syntax breaks down: every list and object says what stopped it, and a value that is no
value says why. A decoder that walks the tree from left to right then meets the faults in the order
of the text, and a fault in a part it never looks at stays unreported. -/
namespace CeylonFromJava.Json
set_option autoImplicit false

/-- What ended a list: its bracket, a comma before the bracket, a missing separator (at the end of
the text or not), or its last item, which is broken. -/
inductive ArrayStop where
  | closed
  | danglingComma
  | noSeparator (atEnd : Bool)
  | cut

/-- What ended an object: its brace, a comma before the brace, something else than a key (or the end
of the text), a key that is a broken literal, a key without colon, a missing separator, or its last
value, which is broken. The two faults of a broken key are those for a reader and for a skipper. -/
inductive ObjectStop where
  | closed
  | danglingComma
  | noKey (atEnd : Bool)
  | brokenKey (read skip : Fault)
  | noColon (key : Except Fault String) (atEnd : Bool)
  | noSeparator (atEnd : Bool)
  | cut

/-- A scanned value. Literals that are well formed but cannot be read, such as a number out of
range, hold their fault and the scan goes on behind them; broken ones end it. -/
inductive Scan where
  | null
  | bool (b : Bool)
  | number (value : Except Fault Number)
  | string (text : Except Fault String)
  | array (items : List Scan) (stop : ArrayStop)
  | object (members : List (Except Fault String × Scan)) (stop : ObjectStop)
  | brokenNull (fault : Fault)
  | brokenBool (fault : Fault)
  | brokenNumber (read skip : Fault)
  | brokenString (read skip : Fault)
  | nothing (atEnd : Bool)

instance : Inhabited Scan := ⟨.null⟩

/-- What a reader that wants something else reports about a value. -/
def Scan.found : Scan → Except Fault Found
  | .null => .ok .null
  | .bool b => .ok (.bool b)
  | .number value => value.map .number
  | .string text => text.map .string
  | .array _ _ => .ok .sequence
  | .object _ _ => .ok .map
  | .brokenNull fault | .brokenBool fault => .error fault
  | .brokenNumber read _ | .brokenString read _ => .error read
  | .nothing true => .error .eofValue
  | .nothing false => .error .expectedValue

/-! ## Skipping a value -/

/-- The fault of an unfinished list that nobody asked for. -/
def ArrayStop.skip : ArrayStop → Except Fault Unit
  | .closed | .cut => .ok ()
  | .danglingComma => .error .expectedValue
  | .noSeparator true => .error .eofList
  | .noSeparator false => .error .expectedListCommaOrEnd

/-- The fault of an unfinished object that nobody asked for. -/
def ObjectStop.skip : ObjectStop → Except Fault Unit
  | .closed | .cut => .ok ()
  | .danglingComma | .noKey false => .error .keyMustBeString
  | .noKey true | .noColon _ true | .noSeparator true => .error .eofObject
  | .brokenKey _ skip => .error skip
  | .noColon _ false => .error .expectedColon
  | .noSeparator false => .error .expectedObjectCommaOrEnd

mutual
/-- Walks over a value that nobody asked for; only its syntax matters. -/
def Scan.skip : Scan → Except Fault Unit
  | .null | .bool _ | .number _ | .string _ => .ok ()
  | .array items stop => do
    skipItems items
    stop.skip
  | .object members stop => do
    skipMembers members
    stop.skip
  | .brokenNull fault | .brokenBool fault => .error fault
  | .brokenNumber _ skip | .brokenString _ skip => .error skip
  | .nothing true => .error .eofValue
  | .nothing false => .error .expectedValue

def skipItems : List Scan → Except Fault Unit
  | [] => .ok ()
  | x :: xs => do
    x.skip
    skipItems xs

def skipMembers : List (Except Fault String × Scan) → Except Fault Unit
  | [] => .ok ()
  | (_, x) :: xs => do
    x.skip
    skipMembers xs
end

/-! ## Scanning -/

def isBlank (c : Char) : Bool := c == ' ' || c == '\n' || c == '\t' || c == '\r'

def dropBlanks (cs : List Char) : List Char := cs.dropWhile isBlank

/-- Wants the letters of `word` next. -/
def expectWord : List Char → List Char → Except Fault (List Char)
  | [], cs => .ok cs
  | _ :: _, [] => .error .eofValue
  | w :: ws, c :: cs => if c = w then expectWord ws cs else .error .expectedIdent

/-- A literal that is a word, after its first letter. -/
def scanWord (word : String) (value : Scan) (broken : Fault → Scan) (cs : List Char) :
    Scan × Option (List Char) :=
  match expectWord word.toList cs with
  | .ok rest => (value, some rest)
  | .error fault => (broken fault, none)

/-- A string literal, after its opening quote. -/
def scanString (cs : List Char) : Scan × Option (List Char) :=
  match readString cs, skipString cs with
  | .ok (text, rest), _ => (.string (.ok text), some rest)
  | .error fault, .ok rest => (.string (.error fault), some rest)
  | .error read, .error skip => (.brokenString read skip, none)

def scanNumber (cs : List Char) : Scan × Option (List Char) :=
  match readNumber cs, skipNumber cs with
  | .ok (n, rest), _ => (.number (.ok n), some rest)
  | .error fault, .ok rest => (.number (.error fault), some rest)
  | .error read, .error skip => (.brokenNumber read skip, none)

/-- A value that is neither list nor object. -/
def scanScalar : List Char → Scan × Option (List Char)
  | [] => (.nothing true, none)
  | c :: cs =>
    match c with
    | 'n' => scanWord "ull" .null .brokenNull cs
    | 't' => scanWord "rue" (.bool true) .brokenBool cs
    | 'f' => scanWord "alse" (.bool false) .brokenBool cs
    | '"' => scanString cs
    | c => if c = '-' || c.isDigit then scanNumber (c :: cs) else (.nothing false, none)

mutual
/-- The value at the front, and what follows it unless the scan ended inside. -/
def scanValue : Nat → List Char → Scan × Option (List Char)
  | 0, _ => (.nothing true, none)
  | fuel + 1, cs =>
    match dropBlanks cs with
    | '[' :: cs =>
      match dropBlanks cs with
      | [] => (.array [] (.noSeparator true), none)
      | ']' :: rest => (.array [] .closed, some rest)
      | cs =>
        let (items, stop, rest) := scanItems fuel cs
        (.array items stop, rest)
    | '\x7b' :: cs =>
      match dropBlanks cs with
      | '\x7d' :: rest => (.object [] .closed, some rest)
      | cs =>
        let (members, stop, rest) := scanMembers fuel cs
        (.object members stop, rest)
    | cs => scanScalar cs

/-- The items of a list from one of them on. -/
def scanItems : Nat → List Char → List Scan × ArrayStop × Option (List Char)
  | 0, _ => ([], .cut, none)
  | fuel + 1, cs =>
    match scanValue fuel cs with
    | (item, none) => ([item], .cut, none)
    | (item, some cs) =>
      match dropBlanks cs with
      | [] => ([item], .noSeparator true, none)
      | ']' :: rest => ([item], .closed, some rest)
      | ',' :: cs =>
        match dropBlanks cs with
        | ']' :: _ => ([item], .danglingComma, none)
        | cs =>
          let (items, stop, rest) := scanItems fuel cs
          (item :: items, stop, rest)
      | _ => ([item], .noSeparator false, none)

/-- The members of an object from a key on. -/
def scanMembers : Nat → List Char →
    List (Except Fault String × Scan) × ObjectStop × Option (List Char)
  | 0, _ => ([], .cut, none)
  | fuel + 1, cs =>
    match cs with
    | '"' :: cs =>
      match scanString cs with
      | (.string key, some cs) =>
        match dropBlanks cs with
        | ':' :: cs =>
          match scanValue fuel cs with
          | (value, none) => ([(key, value)], .cut, none)
          | (value, some cs) =>
            match dropBlanks cs with
            | [] => ([(key, value)], .noSeparator true, none)
            | '\x7d' :: rest => ([(key, value)], .closed, some rest)
            | ',' :: cs =>
              match dropBlanks cs with
              | '\x7d' :: _ => ([(key, value)], .danglingComma, none)
              | cs =>
                let (members, stop, rest) := scanMembers fuel cs
                ((key, value) :: members, stop, rest)
            | _ => ([(key, value)], .noSeparator false, none)
        | cs => ([], .noColon key cs.isEmpty, none)
      | (.brokenString read skip, _) => ([], .brokenKey read skip, none)
      | (_, _) => ([], .cut, none)
    | cs => ([], .noKey cs.isEmpty, none)
end

/-- The value at the front of a text, and what follows it. Each step of the scan takes a character
or is followed by one that does, so twice the length is never used up. -/
def Scan.ofChars (cs : List Char) : Scan × Option (List Char) :=
  scanValue (2 * cs.length + 2) cs

end CeylonFromJava.Json
