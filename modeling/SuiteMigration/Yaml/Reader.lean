/-!
# Reading settings texts

A settings text is read character by character. The reader keeps count of characters, lines and
columns, because indentation and the extent of a key have a meaning.

The program leaves settings texts to the library `serde_yaml`, which reads YAML 1.1 with a port of
the reference scanner. The modules under `Yaml` follow that scanner, with its limits on simple keys
and on what a document may hold, as far as a settings text can show it.

## Main definitions

* `isBreak`, `isBlank`, `atSpace` - what separates tokens
* `isPrintable` - the characters that may occur at all
* `Reader` - a place in a text
* `Reader.advance`, `Reader.skipLine`, `Reader.lineBreak`, `Reader.restOfLine?` - moving on
* `Reader.atMarker` - whether a line here divides documents
-/

namespace SuiteMigration.Yaml

/-! ### Characters -/

/-- Whether the character ends a line. -/
def isBreak (c : Char) : Bool :=
  c ∈ ['\n', '\r', '\u0085', '\u2028', '\u2029']

/-- Whether the character separates tokens within a line. -/
def isBlank (c : Char) : Bool :=
  c == ' ' || c == '\t'

/-- Whether the characters start with a blank, a line end or the end of the text. -/
def atSpace : List Char → Bool
  | [] => true
  | c :: _ => isBlank c || isBreak c

/-- Whether a character may stand in a settings text. -/
def isPrintable (c : Char) : Bool :=
  let n := c.toNat
  n == 0x9 || n == 0xA || n == 0xD || (0x20 ≤ n && n ≤ 0x7E) || n == 0x85 ||
    (0xA0 ≤ n && n ≤ 0xFFFD) || 0x10000 ≤ n

/-- Whether the character may stand in a name of an anchor, a handle or a directive. -/
def isWordChar (c : Char) : Bool :=
  c.isAlphanum || c == '_' || c == '-'

/-- Whether the character divides or closes collections in brackets. -/
def isFlowIndicator (c : Char) : Bool :=
  c ∈ [',', '[', ']', '\x7b', '\x7d']

/-- Whether a character has a meaning of its own at the start of a token, so that no plain scalar
starts with it. -/
def isIndicator (c : Char) : Bool :=
  isFlowIndicator c ||
    c ∈ ['-', '?', ':', '#', '&', '*', '!', '|', '>', '\'', '"', '%', '@', '\x60']

/-- The value of a hexadecimal digit. -/
def hexDigit? (c : Char) : Option Nat :=
  if '0' ≤ c ∧ c ≤ '9' then some (c.toNat - '0'.toNat)
  else if 'a' ≤ c ∧ c ≤ 'f' then some (c.toNat - 'a'.toNat + 10)
  else if 'A' ≤ c ∧ c ≤ 'F' then some (c.toNat - 'A'.toNat + 10)
  else none

/-- The number that hexadecimal digits spell. -/
def hexNumber? (digits : List Char) : Option Nat :=
  digits.foldlM (fun value digit => (hexDigit? digit).map (value * 16 + ·)) 0

/-! ### Places -/

/-- A place in a text. -/
structure Reader where
  /-- The characters still to read. -/
  ahead : List Char
  /-- The number of characters read. -/
  index : Nat := 0
  /-- The number of lines read. -/
  line : Nat := 0
  /-- The number of characters read of the current line. -/
  column : Nat := 0
  deriving DecidableEq, Repr

namespace Reader

/-- The place a number of characters further on the same line. -/
def advance (reader : Reader) (count : Nat) : Reader :=
  { reader with
    ahead := reader.ahead.drop count
    index := reader.index + count
    column := reader.column + count }

/-- The place after one character of the line. -/
def skip (reader : Reader) : Reader :=
  reader.advance 1

/-- The place after all characters of the line that satisfy a condition, up to the first that does
not. -/
def skipWhile (reader : Reader) (holds : Char → Bool) : Reader :=
  reader.advance (reader.ahead.takeWhile holds).length

/-- Whether the next character is the given one. -/
def isAt (reader : Reader) (c : Char) : Bool :=
  reader.ahead.head? == some c

/-- Whether the next character satisfies a condition. At the end none does. -/
def atAny (reader : Reader) (holds : Char → Bool) : Bool :=
  reader.ahead.head?.any holds

/-- The place at the start of the next line, from a line end. A carriage return with a line feed is
one line end. -/
def skipLine (reader : Reader) : Reader :=
  let count := match reader.ahead with
    | '\r' :: '\n' :: _ => 2
    | _ => 1
  { ahead := reader.ahead.drop count, index := reader.index + count, line := reader.line + 1 }

/-- The line end that a scalar keeps of the one here, if there is one, and the place after it. Most
line ends are kept as line feeds. -/
def lineBreak (reader : Reader) : List Char × Reader :=
  match reader.ahead with
  | [] => ([], reader)
  | c :: _ =>
    if c == '\u2028' || c == '\u2029' then ([c], reader.skipLine)
    else if isBreak c then (['\n'], reader.skipLine)
    else ([], reader)

/-- The place at the start of the next line, if nothing but blanks and a comment is left of this
one. -/
def restOfLine? (reader : Reader) : Option Reader :=
  let reader := reader.skipWhile isBlank
  let reader := if reader.isAt '#' then reader.skipWhile (!isBreak ·) else reader
  if reader.ahead.isEmpty then some reader
  else if reader.atAny isBreak then some reader.skipLine
  else none

/-- Whether three of the given character stand alone at the start of a line here. -/
def atMarkerOf (reader : Reader) (mark : Char) : Bool :=
  reader.column == 0 && match reader.ahead with
    | a :: b :: c :: rest => a == mark && b == mark && c == mark && atSpace rest
    | _ => false

/-- Whether a marker between documents stands here. -/
def atMarker (reader : Reader) : Bool :=
  reader.atMarkerOf '-' || reader.atMarkerOf '.'

end Reader

end SuiteMigration.Yaml
