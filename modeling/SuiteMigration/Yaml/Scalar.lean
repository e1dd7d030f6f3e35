import SuiteMigration.Yaml.Reader
import SuiteMigration.Yaml.Token

/-!
# Scalars of a settings text

A scalar is written plain, between quotes, or as a block of lines. Plain and quoted scalars may go
on over several lines, and then the line ends between two words are folded: one becomes a space, and
of several all but the first are kept. A block is literal, which keeps its line ends, or folded.

Every function reads from its first character on and gives the text with the place after it, or
nothing if the scalar is not well formed.

## Main definitions

* `Gap`, `Gap.text` - what stands between two words of a scalar, and what it stands for
* `Reader.plain?` - a plain scalar
* `Reader.quoted?` - a scalar between quotes
* `Reader.block?` - a scalar as a block of lines
-/

namespace SuiteMigration.Yaml

/-! ### Gaps -/

/-- The blanks and line ends between two words of a scalar. -/
structure Gap where
  /-- The line end before the gap is escaped, so that the words are joined. -/
  escaped : Bool := false
  /-- The blanks before the first line end. -/
  blanks : List Char := []
  /-- The line ends. -/
  breaks : List (List Char) := []
  deriving DecidableEq, Repr

/-- Whether the second word stands on another line than the first. -/
def Gap.isBroken (gap : Gap) : Bool :=
  gap.escaped || !gap.breaks.isEmpty

/-- What a gap stands for. -/
def Gap.text (gap : Gap) : List Char :=
  if gap.escaped then gap.breaks.flatten
  else match gap.breaks with
    | [] => gap.blanks
    | [['\n']] => [' ']
    | ['\n'] :: later => later.flatten
    | breaks => breaks.flatten

/-- Reads a gap. A tab in front of a line is refused below the given column. -/
def Reader.gap? (indent : Nat) : Nat → Reader → Gap → Option (Gap × Reader)
  | 0, _, _ => none
  | fuel + 1, reader, gap =>
    match reader.ahead with
    | [] => some (gap, reader)
    | c :: _ =>
      if isBlank c then
        if gap.isBroken then
          if c == '\t' && reader.column < indent then none
          else reader.skip.gap? indent fuel gap
        else reader.skip.gap? indent fuel { gap with blanks := gap.blanks ++ [c] }
      else if isBreak c then
        let (lineEnd, after) := reader.lineBreak
        after.gap? indent fuel { gap with breaks := gap.breaks ++ [lineEnd] }
      else some (gap, reader)

/-! ### Plain scalars -/

/-- The next word of a plain scalar. It ends at a blank, at a colon before a blank and, inside
brackets, at a comma or bracket. Inside brackets a colon right before one of these is refused. -/
def plainWord? (inFlow : Bool) : List Char → Option (List Char)
  | [] => some []
  | c :: rest =>
    if isBlank c || isBreak c then some []
    else if inFlow && c == ':' && rest.head?.any (fun d => isFlowIndicator d || d == '?') then none
    else if (c == ':' && atSpace rest) || (inFlow && isFlowIndicator c) then some []
    else (plainWord? inFlow rest).map (c :: ·)

/-- The words of a plain scalar, after the text and the gap read so far. Outside brackets the scalar
ends at a line that is indented less than the given column. -/
def Reader.plainWords? (inFlow : Bool) (indent : Nat) :
    Nat → Reader → List Char → Gap → Option (List Char × Bool × Reader)
  | 0, _, _, _ => none
  | fuel + 1, reader, text, gap =>
    if reader.atMarker || reader.isAt '#' then some (text, gap.isBroken, reader)
    else do
      let word ← plainWord? inFlow reader.ahead
      let reader := reader.advance word.length
      let (text, gap) := if word.isEmpty then (text, gap) else (text ++ gap.text ++ word, {})
      if !reader.atAny (fun c => isBlank c || isBreak c) then
        some (text, gap.isBroken, reader)
      else
        let (gap, reader) ← reader.gap? indent (reader.ahead.length + 1) gap
        if !inFlow && reader.column < indent then some (text, gap.isBroken, reader)
        else reader.plainWords? inFlow indent fuel text gap

/-- A plain scalar, whether a line end comes after it, and the place after both. -/
def Reader.plain? (reader : Reader) (inFlow : Bool) (indent : Nat) :
    Option (List Char × Bool × Reader) :=
  reader.plainWords? inFlow indent (reader.ahead.length + 1) [] {}

/-! ### Quoted scalars -/

/-- The characters that are written as a backslash and one letter. -/
def escapes : List (Char × Char) :=
  [('0', '\x00'), ('a', '\x07'), ('b', '\x08'), ('t', '\t'), ('\t', '\t'), ('n', '\n'),
    ('v', '\x0b'), ('f', '\x0c'), ('r', '\r'), ('e', '\x1b'), (' ', ' '), ('"', '"'), ('/', '/'),
    ('\\', '\\'), ('N', '\u0085'), ('_', '\u00a0'), ('L', '\u2028'), ('P', '\u2029')]

/-- The character with the code point that the digits spell. -/
def hexChar? (digits : List Char) : Option Char := do
  let code ← hexNumber? digits
  if code.isValidChar then some (Char.ofNat code) else none

/-- A word between single quotes, and the number of characters that spell it. A quote inside is
written twice. -/
def singleWord : List Char → List Char × Nat
  | '\'' :: '\'' :: rest =>
    let (word, count) := singleWord rest
    ('\'' :: word, count + 2)
  | '\'' :: _ => ([], 0)
  | c :: rest =>
    if isBlank c || isBreak c then ([], 0)
    else
      let (word, count) := singleWord rest
      (c :: word, count + 1)
  | [] => ([], 0)

/-- A word between double quotes, and the number of characters that spell it. A backslash starts an
escape. Before a line end it ends the word. -/
def doubleWord? : List Char → Option (List Char × Nat)
  | '"' :: _ => some ([], 0)
  | '\\' :: 'x' :: a :: b :: rest => do
    let c ← hexChar? [a, b]
    let (word, count) ← doubleWord? rest
    some (c :: word, count + 4)
  | '\\' :: 'u' :: a :: b :: c :: d :: rest => do
    let c ← hexChar? [a, b, c, d]
    let (word, count) ← doubleWord? rest
    some (c :: word, count + 6)
  | '\\' :: 'U' :: a :: b :: c :: d :: e :: f :: g :: h :: rest => do
    let c ← hexChar? [a, b, c, d, e, f, g, h]
    let (word, count) ← doubleWord? rest
    some (c :: word, count + 10)
  | '\\' :: letter :: rest =>
    if isBreak letter then some ([], 0)
    else do
      let c ← escapes.lookup letter
      let (word, count) ← doubleWord? rest
      some (c :: word, count + 2)
  | ['\\'] => none
  | c :: rest =>
    if isBlank c || isBreak c then some ([], 0)
    else do
      let (word, count) ← doubleWord? rest
      some (c :: word, count + 1)
  | [] => some ([], 0)

/-- The words of a quoted scalar through its closing quote, after the text read so far. No marker
between documents stands inside. -/
def Reader.quotedWords? (quote : Char) :
    Nat → Reader → List Char → Option (List Char × Reader)
  | 0, _, _ => none
  | fuel + 1, reader, text => do
    if reader.atMarker then none
    let (word, count) ←
      if quote == '"' then doubleWord? reader.ahead else some (singleWord reader.ahead)
    let reader := reader.advance count
    if reader.ahead.isEmpty then none
    else if reader.isAt quote then some (text ++ word, reader.skip)
    else
      let escaped := reader.isAt '\\'
      let reader := if escaped then reader.skip.skipLine else reader
      let (gap, reader) ← reader.gap? 0 (reader.ahead.length + 1) { escaped }
      reader.quotedWords? quote fuel (text ++ word ++ gap.text)

/-- A scalar between quotes of the given kind, and the place after it. -/
def Reader.quoted? (reader : Reader) (quote : Char) : Option (List Char × Reader) :=
  reader.skip.quotedWords? quote (reader.ahead.length + 1) []

/-! ### Blocks of lines -/

/-- What becomes of the line ends at the end of a block. -/
inductive Chomping
  /-- All are dropped. -/
  | strip
  /-- One is kept. -/
  | clip
  /-- All are kept. -/
  | keep
  deriving DecidableEq, Repr

/-- The chomping that a sign stands for. -/
def Chomping.ofSign? (c : Char) : Option Chomping :=
  if c == '-' then some .strip else if c == '+' then some .keep else none

/-- The indentation that a digit stands for, and zero if the character is no digit. Nothing for a
zero. -/
def indentationOf? (c : Char) : Option Nat :=
  if c == '0' then none
  else if c.isDigit then some (c.toNat - '0'.toNat)
  else some 0

/-- The signs after the indicator of a block: its chomping, its indentation or zero, and the number
of signs. -/
def blockSigns? : List Char → Option (Chomping × Nat × Nat)
  | [] => some (.clip, 0, 0)
  | c :: rest =>
    match Chomping.ofSign? c with
    | some chomping => do
      let indent ← (rest.head?.map indentationOf?).getD (some 0)
      some (chomping, indent, if indent = 0 then 1 else 2)
    | none => do
      let indent ← indentationOf? c
      if indent = 0 then some (.clip, 0, 0)
      else match rest.head?.bind Chomping.ofSign? with
        | some chomping => some (chomping, indent, 2)
        | none => some (.clip, indent, 1)

/-- The empty lines here and the spaces in front of the line after them, up to the given column or,
if it is zero, all of them. Gives the largest column reached. A tab among these spaces is refused. -/
def Reader.emptyLines? (indent : Nat) :
    Nat → Reader → (widest : Nat) → (breaks : List Char) → Option (Nat × List Char × Reader)
  | 0, _, _, _ => none
  | fuel + 1, reader, widest, breaks =>
    let spaces := (reader.ahead.takeWhile (· == ' ')).length
    let reader :=
      reader.advance (if indent = 0 then spaces else min spaces (indent - reader.column))
    let widest := max widest reader.column
    if (indent = 0 || reader.column < indent) && reader.isAt '\t' then none
    else if reader.atAny isBreak then
      let (lineEnd, after) := reader.lineBreak
      after.emptyLines? indent fuel widest (breaks ++ lineEnd)
    else some (widest, breaks, reader)

/-- The state of reading the lines of a block. -/
structure BlockText where
  text : List Char := []
  /-- The end of the last line. -/
  lineEnd : List Char := []
  /-- The ends of the empty lines after it. -/
  emptyEnds : List Char
  /-- The last line starts with a blank. -/
  startsBlank : Bool := false

/-- What joins the next line to the text. Lines are folded if neither starts with a blank. -/
def BlockText.joint (block : BlockText) (literal nextBlank : Bool) : List Char :=
  if !literal && block.lineEnd == ['\n'] && !block.startsBlank && !nextBlank then
    if block.emptyEnds.isEmpty then [' '] else block.emptyEnds
  else block.lineEnd ++ block.emptyEnds

/-- The lines of a block that are indented to the given column. -/
def Reader.blockLines? (literal : Bool) (indent : Nat) :
    Nat → Reader → BlockText → Option (BlockText × Reader)
  | 0, _, _ => none
  | fuel + 1, reader, block =>
    if reader.column = indent && !reader.ahead.isEmpty then do
      let startsBlank := reader.atAny isBlank
      let line := reader.ahead.takeWhile (!isBreak ·)
      let (lineEnd, after) := (reader.advance line.length).lineBreak
      let (_, emptyEnds, after) ← after.emptyLines? indent (after.ahead.length + 1) 0 []
      after.blockLines? literal indent fuel
        { text := block.text ++ block.joint literal startsBlank ++ line
          lineEnd, emptyEnds, startsBlank }
    else some (block, reader)

/-- A scalar as a block of lines, and the place after it. The columns are those of the collections by
indentation that are open, the innermost first. -/
def Reader.block? (reader : Reader) (literal : Bool) (columns : List Nat) :
    Option (List Char × Reader) := do
  let (chomping, shift, count) ← blockSigns? (reader.ahead.drop 1)
  let reader ← (reader.advance (count + 1)).restOfLine?
  let given := if shift = 0 then 0 else columns.headD 0 + shift
  let (widest, emptyEnds, reader) ← reader.emptyLines? given (reader.ahead.length + 1) 0 []
  let least := (columns.head?.map (· + 1)).getD 0
  let indent := if given = 0 then max (max widest least) 1 else given
  let (block, reader) ←
    reader.blockLines? literal indent (reader.ahead.length + 1) { emptyEnds }
  let tail := match chomping with
    | .strip => []
    | .clip => block.lineEnd
    | .keep => block.lineEnd ++ block.emptyEnds
  some (block.text ++ tail, reader)

end SuiteMigration.Yaml
