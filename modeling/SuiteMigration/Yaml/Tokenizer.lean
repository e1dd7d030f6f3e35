import SuiteMigration.Yaml.Property
import SuiteMigration.Yaml.Scalar

/-!
# Tokenizing settings texts

The tokens of a settings text. Outside brackets, collections are recognised by indentation: a token
at a new column opens one, and a token left of it closes it. A key need not be marked as one. The
tokenizer remembers where one could start, and once a colon follows it on the same line, the marks
are put in front of it.

## Main definitions

* `PossibleKey` - a place where an unmarked key could start
* `Tokenizer` - the state of reading tokens
* `Tokenizer.next?` - the next token
* `tokens?` - the tokens of a text
-/

namespace SuiteMigration.Yaml

/-- A place where an unmarked key could start. -/
structure PossibleKey where
  /-- Nothing but a key may stand there. -/
  required : Bool
  /-- The number of tokens before it. -/
  number : Nat
  /-- The place. -/
  place : Reader
  deriving DecidableEq, Repr

/-- Whether no colon can follow any more: a key stands on one line and has at most 1024 characters. -/
def PossibleKey.isStale (key : PossibleKey) (reader : Reader) : Bool :=
  key.place.line < reader.line || key.place.index + 1024 < reader.index

/-- The state of reading tokens. -/
structure Tokenizer where
  /-- The place in the text. -/
  reader : Reader
  /-- The tokens read so far, the last one first. -/
  tokens : List Token := []
  /-- The columns of the open collections by indentation, the innermost first. -/
  columns : List Nat := []
  /-- The key that could have started in the innermost brackets. -/
  key : Option PossibleKey := none
  /-- The same for the brackets around them and, last, for the text outside brackets. -/
  outerKeys : List (Option PossibleKey) := []
  /-- An unmarked key may start at the next token. -/
  keyAllowed : Bool := true

namespace Tokenizer

/-- Whether brackets are open. -/
def inFlow (state : Tokenizer) : Bool :=
  !state.outerKeys.isEmpty

/-- The state with one more token. -/
def push (state : Tokenizer) (token : Token) : Tokenizer :=
  { state with tokens := token :: state.tokens }

/-- The state with a token put in after the given number of tokens. -/
def insert (state : Tokenizer) (number : Nat) (token : Token) : Tokenizer :=
  { state with tokens := state.tokens.insertIdx (state.tokens.length - number) token }

/-- The state after a number of characters. -/
def advance (state : Tokenizer) (count : Nat) : Tokenizer :=
  { state with reader := state.reader.advance count }

/-! ### Between tokens -/

/-- The state without the blanks, comments and line ends ahead. Where a key may start, a tab is not
passed over. -/
def skipVoid : Nat → Tokenizer → Tokenizer
  | 0, state => state
  | fuel + 1, state =>
    let reader := state.reader
    let reader := if reader.column = 0 && reader.isAt '\ufeff' then reader.skip else reader
    let reader := reader.skipWhile fun c =>
      c == ' ' || (c == '\t' && (state.inFlow || !state.keyAllowed))
    let reader := if reader.isAt '#' then reader.skipWhile (!isBreak ·) else reader
    if reader.atAny isBreak then
      skipVoid fuel
        { state with reader := reader.skipLine, keyAllowed := state.keyAllowed || !state.inFlow }
    else { state with reader }

/-- The key unless it is stale. A required key must not become stale. -/
def freshKey? (reader : Reader) : Option PossibleKey → Option (Option PossibleKey)
  | none => some none
  | some key =>
    if key.isStale reader then
      if key.required then none else some none
    else some (some key)

/-- The state without stale keys. -/
def dropStale? (state : Tokenizer) : Option Tokenizer := do
  let key ← freshKey? state.reader state.key
  let outerKeys ← state.outerKeys.mapM (freshKey? state.reader)
  some { state with key, outerKeys }

/-! ### Keys and indentation -/

/-- The state in which no key could have started. A required key is not given up. -/
def dropKey? (state : Tokenizer) : Option Tokenizer :=
  if state.key.any (·.required) then none else some { state with key := none }

/-- The state in which a key could start here, if one may. -/
def markKey? (state : Tokenizer) : Option Tokenizer :=
  if state.keyAllowed then do
    let state ← state.dropKey?
    let required := !state.inFlow && state.columns.head? == some state.reader.column
    some { state with key := some ⟨required, state.tokens.length, state.reader⟩ }
  else some state

/-- Closes the first collections by indentation, as many as given. Inside brackets none is closed. -/
def close (state : Tokenizer) (count : Nat) : Tokenizer :=
  if state.inFlow then state
  else
    { state with
      columns := state.columns.drop count
      tokens := List.replicate count .blockEnd ++ state.tokens }

/-- Closes the collections by indentation that start right of the place. -/
def closeRight (state : Tokenizer) : Tokenizer :=
  state.close (state.columns.takeWhile (state.reader.column < ·)).length

/-- Closes all collections by indentation. -/
def closeAll (state : Tokenizer) : Tokenizer :=
  state.close state.columns.length

/-- Opens a collection by indentation, after the given number of tokens, unless one is open at the
column or right of it. Inside brackets none is opened. -/
def openAt (state : Tokenizer) (column number : Nat) (token : Token) : Tokenizer :=
  if state.inFlow || state.columns.head?.any (column ≤ ·) then state
  else { state.insert number token with columns := column :: state.columns }

/-- Opens a collection by indentation at the place. A key must be allowed here. -/
def openHere? (state : Tokenizer) (token : Token) : Option Tokenizer :=
  if state.inFlow then some state
  else if state.keyAllowed then
    some (state.openAt state.reader.column state.tokens.length token)
  else none

/-! ### Tokens -/

/-- A token that stands apart from all collections, given with the place after it. -/
def apart? (state : Tokenizer) (token : Token) (after : Reader) : Option Tokenizer := do
  let state ← state.closeAll.dropKey?
  some { state.push token with reader := after, keyAllowed := false }

/-- An opening bracket. -/
def openBracket? (state : Tokenizer) (token : Token) : Option Tokenizer := do
  let state ← state.markKey?
  some
    { (state.push token).advance 1 with
      key := none, outerKeys := state.key :: state.outerKeys, keyAllowed := true }

/-- A closing bracket. -/
def closeBracket? (state : Tokenizer) (token : Token) : Option Tokenizer := do
  let state ← state.dropKey?
  let state := { (state.push token).advance 1 with keyAllowed := false }
  match state.outerKeys with
  | [] => some state
  | key :: outerKeys => some { state with key, outerKeys }

/-- A comma. -/
def comma? (state : Tokenizer) : Option Tokenizer := do
  let state ← state.dropKey?
  some { (state.push .flowEntry).advance 1 with keyAllowed := true }

/-- A dash in front of an item. -/
def dash? (state : Tokenizer) : Option Tokenizer := do
  let state ← (← state.openHere? .blockSequenceStart).dropKey?
  some { (state.push .blockEntry).advance 1 with keyAllowed := true }

/-- A question mark in front of a key. -/
def keyMark? (state : Tokenizer) : Option Tokenizer := do
  let state ← (← state.openHere? .blockMappingStart).dropKey?
  some { (state.push .key).advance 1 with keyAllowed := !state.inFlow }

/-- A colon in front of a value. If a key could have started, it did. -/
def colon? (state : Tokenizer) : Option Tokenizer :=
  match state.key with
  | some key =>
    let state := (state.insert key.number .key).openAt key.place.column key.number .blockMappingStart
    some { (state.push .value).advance 1 with key := none, keyAllowed := false }
  | none => do
    let state ← state.openHere? .blockMappingStart
    some { (state.push .value).advance 1 with keyAllowed := !state.inFlow }

/-- A token that can start a key, given with the place after it. -/
def keyStart? (state : Tokenizer) (token : Token) (after : Reader) : Option Tokenizer := do
  let state ← state.markKey?
  some { state.push token with reader := after, keyAllowed := false }

/-- A scalar between quotes. -/
def quoted? (state : Tokenizer) (quote : Char) : Option Tokenizer := do
  let (text, after) ← state.reader.quoted? quote
  state.keyStart? (.scalar .quoted (.ofList text)) after

/-- A plain scalar. After a line end, a key may follow it. -/
def plain? (state : Tokenizer) : Option Tokenizer := do
  let indent := (state.columns.head?.map (· + 1)).getD 0
  let (text, broken, after) ← state.reader.plain? state.inFlow indent
  let state ← state.keyStart? (.scalar .plain (.ofList text)) after
  some { state with keyAllowed := broken }

/-- A scalar as a block of lines. -/
def block? (state : Tokenizer) (literal : Bool) : Option Tokenizer := do
  let state ← state.dropKey?
  let (text, after) ← state.reader.block? literal state.columns
  let style := if literal then .literal else .folded
  some { state.push (.scalar style (.ofList text)) with reader := after, keyAllowed := true }

/-- A plain scalar may start with the given characters. Outside brackets a colon or a question mark
may start one, and everywhere a dash, if no blank follows. -/
def startsPlain (inFlow : Bool) (c : Char) (rest : List Char) : Bool :=
  !(isBlank c || isBreak c || isIndicator c) || (c == '-' && !rest.head?.any isBlank) ||
    (!inFlow && (c == '?' || c == ':') && !atSpace rest)

/-- The next token, at the given characters. -/
def token? (state : Tokenizer) (c : Char) (rest : List Char) : Option Tokenizer :=
  let reader := state.reader
  if reader.column = 0 && c == '%' then do
    let (token, after) ← reader.directive?
    state.apart? token after
  else if reader.atMarkerOf '-' then state.apart? .documentStart (reader.advance 3)
  else if reader.atMarkerOf '.' then state.apart? .documentEnd (reader.advance 3)
  else if c == '[' then state.openBracket? .flowSequenceStart
  else if c == '\x7b' then state.openBracket? .flowMappingStart
  else if c == ']' then state.closeBracket? .flowSequenceEnd
  else if c == '\x7d' then state.closeBracket? .flowMappingEnd
  else if c == ',' then state.comma?
  else if c == '-' && atSpace rest then state.dash?
  else if c == '?' && (state.inFlow || atSpace rest) then state.keyMark?
  else if c == ':' && (state.inFlow || atSpace rest) then state.colon?
  else if c == '*' then do
    let (name, after) ← reader.anchorName?
    state.keyStart? (.alias name) after
  else if c == '&' then do
    let (name, after) ← reader.anchorName?
    state.keyStart? (.anchor name) after
  else if c == '!' then do
    let (token, after) ← reader.tag? state.inFlow
    state.keyStart? token after
  else if c == '|' && !state.inFlow then state.block? true
  else if c == '>' && !state.inFlow then state.block? false
  else if c == '\'' || c == '"' then state.quoted? c
  else if startsPlain state.inFlow c rest then state.plain?
  else none

/-- All tokens, the rest of them read with at most as many steps as the fuel allows. -/
def run? : Nat → Tokenizer → Option (List Token)
  | 0, _ => none
  | fuel + 1, state => do
    let state ← (state.skipVoid (state.reader.ahead.length + 1)).dropStale?
    let state := state.closeRight
    match state.reader.ahead with
    | [] =>
      let state ← state.closeAll.dropKey?
      some state.tokens.reverse
    | c :: rest => (← state.token? c rest).run? fuel

end Tokenizer

/-- The tokens of a text. Each takes at least one character. -/
def tokens? (text : String) : Option (List Token) :=
  if text.toList.all isPrintable then
    Tokenizer.run? (text.length + 1) { reader := { ahead := text.toList } }
  else none

end SuiteMigration.Yaml
