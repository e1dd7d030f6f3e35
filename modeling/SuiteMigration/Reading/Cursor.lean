import SuiteMigration.Reading.Words

/-!
# Cursors

A place in a token stream: the token just read, the tokens still to read, and the token that ends
the stream. Swift gives meaning to line breaks and blanks, so most questions look at the trivia
between the token just read and the next one.

## Main definitions

* `Cursor` - a place in a token stream
* `Cursor.peek`, `Cursor.second` - the next token and the one after it
* `Cursor.bump`, `Cursor.take` - a token is read, or several
* `Cursor.role` - whether the operator at the cursor is a prefix, a suffix or stands between operands
* `Parser` - a computation that reads tokens and may run out of fuel
-/

namespace SuiteMigration

/-- Some line ends between two tokens. -/
def lineBreakBetween (previous : Option Token) (token : Token) : Bool :=
  token.leading.containsNewline || previous.any fun before => before.trailing.containsNewline

/-- Nothing stands between two tokens. The first token of a source counts as apart. -/
def adjacent (previous : Option Token) (token : Token) : Bool :=
  match previous with
  | none => false
  | some before => token.leading.isEmpty && before.trailing.isEmpty

/-- A place in a token stream. -/
structure Cursor where
  previous : Option Token
  pending : List Token
  endOfFile : Token

namespace Cursor

/-- The cursor before the first token. -/
def start (stream : TokenStream) : Cursor :=
  { previous := none, pending := stream.tokens, endOfFile := stream.endOfFile }

/-- The next token. -/
def peek (cursor : Cursor) : Token :=
  cursor.pending.headD cursor.endOfFile

/-- The token after the next one. -/
def second (cursor : Cursor) : Token :=
  cursor.pending.tail.headD cursor.endOfFile

/-- All tokens are read. -/
def atEnd (cursor : Cursor) : Bool :=
  cursor.pending.isEmpty

/-- The next token has the given class. -/
def isAt (cursor : Cursor) (kind : TokenKind) : Bool :=
  cursor.peek.kind == kind

/-- The next token is the given keyword. -/
def atKeyword (cursor : Cursor) (keyword : String) : Bool :=
  cursor.peek.isKeyword keyword

/-- The next token stands on a new line. -/
def atNewLine (cursor : Cursor) : Bool :=
  lineBreakBetween cursor.previous cursor.peek

/-- The next token follows the last one directly. -/
def atAdjacent (cursor : Cursor) : Bool :=
  adjacent cursor.previous cursor.peek

/-- The next token opens arguments that belong to what was just read. -/
def atAttachedParen (cursor : Cursor) : Bool :=
  cursor.isAt .leftParen && cursor.atAdjacent

/-- One token is read. At the end there is none, and an empty one comes back. -/
def bump (cursor : Cursor) : Token × Cursor :=
  match cursor.pending with
  | [] => (.missing .unknown, cursor)
  | token :: later => (token, { cursor with previous := some token, pending := later })

/-- The given number of tokens is read, or all that are left. -/
def take (cursor : Cursor) (count : Nat) : List Token × Cursor :=
  let taken := cursor.pending.take count
  (taken,
    { cursor with
      previous := taken.getLast?.or cursor.previous
      pending := cursor.pending.drop count })

/-! ### Fixity of operators -/

/-- The kinds after which an operator is not bound to the left. -/
def opensLeft : TokenKind → Bool
  | .leftParen | .leftBracket | .leftBrace | .comma | .colon | .semicolon => true
  | _ => false

/-- The kinds before which an operator is not bound to the right. -/
def closesRight : TokenKind → Bool
  | .rightParen | .rightBracket | .rightBrace | .comma | .colon | .semicolon | .endOfFile => true
  | _ => false

/-- The next token is bound to what was just read. -/
def leftBound (cursor : Cursor) : Bool :=
  cursor.atAdjacent && !cursor.previous.any fun before => opensLeft before.kind

/-- The next token is bound to the one after it. -/
def rightBound (cursor : Cursor) : Bool :=
  adjacent (some cursor.peek) cursor.second && !closesRight cursor.second.kind

/-- Where an operator stands. -/
inductive OperatorRole
  | before
  | after
  | between
  deriving DecidableEq, Repr

/-- Where the operator at the cursor stands. The sign of assignment is always between operands, and
the marks of an optional need no blank to their right. -/
def role (cursor : Cursor) : OperatorRole :=
  let text := cursor.peek.text
  if text == "=" then .between
  else if cursor.leftBound && (text == "?" || text == "!") then .after
  else match cursor.leftBound, cursor.rightBound with
    | true, false => .after
    | false, true => .before
    | _, _ => .between

/-- The next token is an operator in the given place. -/
def atOperator (cursor : Cursor) (role : OperatorRole) : Bool :=
  cursor.isAt .operator && cursor.role == role

end Cursor

/-! ### Computations that read tokens -/

/-- A computation that reads tokens. It gives nothing when its fuel runs out. -/
abbrev Parser := StateT Cursor Option

namespace Parser

/-- The next token is read. -/
def bump : Parser Token :=
  fun cursor => some cursor.bump

/-- As many tokens are read as the run at the cursor has. -/
def run (length : Cursor → Nat) : Parser (List Token) :=
  fun cursor => some (cursor.take (length cursor))

/-- A part that never runs out of fuel is read. -/
def part (read : Cursor → α × Cursor) : Parser α :=
  fun cursor => some (read cursor)

/-- The question is answered at the cursor. -/
def ask (question : Cursor → α) : Parser α :=
  fun cursor => some (question cursor, cursor)

/-- A token is read if the cursor allows it. -/
def bumpIf (condition : Cursor → Bool) : Parser (Option Token) := do
  if ← ask condition then some <$> bump else return none

/-- A token of the given class is read. One that is not there is missing. -/
def expect (kind : TokenKind) : Parser Token := do
  return (← bumpIf (·.isAt kind)).getD (.missing kind)

/-- The given keyword is read. One that is not there is missing. -/
def expectKeyword (keyword : String) : Parser Token := do
  return (← bumpIf (·.atKeyword keyword)).getD (.missing .identifier)

/-- The mark of an optional is read if it follows directly. -/
def optionalMark : Parser (Option Token) :=
  bumpIf fun cursor => cursor.peek.isOptionalMark && cursor.atAdjacent

end Parser

end SuiteMigration
