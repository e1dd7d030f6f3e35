import SuiteMigration.Text.Identifier
import SuiteMigration.Trivia

/-!
# Lexemes

How far each lexical class reaches from the start of a list of characters. Every function answers
with the number of characters it takes, and with zero where its class does not begin. Cutting the
list at that number therefore loses nothing, whatever the class.

Comments nest. A string literal holds interpolations, which hold parentheses and further string
literals, so its extent is found with a stack of the constructs that are open.

## Main definitions

* `Lexeme.newline`, `Lexeme.blanks`, `Lexeme.lineComment`, `Lexeme.blockComment` - trivia
* `Lexeme.string`, `Lexeme.rawString`, `Lexeme.number` - literals
* `Lexeme.identifier`, `Lexeme.poundIdentifier` - names
* `Lexeme.arrow`, `Lexeme.range`, `Lexeme.operator` - operators
* `Lexeme.nestedComments` - the comments inside a comment, outer ones first
-/

namespace SuiteMigration.Lexeme

/-! ### Trivia -/

/-- A line break: a line feed, a carriage return, or the two as one. -/
def newline : List Char → Nat
  | '\r' :: '\n' :: _ => 2
  | '\n' :: _ => 1
  | '\r' :: _ => 1
  | _ => 0

/-- A blank within a line. The byte order mark counts as one. -/
def isBlank (c : Char) : Bool :=
  c == ' ' || c == '\t' || c == '\x0b' || c == '\x0c' || c == '\ufeff'

/-- A run of blanks. -/
def blanks (text : List Char) : Nat :=
  (text.takeWhile isBlank).length

/-- A comment that ends before the line break. -/
def lineComment : List Char → Nat
  | '/' :: '/' :: rest => 2 + (rest.takeWhile fun c => !isLineBreak c).length
  | _ => 0

/-- The characters up to the end of the given number of open comments, or of the text. -/
def commentRest : Nat → List Char → Nat
  | 0, _ => 0
  | depth + 1, '/' :: '*' :: rest => 2 + commentRest (depth + 2) rest
  | depth + 1, '*' :: '/' :: rest => 2 + commentRest depth rest
  | depth + 1, _ :: rest => 1 + commentRest (depth + 1) rest
  | _ + 1, [] => 0

/-- A comment with all comments nested in it. One that is never closed takes the rest. -/
def blockComment : List Char → Nat
  | '/' :: '*' :: rest => 2 + commentRest 1 rest
  | _ => 0

/-- The comments opened while the given number of comments are open, outer ones first. -/
def commentsWithin : Nat → List Char → List (List Char)
  | 0, _ => []
  | depth + 1, '/' :: '*' :: rest =>
    ('/' :: '*' :: rest.take (commentRest 1 rest)) :: commentsWithin (depth + 2) rest
  | depth + 1, '*' :: '/' :: rest => commentsWithin depth rest
  | depth + 1, _ :: rest => commentsWithin (depth + 1) rest
  | _ + 1, [] => []

/-- The comments nested in a comment, outer ones first. -/
def nestedComments : List Char → List (List Char)
  | '/' :: '*' :: rest => commentsWithin 1 rest
  | _ => []

/-! ### Literals -/

/-- What can be open while a string literal is read. -/
inductive StringPart
  /-- A literal that ends at a quote or before the end of the line. -/
  | line
  /-- A literal between triple quotes. -/
  | block
  /-- An interpolation, or parentheses inside one. -/
  | parens
  deriving DecidableEq, Repr

/-- The characters up to the end of all open parts, the innermost first. A literal of one line can
only be open within parentheses, and there a line break is a character like any other. -/
def stringRest : List StringPart → List Char → Nat
  | [], _ => 0
  | .parens :: opened, ')' :: rest => 1 + stringRest opened rest
  | .parens :: opened, '(' :: rest => 1 + stringRest (.parens :: .parens :: opened) rest
  | .parens :: opened, '"' :: '"' :: '"' :: rest =>
    3 + stringRest (.block :: .parens :: opened) rest
  | .parens :: opened, '"' :: rest => 1 + stringRest (.line :: .parens :: opened) rest
  | .parens :: opened, _ :: rest => 1 + stringRest (.parens :: opened) rest
  | .block :: opened, '"' :: '"' :: '"' :: rest => 3 + stringRest opened rest
  | .block :: opened, '\\' :: '(' :: rest => 2 + stringRest (.parens :: .block :: opened) rest
  | .block :: opened, '\\' :: _ :: rest => 2 + stringRest (.block :: opened) rest
  | .block :: opened, _ :: rest => 1 + stringRest (.block :: opened) rest
  | .line :: opened, '\\' :: '(' :: rest => 2 + stringRest (.parens :: .line :: opened) rest
  | .line :: opened, '\\' :: _ :: rest => 2 + stringRest (.line :: opened) rest
  | .line :: opened, '"' :: rest => 1 + stringRest opened rest
  | .line :: opened, c :: rest =>
    if isLineBreak c then
      if opened.isEmpty then 0 else 1 + stringRest opened rest
    else 1 + stringRest (.line :: opened) rest
  | _ :: _, [] => 0

/-- A string literal, of one line or between triple quotes. -/
def string : List Char → Nat
  | '"' :: '"' :: '"' :: rest => 3 + stringRest [.block] rest
  | '"' :: rest => 1 + stringRest [.line] rest
  | _ => 0

/-- The characters through the first occurrence of the closing delimiter. -/
def through? (closer : List Char) : List Char → Option Nat
  | [] => none
  | c :: rest =>
    if closer.isPrefixOf (c :: rest) then some closer.length
    else (through? closer rest).map (· + 1)

/-- A raw string literal: as many number signs before the opening quote as after the closing one.
One that is never closed is none. -/
def rawString (text : List Char) : Nat :=
  let signs := (text.takeWhile (· == '#')).length
  match signs, text.drop signs with
  | 0, _ => 0
  | signs, '"' :: rest =>
    match through? ('"' :: List.replicate signs '#') rest with
    | some length => signs + 1 + length
    | none => 0
  | _, _ => 0

/-- The rest of a number: letters, digits and underscores, a signed exponent, or a fraction. -/
def numberRest : List Char → Nat
  | c :: d :: rest =>
    if (c == 'e' || c == 'E' || c == 'p' || c == 'P') && (d == '+' || d == '-') then
      2 + numberRest rest
    else if c.isAlphanum || c == '_' then 1 + numberRest (d :: rest)
    else if c == '.' && d.isDigit then 2 + numberRest rest
    else 0
  | [c] => if c.isAlphanum || c == '_' then 1 else 0
  | [] => 0

/-- A number in any base, with its fraction and exponent. -/
def number : List Char → Nat
  | c :: rest => if c.isDigit then 1 + numberRest rest else 0
  | [] => 0

/-! ### Names -/

/-- A plain name. -/
def plainName : List Char → Nat
  | c :: rest =>
    if Text.isIdentifierStart c || c == '_' then
      1 + (rest.takeWhile fun d => Text.isIdentifierContinue d || d == '$').length
    else 0
  | [] => 0

/-- A character that can stand between backquotes. -/
def isQuotable (c : Char) : Bool :=
  c != '\x60' && !isLineBreak c

/-- A name in backquotes, a numbered closure parameter, or a plain name. -/
def identifier : List Char → Nat
  | '\x60' :: rest =>
    let length := (rest.takeWhile isQuotable).length
    if length != 0 && (rest.drop length).head? == some '\x60' then length + 2 else 0
  | '$' :: rest =>
    let length := (rest.takeWhile fun c => c.isAlphanum || c == '_').length
    if length != 0 then length + 1 else 0
  | text => plainName text

/-- A number sign followed by a plain name. -/
def poundIdentifier : List Char → Nat
  | '#' :: rest =>
    match plainName rest with
    | 0 => 0
    | length => length + 1
  | _ => 0

/-! ### Operators and punctuation -/

/-- The arrow of a function type. -/
def arrow : List Char → Nat
  | '-' :: '>' :: _ => 2
  | _ => 0

/-- A range operator. -/
def range : List Char → Nat
  | '.' :: '.' :: '.' :: _ => 3
  | '.' :: '.' :: '<' :: _ => 3
  | _ => 0

/-- A character of an operator. -/
def isOperatorChar (c : Char) : Bool :=
  "/=-+!*%<>&|^~?".toList.contains c

/-- A run of operator characters. It ends where a comment begins. -/
def operator : List Char → Nat
  | '/' :: '/' :: _ => 0
  | '/' :: '*' :: _ => 0
  | c :: rest => if isOperatorChar c then 1 + operator rest else 0
  | [] => 0

end SuiteMigration.Lexeme
