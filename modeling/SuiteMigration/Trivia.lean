import SuiteMigration.Text.Lines
import SuiteMigration.Text.WhiteSpace

/-!
# Trivia

The blanks, line breaks and comments that stand around a token. A migration moves trivia from one
token to another, and this module holds the questions it asks of them and the texts it builds from
them.

## Main definitions

* `Trivia.containsNewline`, `Trivia.hasComment`, `Trivia.isBlank` - what a run of trivia holds
* `Trivia.indentation`, `Trivia.lineIndentation` - the blanks that start the line of the next token
* `Trivia.reindented` - the same comments and blank lines on fresh lines with a given indentation
* `Trivia.merge` - the trivia of a removed line set in front of the trivia of the next line
-/

namespace SuiteMigration

/-- Blanks, line breaks and comments, as they stand in the source. -/
abbrev Trivia := String

/-- A character that ends a line. -/
def isLineBreak (c : Char) : Bool :=
  c == '\n' || c == '\r'

/-- A blank that can indent a line. -/
def isIndent (c : Char) : Bool :=
  c == ' ' || c == '\t'

namespace Trivia

/-- A single space. -/
def space : Trivia := " "

/-- Some line ends within the trivia. -/
def containsNewline (trivia : Trivia) : Bool :=
  trivia.toList.any isLineBreak

/-- The characters hold the beginning of a line comment or of a block comment. -/
def opensComment : List Char → Bool
  | '/' :: '/' :: _ => true
  | '/' :: '*' :: _ => true
  | _ :: rest => opensComment rest
  | [] => false

/-- The trivia carry a line comment or a block comment. -/
def hasComment (trivia : Trivia) : Bool :=
  opensComment trivia.toList

/-- The trivia are nothing but white space. -/
def isBlank (trivia : Trivia) : Bool :=
  trivia.toList.all Text.isWhiteSpace

/-- The blanks right after the last line break, none if no line ends. -/
def indentation (trivia : Trivia) : String :=
  if trivia.containsNewline then
    .ofList ((Text.takeWhileEnd (fun c => !isLineBreak c) trivia.toList).takeWhile isIndent)
  else ""

/-- The blanks that start the line of the token after the trivia. Without a line break they are the
final blanks of the trivia. -/
def lineIndentation (trivia : Trivia) : String :=
  if trivia.containsNewline then trivia.indentation
  else .ofList (Text.takeWhileEnd isIndent trivia.toList)

/-- A comment with the space that divides it from the token after it, or nothing. -/
def spaced (comment : String) : String :=
  if comment.isEmpty then "" else comment ++ " "

/-- The lines before the last one, each on a line of its own. Blank lines stay blank. -/
def indentLines (indent : String) : List String → String
  | [] => ""
  | line :: rest =>
    (if line.isEmpty then "\n" else "\n" ++ indent ++ line) ++ indentLines indent rest

/-- The trivia as they stand before a token on a fresh line with the given indentation. What
stands before the first line break is kept only if there is no other line. -/
def reindented (trivia : Trivia) (indent : String) : Trivia :=
  match (Text.lines trivia).map Text.trim with
  | [] => "\n" ++ indent
  | [only] => "\n" ++ indent ++ spaced only
  | _ :: second :: others =>
    let later := second :: others
    indentLines indent later.dropLast ++ "\n" ++ indent ++ spaced (later.getLastD "")

/-- The part of a text before its last line feed, all of it if there is none. -/
def beforeLastLineFeed (text : String) : String :=
  if text.toList.contains '\n' then
    .ofList (Text.dropWhileEnd (· != '\n') text.toList).dropLast
  else text

/-- The trivia of a removed line in front of those of the line after it. The final line break and
indentation of the removed line give way to those of the next. -/
def merge (removed next : Trivia) : Trivia :=
  beforeLastLineFeed removed ++ next

end Trivia

end SuiteMigration
