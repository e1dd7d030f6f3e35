/-!
# Styled text

Output is a list of spans, each with a style or without one. The same spans serve a stream without
colours and a terminal: `plain` drops the styles, and `ansi` writes them as escape sequences.

## Main definitions

* `Colour`, `Style`, `Span` - text with a style
* `plainText` - the text alone
* `ansiText` - the text with escape sequences
-/

namespace SuiteMigration

/-- A colour of text. -/
inductive Colour
  | red
  | green
  | yellow
  deriving DecidableEq, Repr

/-- How a span looks. -/
structure Style where
  /-- Whether the text is bold. -/
  bold : Bool := false
  /-- The colour of the text, if it is not the usual one. -/
  colour : Option Colour := none
  deriving DecidableEq, Repr

/-- A piece of output. -/
structure Span where
  /-- How the text looks; a span without a style leaves the terminal as it is. -/
  style : Option Style := none
  /-- The text. -/
  text : String
  deriving DecidableEq, Repr

/-- The escape sequence with the given parameter. -/
def escapeSequence (parameter : String) : String :=
  "\x1b[" ++ parameter ++ "m"

/-- The sequence that takes all styles back. -/
def resetSequence : String :=
  escapeSequence "0"

/-- The parameter of a colour. -/
def Colour.parameter : Colour → String
  | .red => "31"
  | .green => "32"
  | .yellow => "33"

/-- The sequences that turn a style on: everything off, then weight, then colour. -/
def Style.sequence (style : Style) : String :=
  resetSequence ++ (if style.bold then escapeSequence "1" else "") ++
    match style.colour with
    | some colour => escapeSequence colour.parameter
    | none => ""

/-- A span for a terminal. -/
def Span.ansi (span : Span) : String :=
  match span.style with
  | some style => style.sequence ++ span.text ++ resetSequence
  | none => span.text

/-- The text of the spans. -/
def plainText (spans : List Span) : String :=
  .join (spans.map (·.text))

/-- The text of the spans for a terminal. -/
def ansiText (spans : List Span) : String :=
  .join (spans.map (·.ansi))

end SuiteMigration
