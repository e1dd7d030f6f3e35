import SuiteMigration.Piece

/-!
# Attaching trivia to tokens

The pieces of a source are read in order. Trivia on the line of a token trail it, and all other
trivia lead the next token or the end of the source. A block comment that spans lines never trails.

Of a comment only the outermost is kept. The reader learns how many comments are nested in it from
the number of places where its text opens a comment, and skips that many. Where a comment ends
right before an asterisk the count is too high, and then what follows is skipped as well: pieces
are dropped until enough further comments have gone by.

## Main definitions

* `Attachment` - the tokens so far, the trivia not yet attached, and the comments still to skip
* `Attachment.step` - the next piece is read
* `tokenize` - the tokens of a source text
-/

namespace SuiteMigration

/-- The state of reading pieces. -/
structure Attachment where
  /-- The tokens read so far, the last one first. -/
  tokens : List Token := []
  /-- The trivia that lead the next token. -/
  pending : Trivia := ""
  /-- The last token stands on the current line. -/
  onTokenLine : Bool := false
  /-- The comments still to skip. -/
  skipping : Nat := 0
  deriving Repr

namespace Attachment

/-- Trivia go to the last token if it is on this line, and wait for the next one otherwise. -/
def attach (state : Attachment) (text : Trivia) : Attachment :=
  match state.onTokenLine, state.tokens with
  | true, last :: earlier =>
    { state with tokens := last.withTrailing (last.trailing ++ text) :: earlier }
  | _, _ => { state with pending := state.pending ++ text }

/-- Trivia that stand apart from the last token, because a line has ended. -/
def breakLine (state : Attachment) (text : Trivia) : Attachment :=
  { state with onTokenLine := false, pending := state.pending ++ text }

/-- The number of places where the characters open a block comment. -/
def openings : List Char → Nat
  | '/' :: '*' :: rest => openings rest + 1
  | _ :: rest => openings rest
  | [] => 0

/-- A comment is read, an outermost one or one nested in it. -/
def comment (state : Attachment) (text : List Char) : Attachment :=
  match state.skipping with
  | skipped + 1 => { state with skipping := skipped }
  | 0 =>
    -- The comment itself is one of the openings in its text.
    let state :=
      if text.any isLineBreak then state.breakLine (.ofList text) else state.attach (.ofList text)
    { state with skipping := openings text - 1 }

/-- A token is read and takes the pending trivia. -/
def token (state : Attachment) (kind : TokenKind) (text : List Char) : Attachment :=
  { state with
    tokens := { kind, text := .ofList text, leading := state.pending } :: state.tokens
    pending := ""
    onTokenLine := true }

/-- The next piece is read. While comments are to be skipped, only comments matter. -/
def step (state : Attachment) : Piece → Attachment
  | .comment text nested => nested.foldl comment (state.comment text)
  | .newline text => if state.skipping = 0 then state.breakLine (.ofList text) else state
  | .trivia text => if state.skipping = 0 then state.attach (.ofList text) else state
  | .token kind text => if state.skipping = 0 then state.token kind text else state

/-- The tokens read, with the pending trivia before the end of the source. -/
def finish (state : Attachment) : TokenStream :=
  { tokens := state.tokens.reverse
    endOfFile := { kind := .endOfFile, text := "", leading := state.pending } }

end Attachment

/-- The tokens of a source text. -/
def tokenize (source : String) : TokenStream :=
  ((Piece.segment source.toList).foldl Attachment.step {}).finish

end SuiteMigration
