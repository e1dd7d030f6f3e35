import SuiteMigration.Trivia

/-!
# Tokens

A token owns its text and the trivia around it: what follows it on its line is its trailing trivia,
and everything else before it is its leading trivia. Writing leading trivia, text and trailing
trivia of all tokens one after the other gives the source text.

## Main definitions

* `TokenKind` - the lexical classes
* `Token` - a lexeme with its trivia
* `Token.missing` - the empty token that stands where the source omits a required one
* `TokenStream` - the tokens of a source and the token that ends it
-/

namespace SuiteMigration

/-- The lexical classes. Keywords are identifiers; they are told apart by their text. -/
inductive TokenKind
  | identifier
  | poundIdentifier
  | number
  | stringLiteral
  | operator
  | arrow
  | leftParen
  | rightParen
  | leftBracket
  | rightBracket
  | leftBrace
  | rightBrace
  | comma
  | colon
  | semicolon
  | period
  | atSign
  | backslash
  | unknown
  | endOfFile
  deriving DecidableEq, Repr

namespace TokenKind

/-- The class of a punctuation character. -/
def ofPunctuation? : Char → Option TokenKind
  | '(' => some .leftParen
  | ')' => some .rightParen
  | '[' => some .leftBracket
  | ']' => some .rightBracket
  | '{' => some .leftBrace
  | '}' => some .rightBrace
  | ',' => some .comma
  | ':' => some .colon
  | ';' => some .semicolon
  | '.' => some .period
  | '@' => some .atSign
  | '\\' => some .backslash
  | _ => none

/-- An opening delimiter. -/
def isOpening : TokenKind → Bool
  | .leftParen | .leftBracket | .leftBrace => true
  | _ => false

/-- A closing delimiter. -/
def isClosing : TokenKind → Bool
  | .rightParen | .rightBracket | .rightBrace => true
  | _ => false

end TokenKind

/-- A lexeme with the trivia before and after it. -/
structure Token where
  kind : TokenKind
  text : String
  leading : Trivia := ""
  trailing : Trivia := ""
  deriving DecidableEq, Repr

namespace Token

/-- The token of no width that stands where the source omits a required one. -/
def missing (kind : TokenKind) : Token :=
  { kind, text := "" }

/-- A name. A name that starts with a number sign is one of the built-in names. -/
def ofName (name : String) : Token :=
  { kind := if name.toList.head? = some '#' then .poundIdentifier else .identifier, text := name }

/-- An operator. -/
def ofOperator (operator : String) : Token :=
  { kind := .operator, text := operator }

/-- A punctuation character. -/
def ofPunctuation (c : Char) : Token :=
  { kind := (TokenKind.ofPunctuation? c).getD .unknown, text := c.toString }

/-- The token with other trivia before it. -/
def withLeading (token : Token) (leading : Trivia) : Token :=
  { token with leading }

/-- The token with other trivia after it. -/
def withTrailing (token : Token) (trailing : Trivia) : Token :=
  { token with trailing }

/-- The token stands for one that the source omits. -/
def isMissing (token : Token) : Bool :=
  token.text.isEmpty && token.kind != .endOfFile

/-- The token is the given keyword. A name in backquotes is none. -/
def isKeyword (token : Token) (keyword : String) : Bool :=
  token.kind == .identifier && token.text == keyword

/-- The token is the given operator. -/
def isOperator (token : Token) (operator : String) : Bool :=
  token.kind == .operator && token.text == operator

/-- The text of the token begins with the given one. -/
def startsWith (token : Token) (start : String) : Bool :=
  start.toList.isPrefixOf token.text.toList

/-- The token as it stands in the source. -/
def render (token : Token) : String :=
  token.leading ++ token.text ++ token.trailing

/-- The source text of a run of tokens. -/
def renderAll (tokens : List Token) : String :=
  String.join (tokens.map render)

@[simp] theorem render_missing (kind : TokenKind) : (missing kind).render = "" := rfl

@[simp] theorem renderAll_nil : renderAll [] = "" := rfl

/-- The characters of a rendering are those of its tokens, one after the other. -/
theorem toList_renderAll (tokens : List Token) :
    (renderAll tokens).toList = tokens.flatMap fun token => token.render.toList := by
  simp [renderAll, List.flatMap_map]

/-- Token lists in a row are rendered in a row. -/
@[simp] theorem renderAll_append (first second : List Token) :
    renderAll (first ++ second) = renderAll first ++ renderAll second := by
  rw [← String.toList_inj]
  simp [toList_renderAll]

@[simp] theorem renderAll_cons (token : Token) (tokens : List Token) :
    renderAll (token :: tokens) = token.render ++ renderAll tokens := by
  rw [← String.toList_inj]
  simp [toList_renderAll]

end Token

/-- The tokens of a source text and the token that ends it, which holds the final trivia. -/
structure TokenStream where
  tokens : List Token
  endOfFile : Token
  deriving DecidableEq, Repr

namespace TokenStream

/-- All tokens, the one that ends the source included. -/
def toList (stream : TokenStream) : List Token :=
  stream.tokens ++ [stream.endOfFile]

end TokenStream

end SuiteMigration
