import SuiteMigration.Reading.Cursor

/-!
# Runs of tokens

How many tokens belong to a part that is kept as it is: what stands between delimiters, a type, a
pattern, a label. Every function answers with a number, so reading a run is one cut of the pending
tokens.

## Main definitions

* `closing?` - the tokens through the delimiter that closes the open ones
* `Cursor.balanced`, `Cursor.angles` - a group in delimiters, or in generic brackets
* `runWhile` - the tokens up to one that stops the run outside all brackets
* `Cursor.typeRun`, `Cursor.patternRun`, `Cursor.labelRun` and others - the runs of the grammar
-/

namespace SuiteMigration

/-! ### Groups in brackets -/

/-- The number of tokens through the delimiter that closes the given number of open ones. -/
def closing? : Nat → List Token → Option Nat
  | 0, _ => some 0
  | _ + 1, [] => none
  | depth + 1, token :: later =>
    if token.kind.isOpening then (closing? (depth + 2) later).map (· + 1)
    else if token.kind.isClosing then (closing? depth later).map (· + 1)
    else (closing? (depth + 1) later).map (· + 1)

/-- The number of tokens in a generic clause. A brace or a semicolon ends it too. -/
def angleRun (depth : Int) : List Token → Nat
  | [] => 0
  | token :: later =>
    let depth := depth + token.angleDepth
    let stopped := later.head?.any fun next =>
      next.kind == .leftBrace || next.kind == .rightBrace || next.kind == .semicolon
    if depth ≤ 0 || stopped then 1 else 1 + angleRun depth later

/-- The number of tokens up to the first one that stops the run outside all brackets. What stops
is told from whether the run has begun, from the token before, and from the token itself. -/
def runWhile (change : Token → Int) (stops : Bool → Option Token → Token → Bool)
    (begun : Bool) (depth : Int) (previous : Option Token) : List Token → Nat
  | [] => 0
  | token :: later =>
    if depth ≤ 0 && stops begun previous token then 0
    else 1 + runWhile change stops true (depth + change token) (some token) later

/-- The depth of a token in types, where generic brackets count. -/
def Token.typeDepth (token : Token) : Int :=
  token.angleDepth + token.delimiterDepth

/-- The number of tokens in the path of an import, given the last part so far. Names and periods
take turns on one line. -/
def importPath (previous last : Option Token) : List Token → Nat
  | [] => 0
  | token :: later =>
    let continues := last.isNone || !lineBreakBetween previous token
    let fits :=
      if last.all (·.kind == .period) then token.kind == .identifier || token.kind == .operator
      else token.kind == .period
    if continues && fits then 1 + importPath (some token) (some token) later else 0

/-- The number of tokens in the label of a case, through the colon that ends it. -/
def caseLabel (depth : Nat) : List Token → Nat
  | [] => 0
  | token :: later =>
    if depth == 0 && token.kind == .rightBrace then 0
    else if depth == 0 && token.kind == .colon then 1
    else if token.kind.isOpening then 1 + caseLabel (depth + 1) later
    -- A closing delimiter other than a brace is passed over even where none is open.
    else if token.kind.isClosing then 1 + caseLabel (depth - 1) later
    else 1 + caseLabel depth later

/-- The number of tokens in the generic parameters of a type, or in the rest of a dotted name. -/
def typeNameRest : Nat → List Token → Nat
  | 0, _ => 0
  | _ + 1, [] => 0
  | fuel + 1, token :: later =>
    if token.opensAngle then
      let length := angleRun 0 (token :: later)
      length + typeNameRest fuel ((token :: later).drop length)
    else if token.kind == .period && later.head?.any (·.kind == .identifier) then
      2 + typeNameRest fuel (later.drop 1)
    else 0

/-- The number of tokens in the type of a cast, given the last part so far. -/
def castType (previous last : Option Token) (endOfFile : Token) : Nat → List Token → Nat
  | 0, _ => 0
  | _ + 1, [] => 0
  | fuel + 1, token :: later =>
    -- At the start, and after a period, an arrow or `any`, a name or a group has to follow.
    let expectsName := last.all fun token =>
      token.kind == .period || token.kind == .arrow || token.isKeyword "any" ||
        token.isKeyword "some"
    let bound : Cursor := { previous, pending := token :: later, endOfFile }
    let next := later.headD endOfFile
    let length :=
      if last.isSome && lineBreakBetween previous token then 0
      else match expectsName, token.kind with
        | true, .identifier => 1
        | true, .leftParen | true, .leftBracket => 1 + (closing? 1 later).getD later.length
        | false, .period => if next.kind == .identifier then 1 else 0
        | false, .arrow => 1
        | false, .operator =>
          if bound.leftBound then
            if token.startsWith "<" then angleRun 0 (token :: later)
            else if token.consistsOf "?!" then 1
            else 0
          else 0
        | _, _ => 0
    if length == 0 then 0
    else
      let final := ((token :: later).take length).getLast?
      length + castType final final endOfFile fuel ((token :: later).drop length)

namespace Cursor

/-- A group from its opening delimiter through its closing one, or through the last token. -/
def balanced (cursor : Cursor) : Nat :=
  1 + (closing? 1 cursor.pending.tail).getD cursor.pending.tail.length

/-- A generic clause. -/
def angles (cursor : Cursor) : Nat :=
  angleRun 0 cursor.pending

/-- A generic clause if one begins at the cursor. -/
def genericParameters (cursor : Cursor) : Nat :=
  if cursor.peek.opensAngle then cursor.angles else 0

/-- A group if one is attached to what was just read. -/
def attachedGroup (cursor : Cursor) : Nat :=
  if cursor.atAttachedParen then cursor.balanced else 0

/-- The first token and those after it up to the end of the line. -/
def restOfLine (cursor : Cursor) : Nat :=
  runWhile (fun _ => 0) (fun begun previous token => begun && lineBreakBetween previous token)
    false 0 cursor.previous cursor.pending

/-- The type of an annotation. -/
def typeRun (cursor : Cursor) : Nat :=
  runWhile Token.typeDepth
    (fun begun previous token =>
      token.kind == .comma || token.isOperator "=" || token.kind == .leftBrace ||
        token.kind.isClosing || token.kind == .semicolon || token.isKeyword "in" ||
        token.isKeyword "else" || begun && lineBreakBetween previous token)
    false 0 cursor.previous cursor.pending

/-- A pattern that is not a plain name. -/
def patternRun (cursor : Cursor) : Nat :=
  runWhile Token.delimiterDepth
    (fun begun previous token =>
      token.kind == .colon || token.kind == .comma || token.isOperator "=" ||
        token.isKeyword "in" || token.isKeyword "else" || token.kind == .leftBrace ||
        token.kind.isClosing || token.kind == .semicolon ||
        begun && lineBreakBetween previous token)
    false 0 cursor.previous cursor.pending

/-- The pattern of an error handler. -/
def catchRun (cursor : Cursor) : Nat :=
  runWhile Token.delimiterDepth
    (fun _ _ token => token.kind == .leftBrace || token.kind.isClosing)
    false 0 cursor.previous cursor.pending

/-- A type that a declaration inherits from. -/
def inheritedRun (cursor : Cursor) : Nat :=
  runWhile Token.typeDepth
    (fun _ _ token =>
      token.kind == .comma || token.kind == .leftBrace || token.kind.isClosing ||
        token.isKeyword "where")
    false 0 cursor.previous cursor.pending

/-- The constraints of a type, up to its body. -/
def constraintRun (cursor : Cursor) : Nat :=
  if cursor.atKeyword "where" then
    runWhile (fun _ => 0)
      (fun _ _ token => token.kind == .leftBrace || token.kind == .rightBrace)
      false 0 cursor.previous cursor.pending
  else 0

/-- The effects, result and constraints of a function. They go on in a new line only where the
tokens on either side of the line break say so. -/
def signatureRun (cursor : Cursor) : Nat :=
  runWhile Token.typeDepth
    (fun begun previous token =>
      let continues :=
        token.kind == .arrow || ["throws", "rethrows", "async", "where"].contains token.text ||
          begun && previous.any fun last =>
            last.kind == .arrow || last.kind == .comma || last.kind == .colon
      token.kind == .leftBrace || token.kind.isClosing || token.kind == .semicolon ||
        lineBreakBetween previous token && !continues)
    false 0 cursor.previous cursor.pending

/-- A declaration that is kept as it is. Its first token always belongs to it. -/
def rawDeclarationRun (cursor : Cursor) : Nat :=
  match cursor.pending with
  | [] => 0
  | first :: later =>
    1 + runWhile Token.delimiterDepth
      (fun _ previous token =>
        lineBreakBetween previous token || token.kind == .semicolon || token.kind.isClosing)
      false 0 (some first) later

/-- What is left of an argument before the next comma or closing delimiter. -/
def strayRun (cursor : Cursor) : Nat :=
  runWhile Token.delimiterDepth
    (fun _ _ token => token.kind == .comma || token.kind.isClosing)
    false 0 cursor.previous cursor.pending

/-- The path of an import. -/
def importRun (cursor : Cursor) : Nat :=
  importPath cursor.previous none cursor.pending

/-- The label of a case. -/
def labelRun (cursor : Cursor) : Nat :=
  caseLabel 0 cursor.pending

/-- The generic parameters of a type, or the rest of its dotted name. -/
def typeNameRun (cursor : Cursor) : Nat :=
  typeNameRest cursor.pending.length cursor.pending

/-- The type of a cast. -/
def castRun (cursor : Cursor) : Nat :=
  castType cursor.previous none cursor.endOfFile cursor.pending.length cursor.pending

end Cursor

end SuiteMigration
