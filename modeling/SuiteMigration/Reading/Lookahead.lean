import SuiteMigration.Reading.Runs

/-!
# Looking ahead

Three questions need more than the next two tokens: whether a declaration begins here, whether a
closure has a signature, and whether a left angle bracket opens generic arguments. Each is answered
without reading a token.

## Main definitions

* `Cursor.declarationKeyword?` - the cursor at the keyword of the declaration that begins here
* `Cursor.signatureEnd?` - the cursor at the keyword `in` that ends the signature of a closure
* `Cursor.genericArguments?` - the number of tokens in an explicit generic argument list
-/

namespace SuiteMigration

namespace Cursor

/-- The cursor after the given number of tokens. -/
def skip (cursor : Cursor) (count : Nat) : Cursor :=
  (cursor.take count).2

/-- The cursor after the group that begins here, if the group is closed. -/
def afterGroup? (cursor : Cursor) : Option Cursor :=
  (closing? 1 cursor.pending.tail).map fun length => cursor.skip (1 + length)

/-- The cursor after a group attached to what was just read, or the same cursor without one. -/
def afterAttachedGroup? (cursor : Cursor) : Option Cursor :=
  if cursor.atAttachedParen then cursor.afterGroup? else some cursor

/-! ### Declarations -/

/-- A modifier stands at the cursor. The word `class` is one only before a declaration or before
another modifier. -/
def atModifier (cursor : Cursor) : Bool :=
  let token := cursor.peek
  let next := cursor.second
  let afterNext := cursor.pending.getD 2 cursor.endOfFile
  token.kind == .identifier && modifierWords.contains token.text &&
    (token.text != "class" || isDeclarationKeyword next afterNext ||
      next.text != "class" && modifierWords.contains next.text)

/-- The cursor after the attributes that begin here, if they are well formed. -/
def afterAttributes? : Nat → Cursor → Option Cursor
  | 0, cursor => some cursor
  | fuel + 1, cursor =>
    if cursor.isAt .atSign then
      if cursor.second.kind == .identifier then
        match (cursor.skip 2).afterAttachedGroup? with
        | some next => afterAttributes? fuel next
        | none => none
      else none
    else some cursor

/-- The cursor after the modifiers that begin here, if they are well formed. -/
def afterModifiers? : Nat → Cursor → Option Cursor
  | 0, cursor => some cursor
  | fuel + 1, cursor =>
    if cursor.atModifier then
      match (cursor.skip 1).afterAttachedGroup? with
      | some next => afterModifiers? fuel next
      | none => none
    else some cursor

/-- The cursor at the keyword of the declaration that begins here. -/
def declarationKeyword? (cursor : Cursor) : Option Cursor := do
  let cursor ← afterAttributes? cursor.pending.length cursor
  let cursor ← afterModifiers? cursor.pending.length cursor
  if isDeclarationKeyword cursor.peek cursor.second then some cursor else none

/-! ### Closures -/

/-- The number of tokens in a parameter list without parentheses. -/
def shorthandRun : List Token → Nat
  | [] => 0
  | [token] => if token.kind == .identifier && token.text != "in" then 1 else 0
  | token :: next :: later =>
    if token.kind == .identifier && token.text != "in" then
      if next.kind == .comma then 2 + shorthandRun later else 1
    else 0

/-- The cursor at the keyword `in`, from after the parameters of a signature on. -/
def effectsEnd? (inResult : Bool) : Nat → Cursor → Option Cursor
  | 0, _ => none
  | fuel + 1, cursor =>
    let token := cursor.peek
    if token.isKeyword "in" then some cursor
    else if cursor.atNewLine && token.kind != .arrow then none
    else match token.kind with
      | .identifier =>
        if ["async", "throws", "rethrows"].contains token.text || inResult then
          effectsEnd? inResult fuel (cursor.skip 1)
        else none
      | .period => if inResult then effectsEnd? inResult fuel (cursor.skip 1) else none
      | .arrow => effectsEnd? true fuel (cursor.skip 1)
      | .operator =>
        if inResult && token.consistsOf "<>?!&" then effectsEnd? inResult fuel (cursor.skip 1)
        else none
      -- A group is part of a result, or the type of the errors right after `throws`.
      | .leftParen | .leftBracket =>
        if inResult || cursor.previous.any (·.isKeyword "throws") then
          match cursor.afterGroup? with
          | some next => effectsEnd? inResult fuel next
          | none => none
        else none
      | _ => none

/-- The cursor after the capture list that may begin here. -/
def afterCaptureList? (cursor : Cursor) : Option Cursor :=
  if cursor.isAt .leftBracket then cursor.afterGroup? else some cursor

/-- The cursor after the parameters that may begin here. -/
def afterParameters? (cursor : Cursor) : Option Cursor :=
  if cursor.isAt .leftParen then cursor.afterGroup?
  else some (cursor.skip (shorthandRun cursor.pending))

/-- The cursor at the keyword `in` that ends the signature of the closure just opened. -/
def signatureEnd? (cursor : Cursor) : Option Cursor := do
  let cursor ← cursor.afterCaptureList?
  let cursor ← cursor.afterParameters?
  effectsEnd? false (cursor.pending.length + 1) cursor

/-- The number of tokens before the keyword `in` that ends the signature of the closure just
opened. -/
def signatureLength? (cursor : Cursor) : Option Nat :=
  cursor.signatureEnd?.map fun keyword => cursor.pending.length - keyword.pending.length

/-! ### Generic arguments -/

/-- The kinds of tokens in generic arguments, operators apart. -/
def isGenericArgument : TokenKind → Bool
  | .identifier | .comma | .period | .leftBracket | .rightBracket | .leftParen | .rightParen
  | .colon | .arrow => true
  | _ => false

/-- The number of tokens through the bracket that closes a generic argument list, provided a call
or a member access follows directly. -/
def genericRun? (endOfFile : Token) (begun : Bool) (depth : Int) (previous : Option Token) :
    List Token → Option Nat
  | [] => none
  | token :: later =>
    if begun && lineBreakBetween previous token then none
    else if token.kind == .operator then
      if token.consistsOf "<>?!&" then
        -- An operator such as `>>` closes several lists at once, and may close too many.
        let depth := depth + token.angleDepth
        if depth = 0 then
          let next := later.headD endOfFile
          if (next.kind == .leftParen || next.kind == .period) && adjacent (some token) next then
            some 1
          else none
        else if depth < 0 then none
        else (genericRun? endOfFile true depth (some token) later).map (· + 1)
      else none
    else if isGenericArgument token.kind then
      (genericRun? endOfFile true depth (some token) later).map (· + 1)
    else none

/-- The number of tokens in the explicit generic argument list that begins here. -/
def genericArguments? (cursor : Cursor) : Option Nat :=
  if cursor.peek.opensAngle && cursor.leftBound then
    genericRun? cursor.endOfFile false 0 cursor.previous cursor.pending
  else none

end Cursor

end SuiteMigration
