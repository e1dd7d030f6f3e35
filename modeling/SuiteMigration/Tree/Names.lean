import SuiteMigration.Text.Uppercase
import SuiteMigration.Tree

/-!
# Names that are bound

Which names a pattern, a parameter clause or a closure signature brings into scope. The answers are
read off the tokens: inside a pattern every lower-case name counts that is neither a keyword of
patterns nor a member name, and a parameter is known by its inner name.

## Main definitions

* `patternNames`, `Pattern.names` - the names that a pattern binds
* `ParameterClause.names` - the inner names of parameters
* `Closure.parameterNames` - the names that a closure binds
* `isTypeLevel` - whether modifiers make a member belong to the type
-/

namespace SuiteMigration

/-! ### Patterns -/

/-- The words that stand in patterns without being bound. -/
def patternWords : List String :=
  ["let", "var", "case", "is", "as", "_"]

/-- The text begins with an upper-case letter. -/
def startsUppercase (text : String) : Bool :=
  text.toList.head?.any Text.isUppercase

/-- The token is bound when it stands in a pattern, not after a period. -/
def isBoundInPattern (token : Token) : Bool :=
  token.kind == .identifier && !patternWords.contains token.text && !startsUppercase token.text

/-- The names bound by the tokens of a pattern, given whether a period stands before them. -/
def patternNamesAfter (afterPeriod : Bool) : List Token → List String
  | [] => []
  | token :: later =>
    let names := patternNamesAfter (token.kind == .period) later
    if !afterPeriod && isBoundInPattern token then token.text :: names else names

/-- The names bound by the tokens of a pattern. -/
def patternNames (tokens : List Token) : List String :=
  patternNamesAfter false tokens

/-- The names that a pattern binds. -/
def Pattern.names : Pattern → List String
  | .identifier token => if token.text == "_" then [] else [token.text]
  | .raw tokens => patternNames tokens

/-- The names that the bindings of a variable declaration bind. -/
def bindingNames (bindings : List PatternBinding) : List String :=
  bindings.flatMap fun binding => binding.pattern.names

/-! ### Parameters -/

/-- Where the reader of a parameter clause stands. -/
structure ParameterScan where
  /-- The number of delimiters that are open. -/
  depth : Nat := 0
  /-- The last name of the current parameter. -/
  candidate : Option String := none
  /-- The type of the current parameter has begun. -/
  inType : Bool := false

/-- The inner names of the parameters from the given place on. -/
def parameterNamesFrom (scan : ParameterScan) : List Token → List String
  | [] => []
  | token :: later =>
    if token.kind.isOpening then parameterNamesFrom { scan with depth := scan.depth + 1 } later
    else if token.kind.isClosing then
      parameterNamesFrom { scan with depth := scan.depth - 1 } later
    else if scan.depth != 0 then parameterNamesFrom scan later
    else match token.kind, scan.inType with
      | .comma, _ => parameterNamesFrom {} later
      | .colon, false =>
        let names := parameterNamesFrom { scan with inType := true } later
        match scan.candidate with
        | some name => if name == "_" then names else name :: names
        | none => names
      | .identifier, false => parameterNamesFrom { scan with candidate := some token.text } later
      | _, _ => parameterNamesFrom scan later

/-- The inner names of the parameters. -/
def ParameterClause.names (clause : ParameterClause) : List String :=
  parameterNamesFrom {} clause.parameters

/-! ### Closures -/

/-- The tokens after the delimiter that closes the given number of open ones. -/
def afterClosing : Nat → List Token → List Token
  | _, [] => []
  | depth, token :: later =>
    if token.kind.isOpening then afterClosing (depth + 1) later
    else if token.kind.isClosing then
      if depth ≤ 1 then later else afterClosing (depth - 1) later
    else afterClosing depth later

/-- The tokens of a signature after its capture list. -/
def afterCaptures : List Token → List Token
  | [] => []
  | token :: later =>
    if token.kind == .leftBracket then afterClosing 1 later else token :: later

/-- The names of a parameter clause in parentheses. A parameter starts after the opening
parenthesis or a comma, and of two names in a row the second is bound. -/
def clauseNames (depth : Nat) (atStart : Bool) : List Token → List String
  | [] => []
  | token :: later =>
    if token.kind.isOpening then clauseNames (depth + 1) (depth == 0) later
    else if token.kind.isClosing then
      if depth ≤ 1 then [] else clauseNames (depth - 1) atStart later
    else if depth == 1 && token.kind == .comma then clauseNames depth true later
    else if depth == 1 && atStart && token.kind == .identifier then
      let name := match later.head? with
        | some next => if next.kind == .identifier then next.text else token.text
        | none => token.text
      let names := clauseNames depth false later
      if name == "_" then names else name :: names
    else clauseNames depth atStart later

/-- The names of a parameter list without parentheses. -/
def shorthandNames : List Token → List String
  | [] => []
  | token :: later =>
    match token.kind with
    | .comma => shorthandNames later
    | .identifier =>
      if token.text == "async" || token.text == "throws" then []
      else if token.text == "_" then shorthandNames later
      else token.text :: shorthandNames later
    | _ => []

/-- The names that a closure signature binds. -/
def ClosureSignature.parameterNames (signature : ClosureSignature) : List String :=
  match afterCaptures signature.tokens with
  | [] => []
  | first :: later =>
    if first.kind == .leftParen then clauseNames 0 false (first :: later)
    else shorthandNames (first :: later)

/-- The names that a closure binds. -/
def Closure.parameterNames (closure : Closure) : List String :=
  match closure.signature with
  | some signature => signature.parameterNames
  | none => []

/-! ### Modifiers -/

/-- The modifiers make a member belong to the type and not to its instances. -/
def isTypeLevel (modifiers : List Modifier) : Bool :=
  modifiers.any fun modifier => modifier.is "static" || modifier.is "class"

end SuiteMigration
