import SuiteMigration.Token

/-!
# Words with a meaning

The words that the grammar knows. A keyword is an identifier by its lexical class, so each question
about one is a question about the text of a token.

## Main definitions

* `modifierWords`, `reservedWords` - the modifiers, and the words that never begin an expression
* `Token.isReserved` - the token is a reserved word
* `isDeclarationKeyword` - a declaration begins with the token
* `angleDepth` - the generic brackets that an operator opens, less those it closes
-/

namespace SuiteMigration

/-- The modifiers of declarations. -/
def modifierWords : List String :=
  ["public", "private", "fileprivate", "internal", "package", "open", "final", "override",
   "static", "class", "mutating", "nonmutating", "lazy", "weak", "unowned", "convenience",
   "required", "dynamic", "optional", "indirect", "nonisolated", "isolated", "consuming",
   "borrowing", "distributed", "prefix", "postfix", "infix"]

/-- The words that never begin an expression. -/
def reservedWords : List String :=
  ["if", "guard", "for", "while", "repeat", "do", "switch", "return", "throw", "defer", "break",
   "continue", "fallthrough", "else", "catch", "in", "where", "case", "default", "let", "var",
   "func", "class", "struct", "enum", "extension", "protocol", "import", "deinit", "typealias",
   "subscript", "associatedtype", "static", "is", "as"]

/-- The words that begin a declaration wherever they stand. -/
def declarationWords : List String :=
  ["import", "class", "struct", "enum", "extension", "protocol", "func", "var", "let", "deinit",
   "typealias", "subscript", "case", "associatedtype"]

/-- The words that begin the declaration of a type. -/
def typeWords : List String :=
  ["class", "struct", "enum", "extension", "protocol", "actor"]

/-- The words that say what kind of thing an import names. -/
def importKinds : List String :=
  ["typealias", "struct", "class", "enum", "protocol", "let", "var", "func"]

namespace Token

/-- The token is a word that never begins an expression. -/
def isReserved (token : Token) : Bool :=
  token.kind == .identifier && reservedWords.contains token.text

/-- The token is one of the marks of an optional. -/
def isOptionalMark (token : Token) : Bool :=
  token.isOperator "?" || token.isOperator "!"

/-- The token is an operator that starts a generic clause. -/
def opensAngle (token : Token) : Bool :=
  token.kind == .operator && token.startsWith "<"

/-- The operator holds nothing but the given characters. -/
def consistsOf (token : Token) (characters : String) : Bool :=
  token.text.toList.all characters.toList.contains

end Token

/-- A declaration begins with the token, given the token after it. Some words are keywords only in
front of what they declare. -/
def isDeclarationKeyword (token next : Token) : Bool :=
  token.kind == .identifier &&
    (declarationWords.contains token.text ||
      token.text == "init" &&
        (next.kind == .leftParen || next.isOptionalMark || next.startsWith "<") ||
      ["actor", "macro", "precedencegroup"].contains token.text && next.kind == .identifier ||
      token.text == "operator" && next.kind == .operator)

/-- The generic brackets that the characters open, less those they close. -/
def angleBalance : List Char → Int
  | [] => 0
  | '<' :: rest => 1 + angleBalance rest
  | '>' :: rest => -1 + angleBalance rest
  | _ :: rest => angleBalance rest

/-- The generic brackets that a token opens, less those it closes. -/
def Token.angleDepth (token : Token) : Int :=
  if token.kind == .operator then angleBalance token.text.toList else 0

/-- The delimiters that a token opens, less those it closes. -/
def Token.delimiterDepth (token : Token) : Int :=
  if token.kind.isOpening then 1 else if token.kind.isClosing then -1 else 0

end SuiteMigration
