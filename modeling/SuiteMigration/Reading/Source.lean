import SuiteMigration.Reading.Grammar
import SuiteMigration.Token.Attachment

/-!
# Reading source texts

The tree of a source text, and the expression that a text spells. The fuel of the grammar is taken
from the number of tokens. Should it ever run out, the tokens are kept as they are, so that a tree
gives its text back in any case.

## Main definitions

* `fuelFor` - the fuel for a token stream
* `SourceFile.ofTokens`, `SourceFile.parse` - the tree of a token stream, or of a source text
* `Expr.parse` - the expression that a text spells
-/

namespace SuiteMigration

/-- The fuel with which a token stream is read. -/
def fuelFor (stream : TokenStream) : Nat :=
  24 * (stream.tokens.length + 2)

/-- The tree of a token stream. -/
def SourceFile.ofTokens (stream : TokenStream) : SourceFile :=
  match Parser.fileStatements (fuelFor stream) (.start stream) with
  | some (statements, _) => { statements, endOfFile := stream.endOfFile }
  | none =>
    { statements := [.ofItem (.raw stream.tokens)], endOfFile := stream.endOfFile }

/-- The tree of a source text. -/
def SourceFile.parse (source : String) : SourceFile :=
  .ofTokens (tokenize source)

/-- The expression at the start of a token stream. Tokens after it make the whole a raw run. -/
def Expr.ofTokens (stream : TokenStream) : Expr :=
  match Parser.expr (fuelFor stream) .free (.start stream) with
  | some (expr, rest) => if rest.atEnd then expr else .raw (expr.tokens ++ rest.pending)
  | none => .raw stream.tokens

/-- The expression that a text spells. -/
def Expr.parse (source : String) : Expr :=
  .ofTokens (tokenize source)

end SuiteMigration
