import SuiteMigration.Tree.Tokens

/-!
# The layout of a node

The text of a node and the trivia at its two ends. The leading trivia of a node are those of its
first token, its trailing trivia those of its last token, and a node without tokens has none.

## Main definitions

* `Node.render`, `Node.trimmed` - the text of a node with and without the trivia at its ends
* `Node.leading`, `Node.trailing` - the trivia at its ends
* `Node.setLeading`, `Node.setTrailing` - the node with other trivia at an end
* `Expr.parenthesized` - an expression in parentheses, with its outer trivia around them
-/

namespace SuiteMigration

/-- The list with its first element changed. -/
def modifyFirst (change : α → α) : List α → List α
  | [] => []
  | first :: later => change first :: later

/-- The list with its last element changed. -/
def modifyLast (change : α → α) : List α → List α
  | [] => []
  | [last] => [change last]
  | first :: second :: later => first :: modifyLast change (second :: later)

namespace Node

variable [Node α]

/-- The node with the given tokens in place of its own. -/
def refill (node : α) (tokens : List Token) : α :=
  (fill node tokens).1

/-- The text of the node. -/
def render (node : α) : String :=
  Token.renderAll (tokens node)

/-- The trivia before the node. -/
def leading (node : α) : Trivia :=
  match (tokens node).head? with
  | some first => first.leading
  | none => ""

/-- The trivia after the node. -/
def trailing (node : α) : Trivia :=
  match (tokens node).getLast? with
  | some last => last.trailing
  | none => ""

/-- The text of the node without the trivia at its ends. -/
def trimmed (node : α) : String :=
  Token.renderAll (modifyLast (·.withTrailing "") (modifyFirst (·.withLeading "") (tokens node)))

/-- The node with the given trivia before it. -/
def setLeading (node : α) (trivia : Trivia) : α :=
  refill node (modifyFirst (·.withLeading trivia) (tokens node))

/-- The node with the given trivia after it. -/
def setTrailing (node : α) (trivia : Trivia) : α :=
  refill node (modifyLast (·.withTrailing trivia) (tokens node))

end Node

/-- The name of an inherited type. -/
def InheritedType.name (type : InheritedType) : String :=
  Node.trimmed type.tokens

/-- The expression in parentheses, which take over its outer trivia. -/
def Expr.parenthesized (expr : Expr) : Expr :=
  .tuple
    { opener := (Token.ofPunctuation '(').withLeading (Node.leading expr)
      arguments := [.ofValue (Node.setTrailing (Node.setLeading expr "") "")]
      closer := (Token.ofPunctuation ')').withTrailing (Node.trailing expr) }

end SuiteMigration
