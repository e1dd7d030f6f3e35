import Mathlib.Tactic.Common
import SuiteMigration.Proofs.Tree.Rebuilding

/-!
# The ends of an expression

The trivia before an expression stand on its first token and those after it on its last one, and
these tokens may lie deep in it: the name that a call of a call begins with, the operand of a
postfix operator, the brace of a closure. A transformer that keeps both ends of every expression
whose parts it has rebuilt keeps them throughout, because the ends of an expression are those of its
parts.

## Main definitions

* `startTrivia` - the trivia before some tokens
* `SameEnds` - two runs of tokens with the same trivia at their ends
* `Transformer.KeepsEnds` - the law of a transformer

## Main results

* `SameEnds.append`, `SameEnds.flatMap` - runs that are put together
* `Transformer.KeepsEnds.yields_expr` - an expression after the transformation
-/

namespace SuiteMigration

variable {σ : Type}

/-! ### The ends of a run of tokens -/

/-- The trivia before some tokens. -/
def startTrivia (tokens : List Token) : Option Trivia :=
  tokens.head?.map Token.leading

@[simp] theorem startTrivia_cons (token : Token) (tokens : List Token) :
    startTrivia (token :: tokens) = some token.leading := rfl

/-- The first of two parts starts them, unless it has no token. -/
theorem startTrivia_append (first second : List Token) :
    startTrivia (first ++ second) = (startTrivia first).or (startTrivia second) := by
  simp [startTrivia, List.head?_append, Option.map_or]

/-- The leading trivia of a node is that of its first token. -/
theorem Node.leading_eq [Node α] (node : α) :
    Node.leading node = (startTrivia (Node.tokens node)).getD "" := by
  unfold Node.leading startTrivia
  cases (Node.tokens node).head? <;> rfl

/-- The trivia before the tokens and those after them are the same. -/
structure SameEnds (old new : List Token) : Prop where
  start : startTrivia new = startTrivia old
  ending : endTrivia new = endTrivia old

namespace SameEnds

variable {old new later newLater : List Token} {left right : Token}

theorem refl (tokens : List Token) : SameEnds tokens tokens :=
  ⟨rfl, rfl⟩

theorem trans {middle : List Token} (first : SameEnds old middle) (second : SameEnds middle new) :
    SameEnds old new :=
  ⟨second.start.trans first.start, second.ending.trans first.ending⟩

/-- Parts with the same ends have the same ends in a row. -/
theorem append (first : SameEnds old new) (second : SameEnds later newLater) :
    SameEnds (old ++ later) (new ++ newLater) where
  start := by rw [startTrivia_append, startTrivia_append, first.start, second.start]
  ending := by rw [endTrivia_append, endTrivia_append, first.ending, second.ending]

/-- Tokens in front are the same. -/
theorem before (run : List Token) (same : SameEnds old new) : SameEnds (run ++ old) (run ++ new) :=
  (refl run).append same

theorem behind (run : List Token) (same : SameEnds old new) : SameEnds (old ++ run) (new ++ run) :=
  same.append (refl run)

/-- Between two tokens anything can stand. -/
theorem between : SameEnds (left :: old ++ [right]) (left :: new ++ [right]) where
  start := rfl
  ending := by rw [endTrivia_append, endTrivia_append]; rfl

/-- Runs that are put together from runs with the same ends have the same ends. -/
theorem flatMap {parts : List α} {first second : α → List Token}
    (same : ∀ part ∈ parts, SameEnds (first part) (second part)) :
    SameEnds (parts.flatMap first) (parts.flatMap second) := by
  induction parts with
  | nil => exact refl []
  | cons part parts ih =>
    rw [List.forall_mem_cons] at same
    rw [List.flatMap_cons, List.flatMap_cons]
    exact same.1.append (ih same.2)

/-- Nodes with the same ends have the same leading trivia. -/
theorem leading_eq [Node α] {node node' : α}
    (same : SameEnds (Node.tokens node) (Node.tokens node')) :
    Node.leading node' = Node.leading node := by
  rw [Node.leading_eq, Node.leading_eq, same.start]

/-- Nodes with the same ends have the same trailing trivia. -/
theorem trailing_eq [Node α] {node node' : α}
    (same : SameEnds (Node.tokens node) (Node.tokens node')) :
    Node.trailing node' = Node.trailing node := by
  rw [Node.trailing_eq, Node.trailing_eq, same.ending]

end SameEnds

/-! ### The law of a transformer -/

/-- The two braces of the closure are kept. -/
def Closure.SameBraces (old new : Closure) : Prop :=
  new.leftBrace = old.leftBrace ∧ new.rightBrace = old.rightBrace

/-- The braces of a closure are its ends. -/
theorem Closure.SameBraces.sameEnds {old new : Closure} (same : old.SameBraces new) :
    SameEnds old.tokens new.tokens := by
  obtain ⟨left, signature, statements, right⟩ := old
  obtain ⟨newLeft, newSignature, newStatements, newRight⟩ := new
  obtain ⟨rfl, rfl⟩ : newLeft = left ∧ newRight = right := same
  exact ⟨rfl, by simp [Closure.tokens]⟩

/-- The two parentheses of the arguments are kept. -/
theorem ArgumentList.sameEnds (opener closer : Token) (old new : List Argument) :
    SameEnds (ArgumentList.tokens ⟨opener, old, closer⟩)
      (ArgumentList.tokens ⟨opener, new, closer⟩) :=
  .between

/-- The actions at an expression and at a closure keep the ends if the action for the parts does. -/
structure Transformer.KeepsEnds (t : Transformer σ) : Prop where
  expr : ∀ old parts, Yields parts (fun new => SameEnds old.tokens new.tokens) →
    Yields (t.expr old parts) fun new => SameEnds old.tokens new.tokens
  closure : ∀ old parts, Yields parts old.SameBraces → Yields (t.closure old parts) old.SameBraces

namespace Transformer.KeepsEnds

variable {t : Transformer σ}

/-- A transformed closure has the braces it had. -/
theorem yields_closure (laws : t.KeepsEnds) (closure : Closure) :
    Yields (closure.transform t) closure.SameBraces := by
  obtain ⟨left, signature, statements, right⟩ := closure
  exact laws.closure _ _ (.after fun _ => .pure ⟨rfl, rfl⟩)

theorem yields_closure? (laws : t.KeepsEnds) (closure : Option Closure) :
    Yields (transformClosure? t closure) fun new =>
      SameEnds (tokensOfClosure? closure) (tokensOfClosure? new) := by
  cases closure with
  | none => exact .pure (.refl _)
  | some closure => exact (laws.yields_closure closure).bind fun _ same => .pure same.sameEnds

/-- A transformed list of arguments has the delimiters it had. -/
theorem yields_argumentList (t : Transformer σ) (list : ArgumentList) :
    Yields (list.transform t) fun new => SameEnds list.tokens new.tokens := by
  obtain ⟨opener, arguments, closer⟩ := list
  exact .after fun _ => .pure (ArgumentList.sameEnds _ _ _ _)

-- The induction goes into the parts that an expression can begin or end with. A closure keeps its
-- ends whatever is in it, and so do arguments between two parentheses; a call may lack either.
mutual

/-- The transformer keeps the ends of every expression. -/
theorem yields_expr (laws : t.KeepsEnds) (expr : Expr) :
    Yields (expr.transform t) fun new => SameEnds expr.tokens new.tokens := by
  rw [Expr.transform.eq_def]
  refine laws.expr expr _ ?_
  match expr with
  | .identifier token | .literal token | .raw tokens => exact .pure (.refl _)
  | .member base period name =>
    exact (laws.yields_expr? base).bind fun _ same => .pure (same.behind [period, name])
  | .call callee arguments closure =>
    exact (laws.yields_expr callee).bind fun _ calleeSame =>
      (laws.yields_callArguments arguments).bind fun _ argumentsSame =>
      (laws.yields_closure? closure).bind fun _ closureSame =>
      .pure ((calleeSame.append argumentsSame).append closureSame)
  | .index base arguments =>
    exact (laws.yields_expr base).bind fun _ baseSame =>
      (yields_argumentList t arguments).bind fun _ argumentsSame =>
      .pure (baseSame.append argumentsSame)
  | .sequence operands operators =>
    exact (laws.yields_operands operands).bind fun _ same => .pure (same operators)
  | .prefixed operator operand =>
    exact (laws.yields_expr operand).bind fun _ same => .pure (same.before [operator])
  | .suffixed operand operator =>
    exact (laws.yields_expr operand).bind fun _ same => .pure (same.behind [operator])
  | .trying keyword mark operand =>
    exact (laws.yields_expr operand).bind fun _ same =>
      .pure (same.before (keyword :: Node.tokens mark))
  | .awaiting keyword operand =>
    exact (laws.yields_expr operand).bind fun _ same => .pure (same.before [keyword])
  | .tuple elements => exact (yields_argumentList t elements).bind fun _ same => .pure same
  | .collection left elements right => exact .after fun _ => .pure .between
  | .closure closure =>
    exact (laws.yields_closure closure).bind fun _ same => .pure same.sameEnds
  | .specialized base arguments =>
    exact (laws.yields_expr base).bind fun _ same => .pure (same.behind arguments)

theorem yields_expr? (laws : t.KeepsEnds) (expr : Option Expr) :
    Yields (transformExpr? t expr) fun new =>
      SameEnds (tokensOfExpr? expr) (tokensOfExpr? new) := by
  match expr with
  | none => exact .pure (.refl _)
  | some expr => exact (laws.yields_expr expr).bind fun _ same => .pure same

theorem yields_callArguments (laws : t.KeepsEnds) (list : CallArguments) :
    Yields (list.transform t) fun new => SameEnds list.tokens new.tokens := by
  match list with
  | ⟨left, arguments, right⟩ =>
    exact (laws.yields_arguments arguments).bind fun _ same =>
      .pure ((same.before (Node.tokens left)).behind (Node.tokens right))

theorem yields_arguments (laws : t.KeepsEnds) (arguments : List Argument) :
    Yields (transformArguments t arguments) fun new =>
      SameEnds (tokensOfArguments arguments) (tokensOfArguments new) := by
  match arguments with
  | [] => exact .pure (.refl _)
  | ⟨label, value, comma⟩ :: later =>
    exact (laws.yields_expr value).bind fun _ valueSame =>
      (laws.yields_arguments later).bind fun _ laterSame =>
      .pure (((valueSame.before (Node.tokens label)).behind (Node.tokens comma)).append laterSame)

/-- The operators stay as they are, whichever they are. -/
theorem yields_operands (laws : t.KeepsEnds) (operands : List Expr) :
    Yields (transformOperands t operands) fun new => ∀ operators,
      SameEnds (tokensOfOperands operands operators) (tokensOfOperands new operators) := by
  match operands with
  | [] => exact .pure fun _ => .refl _
  | operand :: later =>
    exact (laws.yields_expr operand).bind fun _ operandSame =>
      (laws.yields_operands later).bind fun _ laterSame =>
      .pure fun operators =>
        (operandSame.behind (Node.tokens operators.head?)).append (laterSame operators.tail)

end

end Transformer.KeepsEnds

end SuiteMigration
