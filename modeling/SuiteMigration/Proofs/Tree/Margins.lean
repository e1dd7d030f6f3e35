import Mathlib.Tactic.Common
import SuiteMigration.Proofs.Tree.Lenses

/-!
# The margins of a node

The trivia before a node and those after it are its margins, and the text of a node is its trimmed
text between them. Reading and changing one margin is a lens, and the two lenses look at different
parts of the node, also where both margins belong to a single token. Parentheses around an
expression take over its margins.

## Main definitions

* `Node.takeLeading`, `Node.takeTrailing` - a margin, and the node without it
* `Node.HasMargins` - the laws of the two lenses at a node
* `NodeKind` - the types whose values are nodes, lists and options of nodes included

## Main results

* `Node.hasMargins` - every node obeys the laws
* `Expr.render_parenthesized` - an expression in parentheses
* `margins_are_lenses` - the laws for all kinds of nodes
-/

namespace SuiteMigration

namespace Node

/-- The trivia before the node, and the node without them. -/
def takeLeading [Node α] (node : α) : Trivia × α :=
  (leading node, setLeading node "")

/-- The trivia after the node, and the node without them. -/
def takeTrailing [Node α] (node : α) : Trivia × α :=
  (trailing node, setTrailing node "")

variable {α : Type} [Node α] {node : α}

/-- A node without tokens has no leading trivia. -/
theorem leading_of_tokens_eq_nil (empty : tokens node = []) : leading node = "" := by
  rw [leading, empty]
  rfl

theorem trailing_of_tokens_eq_nil (empty : tokens node = []) : trailing node = "" := by
  rw [trailing, empty]
  rfl

section Refillable

variable [Refillable α]

/-! ### One margin -/

/-- The leading trivia that has been put is what is found. -/
theorem leading_setLeading (some : tokens node ≠ []) (trivia : Trivia) :
    leading (setLeading node trivia) = trivia := by
  obtain ⟨first, later, tokens_eq⟩ := List.exists_cons_of_ne_nil some
  rw [leading, tokens_setLeading, tokens_eq]
  rfl

/-- The trailing trivia that has been put is what is found. -/
theorem trailing_setTrailing (some : tokens node ≠ []) (trivia : Trivia) :
    trailing (setTrailing node trivia) = trivia := by
  obtain ⟨front, last, tokens_eq⟩ := (List.eq_nil_or_concat (tokens node)).resolve_left some
  rw [trailing, tokens_setTrailing, tokens_eq, List.concat_eq_append, modifyLast_concat,
    List.getLast?_concat]
  rfl

/-- What was put first makes no difference. -/
theorem setLeading_setLeading (node : α) (first second : Trivia) :
    setLeading (setLeading node first) second = setLeading node second := by
  rw [setLeading, tokens_setLeading, modifyFirst_modifyFirst]
  exact refill_refill (length_modifyFirst _ _) (length_modifyFirst _ _)

/-- Putting the trivia that is there changes nothing. -/
theorem setLeading_leading (node : α) : setLeading node (leading node) = node := by
  have same : modifyFirst (·.withLeading (leading node)) (tokens node) = tokens node := by
    rw [leading]
    cases tokens node <;> rfl
  rw [setLeading, same, refill_tokens]

theorem setTrailing_trailing (node : α) : setTrailing node (trailing node) = node := by
  have same : modifyLast (·.withTrailing (trailing node)) (tokens node) = tokens node := by
    rw [trailing]
    rcases List.eq_nil_or_concat (tokens node) with empty | ⟨front, last, tokens_eq⟩
    · rw [empty]
      rfl
    · rw [tokens_eq, List.concat_eq_append, modifyLast_concat, List.getLast?_concat]
      rfl
  rw [setTrailing, same, refill_tokens]

/-- A node without tokens has no place for trivia. -/
theorem setLeading_of_tokens_eq_nil (empty : tokens node = []) (trivia : Trivia) :
    setLeading node trivia = node := by
  rw [setLeading, empty, modifyFirst, ← empty, refill_tokens]

theorem setTrailing_of_tokens_eq_nil (empty : tokens node = []) (trivia : Trivia) :
    setTrailing node trivia = node := by
  rw [setTrailing, empty, modifyLast, ← empty, refill_tokens]

/-! ### Both margins -/

/-- The other end keeps its trivia. -/
theorem trailing_setLeading (node : α) (trivia : Trivia) :
    trailing (setLeading node trivia) = trailing node := by
  rw [trailing, trailing, tokens_setLeading]
  rcases tokens node with _ | ⟨first, _ | ⟨second, later⟩⟩ <;> rfl

/-- The other end keeps its trivia. -/
theorem leading_setTrailing (node : α) (trivia : Trivia) :
    leading (setTrailing node trivia) = leading node := by
  rw [leading, leading, tokens_setTrailing]
  rcases tokens node with _ | ⟨first, _ | ⟨second, later⟩⟩ <;> rfl

/-- The margins are changed in any order, also if they belong to a single token. -/
theorem setTrailing_setLeading (node : α) (before after : Trivia) :
    setTrailing (setLeading node before) after = setLeading (setTrailing node after) before := by
  have trailingLast : setTrailing (setLeading node before) after =
      refill node
        (modifyLast (·.withTrailing after) (modifyFirst (·.withLeading before) (tokens node))) := by
    rw [setTrailing, tokens_setLeading]
    exact refill_refill (length_modifyFirst _ _)
      ((length_modifyLast _ _).trans (length_modifyFirst _ _))
  have leadingLast : setLeading (setTrailing node after) before =
      refill node
        (modifyFirst (·.withLeading before) (modifyLast (·.withTrailing after) (tokens node))) := by
    rw [setLeading, tokens_setTrailing]
    exact refill_refill (length_modifyLast _ _)
      ((length_modifyFirst _ _).trans (length_modifyLast _ _))
  rw [trailingLast, leadingLast, modifyLast_modifyFirst]

/-! ### The text between the margins -/

/-- A node is rendered as its leading trivia and what is behind it. -/
theorem render_eq_leading (node : α) :
    render node = leading node ++ render (setLeading node "") := by
  rw [render, render, leading, tokens_setLeading]
  cases tokens node with
  | nil => rfl
  | cons first later =>
    simp [modifyFirst, Token.render, Token.withLeading, String.append_assoc]

theorem render_eq_trailing (node : α) :
    render node = render (setTrailing node "") ++ trailing node := by
  rw [render, render, trailing, tokens_setTrailing]
  rcases List.eq_nil_or_concat (tokens node) with empty | ⟨front, last, tokens_eq⟩
  · rw [empty]
    rfl
  · rw [tokens_eq, List.concat_eq_append, modifyLast_concat, List.getLast?_concat]
    simp [Token.render, Token.withTrailing, String.append_assoc]

theorem trimmed_eq (node : α) :
    trimmed node = render (setTrailing (setLeading node "") "") := by
  rw [trimmed, render, tokens_setTrailing, tokens_setLeading]

/-- A node is rendered as its margins and what is between them. -/
theorem render_eq (node : α) :
    render node = leading node ++ trimmed node ++ trailing node := by
  rw [render_eq_leading, render_eq_trailing (setLeading node ""), trailing_setLeading, trimmed_eq,
    String.append_assoc]

/-! ### The laws together -/

/-- The margins of the node can be read and changed like independent fields around its text. -/
structure HasMargins (node : α) : Prop where
  render_eq : render node = leading node ++ trimmed node ++ trailing node
  /-- The trivia that are set before the node are read there, and nothing else has changed. -/
  leading_setLeading : tokens node ≠ [] → ∀ trivia, leading (setLeading node trivia) = trivia
  trimmed_setLeading : ∀ trivia, trimmed (setLeading node trivia) = trimmed node
  trailing_setLeading : ∀ trivia, trailing (setLeading node trivia) = trailing node
  /-- The trivia that are set after the node are read there, and nothing else has changed. -/
  trailing_setTrailing : tokens node ≠ [] → ∀ trivia, trailing (setTrailing node trivia) = trivia
  trimmed_setTrailing : ∀ trivia, trimmed (setTrailing node trivia) = trimmed node
  leading_setTrailing : ∀ trivia, leading (setTrailing node trivia) = leading node
  setTrailing_setLeading : ∀ before after,
    setTrailing (setLeading node before) after = setLeading (setTrailing node after) before
  /-- What was set before does not matter, and what is there can be put back. -/
  setLeading_setLeading : ∀ first second,
    setLeading (setLeading node first) second = setLeading node second
  setTrailing_setTrailing : ∀ first second,
    setTrailing (setTrailing node first) second = setTrailing node second
  setLeading_leading : setLeading node (leading node) = node
  setTrailing_trailing : setTrailing node (trailing node) = node
  /-- The old trivia are taken, and none are left. -/
  takeLeading : (takeLeading node).1 = leading node ∧ leading (takeLeading node).2 = "" ∧
    trimmed (takeLeading node).2 = trimmed node ∧ trailing (takeLeading node).2 = trailing node
  takeTrailing : (takeTrailing node).1 = trailing node ∧ trailing (takeTrailing node).2 = "" ∧
    trimmed (takeTrailing node).2 = trimmed node ∧ leading (takeTrailing node).2 = leading node
  /-- Without tokens there is nothing to read, and nothing changes. -/
  of_tokens_eq_nil : tokens node = [] → ∀ trivia,
    setLeading node trivia = node ∧ setTrailing node trivia = node ∧
      Node.takeLeading node = ("", node) ∧ Node.takeTrailing node = ("", node)

/-- Taking the leading trivia leaves none. -/
theorem leading_takeLeading (node : α) : leading (takeLeading node).2 = "" := by
  by_cases empty : tokens node = []
  · rw [takeLeading, setLeading_of_tokens_eq_nil empty, leading_of_tokens_eq_nil empty]
  · exact leading_setLeading empty ""

theorem trailing_takeTrailing (node : α) : trailing (takeTrailing node).2 = "" := by
  by_cases empty : tokens node = []
  · rw [takeTrailing, setTrailing_of_tokens_eq_nil empty, trailing_of_tokens_eq_nil empty]
  · exact trailing_setTrailing empty ""

/-- The margins of a node obey the laws of a pair of lenses. -/
theorem hasMargins (node : α) : HasMargins node where
  render_eq := render_eq node
  leading_setLeading := leading_setLeading
  trimmed_setLeading := trimmed_setLeading node
  trailing_setLeading := trailing_setLeading node
  trailing_setTrailing := trailing_setTrailing
  trimmed_setTrailing := trimmed_setTrailing node
  leading_setTrailing := leading_setTrailing node
  setTrailing_setLeading := setTrailing_setLeading node
  setLeading_setLeading := setLeading_setLeading node
  setTrailing_setTrailing := setTrailing_setTrailing node
  setLeading_leading := setLeading_leading node
  setTrailing_trailing := setTrailing_trailing node
  takeLeading := ⟨rfl, leading_takeLeading node, trimmed_setLeading node "",
    trailing_setLeading node ""⟩
  takeTrailing := ⟨rfl, trailing_takeTrailing node, trimmed_setTrailing node "",
    leading_setTrailing node ""⟩
  of_tokens_eq_nil := fun empty trivia =>
    ⟨setLeading_of_tokens_eq_nil empty trivia, setTrailing_of_tokens_eq_nil empty trivia,
      Prod.ext (leading_of_tokens_eq_nil empty) (setLeading_of_tokens_eq_nil empty ""),
      Prod.ext (trailing_of_tokens_eq_nil empty) (setTrailing_of_tokens_eq_nil empty "")⟩

end Refillable

end Node

/-! ### Parentheses -/

/-- The parentheses stand between an expression and its margins. -/
theorem Expr.render_parenthesized (expr : Expr) :
    Node.render expr.parenthesized =
      Node.leading expr ++ "(" ++ Node.trimmed expr ++ ")" ++ Node.trailing expr := by
  have inner : Node.render expr.parenthesized =
      ((Token.ofPunctuation '(').withLeading (Node.leading expr)).render ++
        Node.render (Node.setTrailing (Node.setLeading expr "") "") ++
        ((Token.ofPunctuation ')').withTrailing (Node.trailing expr)).render := by
    simp [Node.render, Node.tokens, Expr.parenthesized, Expr.tokens, ArgumentList.tokens,
      tokensOfArguments, Argument.tokens, Argument.ofValue, String.append_assoc]
  rw [inner, ← Node.trimmed_eq]
  simp [Token.render, Token.withLeading, Token.withTrailing, Token.ofPunctuation,
    String.append_assoc]

/-! ### All kinds of nodes -/

/-- The types whose values are nodes. Lists and options of nodes are nodes, also of lists and
options. -/
inductive NodeKind : (α : Type) → [Node α] → Prop
  | token : NodeKind Token
  | list [Node α] : NodeKind α → NodeKind (List α)
  | option [Node α] : NodeKind α → NodeKind (Option α)
  | attribute : NodeKind Attribute
  | modifier : NodeKind Modifier
  | typeAnnotation : NodeKind TypeAnnotation
  | pattern : NodeKind Pattern
  | label : NodeKind Label
  | closureSignature : NodeKind ClosureSignature
  | parameterClause : NodeKind ParameterClause
  | inheritedType : NodeKind InheritedType
  | inheritanceClause : NodeKind InheritanceClause
  | importDecl : NodeKind ImportDecl
  | rawDecl : NodeKind RawDecl
  | typeHeader : NodeKind TypeHeader
  | functionHeader : NodeKind FunctionHeader
  | initializerHeader : NodeKind InitializerHeader
  | keywordHeader : NodeKind KeywordHeader
  | expr : NodeKind Expr
  | argumentList : NodeKind ArgumentList
  | callArguments : NodeKind CallArguments
  | argument : NodeKind Argument
  | collectionElement : NodeKind CollectionElement
  | closure : NodeKind Closure
  | statement : NodeKind Statement
  | item : NodeKind Item
  | codeBlock : NodeKind CodeBlock
  | ifStatement : NodeKind IfStatement
  | elseClause : NodeKind ElseClause
  | condition : NodeKind Condition
  | clause : NodeKind Clause
  | catchClause : NodeKind CatchClause
  | switchCase : NodeKind SwitchCase
  | decl : NodeKind Decl
  | patternBinding : NodeKind PatternBinding
  | sourceFile : NodeKind SourceFile

/-- Every kind of node can be refilled. -/
theorem NodeKind.refillable {α : Type} [Node α] (kind : NodeKind α) : Refillable α := by
  induction kind with
  | list _ ih | option _ ih => infer_instance
  | _ => infer_instance

/-- The margins of nodes of every kind can be read and changed like independent fields around the
text of the node, and parentheses around an expression take over its margins. -/
theorem margins_are_lenses :
    (∀ (α : Type) [Node α], NodeKind α → ∀ node : α, Node.HasMargins node) ∧
      ∀ expr : Expr, Node.render expr.parenthesized =
        Node.leading expr ++ "(" ++ Node.trimmed expr ++ ")" ++ Node.trailing expr := by
  refine ⟨fun α _ kind node => ?_, Expr.render_parenthesized⟩
  have := kind.refillable
  exact Node.hasMargins node

/-- A name between comments, as a node of an option. -/
theorem margins_are_lenses_commented :
    let name : Expr := .identifier
      { kind := .identifier, text := "x", leading := "/* a */ ", trailing := " // b" }
    Node.tokens (some name) ≠ [] ∧ Node.leading (Node.setLeading (some name) "\n") = "\n" ∧
      Node.trailing (Node.setLeading (some name) "\n") = " // b" ∧
      Node.render name.parenthesized = "/* a */ (x) // b" := by
  intro name
  have margins := margins_are_lenses.1 _ (.option .expr) (some name)
  refine ⟨List.cons_ne_nil _ _, margins.leading_setLeading (List.cons_ne_nil _ _) _,
    margins.trailing_setLeading _, ?_⟩
  exact (margins_are_lenses.2 name).trans (by decide)

end SuiteMigration
