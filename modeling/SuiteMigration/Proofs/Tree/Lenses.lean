import Mathlib.Tactic.Common
import SuiteMigration.Proofs.Tree.Assembly

/-!
# A node and its tokens

A node is a shape with places for tokens. Filling it with a list of the right length gives the node
of the same shape with these tokens, and nothing of the old tokens is left. So reading and filling a
node obey the laws of a lens, and the trivia at an end of a node are those of the token there.

## Main definitions

* `Node.Template` - the shape of a node, as a function of the tokens in its places
* `Node.Lawful`, `Refillable` - a node has a shape, and all nodes of a type do

## Main results

* `Expr.lawful`, `Statement.lawful` - every node of a tree has a shape
* `Node.refill_tokens`, `Node.tokens_refill`, `Node.refill_refill` - the laws of a lens
* `Node.setTrailing_setTrailing` - the same for the trivia after a node
* `Node.trimmed_setLeading`, `Node.trimmed_setTrailing` - the text between the trivia stays
* `Node.Assembles.setLeading_first` - the trivia before a node are those before its first part, if
  that has tokens
-/

namespace SuiteMigration

/-! ### Lists with an end changed -/

theorem length_modifyFirst (change : α → α) (values : List α) :
    (modifyFirst change values).length = values.length := by
  cases values <;> rfl

theorem length_modifyLast (change : α → α) (values : List α) :
    (modifyLast change values).length = values.length := by
  match values with
  | [] => rfl
  | [_] => rfl
  | _ :: second :: later => simp [modifyLast, length_modifyLast change (second :: later)]

theorem modifyLast_concat (change : α → α) (values : List α) (last : α) :
    modifyLast change (values ++ [last]) = values ++ [change last] := by
  match values with
  | [] => rfl
  | [_] => rfl
  | _ :: second :: later =>
    exact congrArg (_ :: ·) (modifyLast_concat change (second :: later) last)

/-- A view that the change respects does not notice a change of the first value. -/
theorem map_modifyFirst {α β : Type} {view : α → β} {change : α → α}
    (same : ∀ value, view (change value) = view value) (values : List α) :
    (modifyFirst change values).map view = values.map view := by
  cases values with
  | nil => rfl
  | cons first later => simp [modifyFirst, same]

/-- A view that the change respects does not notice a change of the last value. -/
theorem map_modifyLast {α β : Type} {view : α → β} {change : α → α}
    (same : ∀ value, view (change value) = view value) (values : List α) :
    (modifyLast change values).map view = values.map view := by
  match values with
  | [] => rfl
  | [last] => simp [modifyLast, same]
  | first :: second :: later =>
    rw [modifyLast, List.map_cons, map_modifyLast same (second :: later), ← List.map_cons]

/-- Two changes of the same end are one change. -/
theorem modifyFirst_modifyFirst {α : Type} (change further : α → α) (values : List α) :
    modifyFirst further (modifyFirst change values) = modifyFirst (further ∘ change) values := by
  cases values <;> rfl

theorem modifyLast_modifyLast {α : Type} (change further : α → α) (values : List α) :
    modifyLast further (modifyLast change values) = modifyLast (further ∘ change) values := by
  rcases List.eq_nil_or_concat values with rfl | ⟨front, last, rfl⟩
  · rfl
  · simp only [List.concat_eq_append, modifyLast_concat, Function.comp_apply]

/-- The trivia before some tokens and those after them are changed in any order, also if the tokens
are a single one. -/
theorem modifyLast_modifyFirst (leading trailing : Trivia) (tokens : List Token) :
    modifyLast (·.withTrailing trailing) (modifyFirst (·.withLeading leading) tokens) =
      modifyFirst (·.withLeading leading) (modifyLast (·.withTrailing trailing) tokens) := by
  match tokens with
  | [] | [_] | _ :: _ :: _ => rfl

/-- A list that is as long as two lists together is cut between them. -/
theorem exists_append_of_length_eq {supply first second : List Token}
    (size : supply.length = (first ++ second).length) :
    ∃ front back, supply = front ++ back ∧ front.length = first.length ∧
      back.length = second.length := by
  rw [List.length_append] at size
  refine ⟨supply.take first.length, supply.drop first.length, ?_, ?_, ?_⟩
  · exact (List.take_append_drop ..).symm
  · rw [List.length_take]
    omega
  · rw [List.length_drop]
    omega

namespace Node

variable {α β : Type} [Node α] [Node β]

/-! ### Shapes -/

/-- The function makes the node that has the given tokens, and filling such a node with other tokens
makes the node of these. -/
structure Template (size : Nat) (make : List Token → α) : Prop where
  tokens_make : ∀ {supply}, supply.length = size → tokens (make supply) = supply
  fill_make : ∀ {supply next} rest, supply.length = size → next.length = size →
    fill (make supply) (next ++ rest) = (make next, rest)

/-- The node is made of its tokens by a template. -/
structure Lawful (node : α) : Prop where
  exists_template : ∃ make : List Token → α,
    Template (tokens node).length make ∧ make (tokens node) = node

theorem Lawful.unit : Lawful () := by
  refine ⟨fun _ => (), ⟨?_, ?_⟩, rfl⟩
  · intro supply empty
    exact (List.eq_nil_of_length_eq_zero empty).symm
  · intro supply next rest _ empty
    obtain rfl := List.eq_nil_of_length_eq_zero empty
    rfl

theorem Lawful.token (token : Token) : Lawful token := by
  refine ⟨fun supply => supply.headD token, ⟨?_, ?_⟩, rfl⟩
  · intro supply single
    obtain ⟨only, rfl⟩ := List.length_eq_one_iff.1 single
    rfl
  · intro supply next rest _ single
    obtain ⟨only, rfl⟩ := List.length_eq_one_iff.1 single
    rfl

/-- The places of a pair are filled one after the other. -/
theorem fill_pair (first : α) (second : β) (supply : List Token) :
    fill (first, second) supply =
      (((fill first supply).1, (fill second (fill first supply).2).1),
        (fill second (fill first supply).2).2) := rfl

/-- Two lawful nodes side by side are lawful. -/
theorem Lawful.pair {first : α} {second : β} (firstLawful : Lawful first)
    (secondLawful : Lawful second) : Lawful (first, second) := by
  obtain ⟨makeFirst, firstFits, first_eq⟩ := firstLawful
  obtain ⟨makeSecond, secondFits, second_eq⟩ := secondLawful
  have tokens_eq : tokens (first, second) = tokens first ++ tokens second := rfl
  constructor
  rw [tokens_eq]
  refine ⟨fun supply => (makeFirst (supply.take (tokens first).length),
    makeSecond (supply.drop (tokens first).length)), ⟨?_, ?_⟩, ?_⟩
  · intro supply size
    obtain ⟨front, back, rfl, frontSize, backSize⟩ := exists_append_of_length_eq size
    show tokens (makeFirst _) ++ tokens (makeSecond _) = _
    rw [← frontSize, List.take_left, List.drop_left, firstFits.tokens_make frontSize,
      secondFits.tokens_make backSize]
  · intro supply next rest size nextSize
    obtain ⟨front, back, rfl, frontSize, backSize⟩ := exists_append_of_length_eq size
    obtain ⟨nextFront, nextBack, rfl, nextFrontSize, nextBackSize⟩ :=
      exists_append_of_length_eq nextSize
    rw [← frontSize, List.take_left, List.drop_left, frontSize, ← nextFrontSize, List.take_left,
      List.drop_left, fill_pair, List.append_assoc,
      firstFits.fill_make _ frontSize nextFrontSize, secondFits.fill_make _ backSize nextBackSize]
  · show (makeFirst _, makeSecond _) = _
    rw [List.take_left, List.drop_left, first_eq, second_eq]

/-- A node that is put together from parts has a shape if the parts have one. -/
theorem Assembles.lawful {make : β → α} {parts : β} (assembles : Assembles make)
    (lawful : Lawful parts) : Lawful (make parts) := by
  obtain ⟨makeParts, fits, parts_eq⟩ := lawful
  constructor
  rw [assembles.tokens_eq]
  refine ⟨fun supply => make (makeParts supply), ⟨?_, ?_⟩, congrArg make parts_eq⟩
  · intro supply size
    rw [assembles.tokens_eq]
    exact fits.tokens_make size
  · intro supply next rest size nextSize
    rw [assembles.fill_eq]
    show (make (fill _ _).1, (fill _ _).2) = _
    rw [fits.fill_make rest size nextSize]

end Node

open Node (Lawful)

/-- The nodes of the type have shapes. -/
class Refillable (α : Type) [Node α] : Prop where
  lawful : ∀ node : α, Lawful node

instance : Refillable Unit where
  lawful _ := .unit

instance : Refillable Token where
  lawful := .token

instance {α β : Type} [Node α] [Node β] [Refillable α] [Refillable β] :
    Refillable (α × β) where
  lawful pair := .pair (Refillable.lawful pair.1) (Refillable.lawful pair.2)

instance {α : Type} [Node α] [Refillable α] : Refillable (Option α) where
  lawful
    | none => assembles_none.lawful Lawful.unit
    | some node => assembles_some.lawful (Refillable.lawful node)

instance {α : Type} [Node α] [Refillable α] : Refillable (List α) where
  lawful nodes := by
    induction nodes with
    | nil => exact assembles_nil.lawful Lawful.unit
    | cons node later ih => exact assembles_cons.lawful (.pair (Refillable.lawful node) ih)

/-! ### Parts that hold tokens only -/

instance : Refillable Attribute where
  lawful node := Attribute.assembles.lawful
    (Refillable.lawful (node.atSign, node.name, node.arguments))

instance : Refillable Modifier where
  lawful node := Modifier.assembles.lawful (Refillable.lawful (node.name, node.detail))

instance : Refillable TypeAnnotation where
  lawful node := TypeAnnotation.assembles.lawful (Refillable.lawful (node.colon, node.type))

instance : Refillable Pattern where
  lawful
    | .identifier token => Pattern.assembles_identifier.lawful (.token token)
    | .raw tokens => Pattern.assembles_raw.lawful (Refillable.lawful tokens)

instance : Refillable Label where
  lawful node := Label.assembles.lawful (Refillable.lawful (node.name, node.colon))

instance : Refillable ClosureSignature where
  lawful node := ClosureSignature.assembles.lawful (Refillable.lawful (node.tokens, node.inKeyword))

instance : Refillable ParameterClause where
  lawful node := ParameterClause.assembles.lawful
    (Refillable.lawful (node.leftParen, node.parameters, node.rightParen))

instance : Refillable InheritedType where
  lawful node := InheritedType.assembles.lawful (Refillable.lawful (node.tokens, node.comma))

instance : Refillable InheritanceClause where
  lawful node := InheritanceClause.assembles.lawful (Refillable.lawful (node.colon, node.types))

instance : Refillable ImportDecl where
  lawful node := ImportDecl.assembles.lawful
    (Refillable.lawful (node.attributes, node.modifiers, node.keyword, node.kind, node.path))

instance : Refillable RawDecl where
  lawful node := RawDecl.assembles.lawful
    (Refillable.lawful (node.attributes, node.modifiers, node.tokens))

instance : Refillable TypeHeader where
  lawful node := TypeHeader.assembles.lawful
    (Refillable.lawful (node.attributes, node.modifiers, node.keyword, node.name,
      node.genericParameters, node.inheritance, node.whereClause))

instance : Refillable FunctionHeader where
  lawful node := FunctionHeader.assembles.lawful
    (Refillable.lawful (node.attributes, node.modifiers, node.keyword, node.name,
      node.genericParameters, node.parameters, node.signature))

instance : Refillable InitializerHeader where
  lawful node := InitializerHeader.assembles.lawful
    (Refillable.lawful (node.attributes, node.modifiers, node.keyword, node.optionalMark,
      node.genericParameters, node.parameters, node.signature))

instance : Refillable KeywordHeader where
  lawful node := KeywordHeader.assembles.lawful
    (Refillable.lawful (node.attributes, node.modifiers, node.keyword))

/-! ### Expressions, statements and declarations -/

-- The induction follows the tree. A part that holds tokens only has a shape by the instances above.
mutual

/-- Every expression obeys the laws of reading and filling its tokens. -/
theorem Expr.lawful : ∀ expr : Expr, Lawful expr
  | .identifier token => Expr.assembles_identifier.lawful (.token token)
  | .literal token => Expr.assembles_literal.lawful (.token token)
  | .member base period name =>
    Expr.assembles_member.lawful (.pair (lawfulExpr? base) (Refillable.lawful (period, name)))
  | .call callee arguments trailing =>
    Expr.assembles_call.lawful
      (.pair callee.lawful (.pair arguments.lawful (lawfulClosure? trailing)))
  | .index base arguments => Expr.assembles_index.lawful (.pair base.lawful arguments.lawful)
  | .sequence operands operators =>
    Expr.assembles_sequence.lawful (lawfulOperands operands operators)
  | .prefixed operator operand =>
    Expr.assembles_prefixed.lawful (.pair (.token operator) operand.lawful)
  | .suffixed operand operator =>
    Expr.assembles_suffixed.lawful (.pair operand.lawful (.token operator))
  | .trying keyword mark operand =>
    Expr.assembles_trying.lawful
      (.pair (.token keyword) (.pair (Refillable.lawful mark) operand.lawful))
  | .awaiting keyword operand =>
    Expr.assembles_awaiting.lawful (.pair (.token keyword) operand.lawful)
  | .tuple elements => Expr.assembles_tuple.lawful elements.lawful
  | .collection left elements right =>
    Expr.assembles_collection.lawful
      (.pair (.token left) (.pair (lawfulElements elements) (.token right)))
  | .closure inner => Expr.assembles_closure.lawful inner.lawful
  | .specialized base arguments =>
    Expr.assembles_specialized.lawful (.pair base.lawful (Refillable.lawful arguments))
  | .raw run => Expr.assembles_raw.lawful (Refillable.lawful run)

theorem lawfulExpr? : ∀ expr : Option Expr, Lawful expr
  | none => assembles_none.lawful Lawful.unit
  | some expr => assembles_some.lawful expr.lawful

theorem ArgumentList.lawful : ∀ list : ArgumentList, Lawful list
  | ⟨opener, arguments, closer⟩ =>
    ArgumentList.assembles.lawful
      (.pair (.token opener) (.pair (lawfulArguments arguments) (.token closer)))

theorem CallArguments.lawful : ∀ list : CallArguments, Lawful list
  | ⟨left, arguments, right⟩ =>
    CallArguments.assembles.lawful
      (.pair (Refillable.lawful left) (.pair (lawfulArguments arguments) (Refillable.lawful right)))

theorem Argument.lawful : ∀ argument : Argument, Lawful argument
  | ⟨label, value, comma⟩ =>
    Argument.assembles.lawful
      (.pair (Refillable.lawful label) (.pair value.lawful (Refillable.lawful comma)))

theorem lawfulArguments : ∀ arguments : List Argument, Lawful arguments
  | [] => assembles_nil.lawful Lawful.unit
  | argument :: later => assembles_cons.lawful (.pair argument.lawful (lawfulArguments later))

theorem lawfulExprs : ∀ exprs : List Expr, Lawful exprs
  | [] => assembles_nil.lawful Lawful.unit
  | expr :: later => assembles_cons.lawful (.pair expr.lawful (lawfulExprs later))

theorem lawfulOperands : ∀ (operands : List Expr) (operators : List Token),
    Lawful (OperatorRow.mk operands operators)
  | [], operators => (OperatorRow.assembles_nil operators).lawful Lawful.unit
  | operand :: later, [] =>
    OperatorRow.assembles_operands.lawful
      (assembles_cons.lawful (.pair operand.lawful (lawfulExprs later)))
  | operand :: later, operator :: operators =>
    OperatorRow.assembles_cons.lawful
      (.pair operand.lawful (.pair (.token operator) (lawfulOperands later operators)))

theorem CollectionElement.lawful : ∀ element : CollectionElement, Lawful element
  | .value element comma =>
    CollectionElement.assembles_value.lawful (.pair element.lawful (Refillable.lawful comma))
  | .entry key colon element comma =>
    CollectionElement.assembles_entry.lawful
      (.pair key.lawful (.pair (.token colon) (.pair element.lawful (Refillable.lawful comma))))

theorem lawfulElements : ∀ elements : List CollectionElement, Lawful elements
  | [] => assembles_nil.lawful Lawful.unit
  | element :: later => assembles_cons.lawful (.pair element.lawful (lawfulElements later))

theorem Closure.lawful : ∀ closure : Closure, Lawful closure
  | ⟨left, signature, statements, right⟩ =>
    Closure.assembles.lawful (.pair (.token left) (.pair (Refillable.lawful signature)
      (.pair (lawfulStatements statements) (.token right))))

theorem lawfulClosure? : ∀ closure : Option Closure, Lawful closure
  | none => assembles_none.lawful Lawful.unit
  | some closure => assembles_some.lawful closure.lawful

theorem Statement.lawful : ∀ statement : Statement, Lawful statement
  | ⟨item, semicolon⟩ =>
    Statement.assembles.lawful (.pair item.lawful (Refillable.lawful semicolon))

/-- Every statement list obeys the laws of reading and filling its tokens. -/
theorem lawfulStatements : ∀ statements : List Statement, Lawful statements
  | [] => assembles_nil.lawful Lawful.unit
  | statement :: later => assembles_cons.lawful (.pair statement.lawful (lawfulStatements later))

theorem Item.lawful : ∀ item : Item, Lawful item
  | .expr expr => Item.assembles_expr.lawful expr.lawful
  | .decl decl => Item.assembles_decl.lawful decl.lawful
  | .returning keyword value =>
    Item.assembles_returning.lawful (.pair (.token keyword) (lawfulExpr? value))
  | .throwing keyword value => Item.assembles_throwing.lawful (.pair (.token keyword) value.lawful)
  | .conditional statement => Item.assembles_conditional.lawful statement.lawful
  | .guarding keyword conditions elseKeyword body =>
    Item.assembles_guarding.lawful (.pair (.token keyword) (.pair (lawfulConditions conditions)
      (.pair (.token elseKeyword) body.lawful)))
  | .forIn keyword modifiers pattern type inKeyword sequence filter body =>
    Item.assembles_forIn.lawful (.pair (.token keyword) (.pair (Refillable.lawful modifiers)
      (.pair (Refillable.lawful pattern) (.pair (Refillable.lawful type) (.pair (.token inKeyword)
        (.pair sequence.lawful (.pair (lawfulClause? filter) body.lawful)))))))
  | .whileLoop keyword conditions body =>
    Item.assembles_whileLoop.lawful
      (.pair (.token keyword) (.pair (lawfulConditions conditions) body.lawful))
  | .repeatLoop keyword body whileKeyword condition =>
    Item.assembles_repeatLoop.lawful (.pair (.token keyword) (.pair body.lawful
      (.pair (.token whileKeyword) condition.lawful)))
  | .doCatch keyword throwsClause body catches =>
    Item.assembles_doCatch.lawful (.pair (.token keyword) (.pair (Refillable.lawful throwsClause)
      (.pair body.lawful (lawfulCatches catches))))
  | .switching keyword subject left branches right =>
    Item.assembles_switching.lawful (.pair (.token keyword) (.pair subject.lawful
      (.pair (.token left) (.pair (lawfulCases branches) (.token right)))))
  | .deferring keyword body => Item.assembles_deferring.lawful (.pair (.token keyword) body.lawful)
  | .raw run => Item.assembles_raw.lawful (Refillable.lawful run)

theorem CodeBlock.lawful : ∀ block : CodeBlock, Lawful block
  | ⟨left, statements, right⟩ =>
    CodeBlock.assembles.lawful
      (.pair (.token left) (.pair (lawfulStatements statements) (.token right)))

theorem lawfulBlock? : ∀ block : Option CodeBlock, Lawful block
  | none => assembles_none.lawful Lawful.unit
  | some block => assembles_some.lawful block.lawful

theorem IfStatement.lawful : ∀ statement : IfStatement, Lawful statement
  | ⟨keyword, conditions, body, alternative⟩ =>
    IfStatement.assembles.lawful (.pair (.token keyword) (.pair (lawfulConditions conditions)
      (.pair body.lawful alternative.lawful)))

theorem ElseClause.lawful : ∀ alternative : ElseClause, Lawful alternative
  | .absent => ElseClause.assembles_absent.lawful Lawful.unit
  | .block keyword body => ElseClause.assembles_block.lawful (.pair (.token keyword) body.lawful)
  | .chained keyword next =>
    ElseClause.assembles_chained.lawful (.pair (.token keyword) next.lawful)

theorem Condition.lawful : ∀ condition : Condition, Lawful condition
  | .expr test comma =>
    Condition.assembles_expr.lawful (.pair test.lawful (Refillable.lawful comma))
  | .binding specifier pattern type initializer comma =>
    Condition.assembles_binding.lawful (.pair (.token specifier) (.pair (Refillable.lawful pattern)
      (.pair (Refillable.lawful type)
        (.pair (lawfulClause? initializer) (Refillable.lawful comma)))))

theorem lawfulConditions : ∀ conditions : List Condition, Lawful conditions
  | [] => assembles_nil.lawful Lawful.unit
  | condition :: later => assembles_cons.lawful (.pair condition.lawful (lawfulConditions later))

theorem Clause.lawful : ∀ clause : Clause, Lawful clause
  | ⟨mark, value⟩ => Clause.assembles.lawful (.pair (.token mark) value.lawful)

theorem lawfulClause? : ∀ clause : Option Clause, Lawful clause
  | none => assembles_none.lawful Lawful.unit
  | some clause => assembles_some.lawful clause.lawful

theorem CatchClause.lawful : ∀ clause : CatchClause, Lawful clause
  | ⟨keyword, pattern, body⟩ =>
    CatchClause.assembles.lawful
      (.pair (.token keyword) (.pair (Refillable.lawful pattern) body.lawful))

theorem lawfulCatches : ∀ catches : List CatchClause, Lawful catches
  | [] => assembles_nil.lawful Lawful.unit
  | clause :: later => assembles_cons.lawful (.pair clause.lawful (lawfulCatches later))

theorem SwitchCase.lawful : ∀ branch : SwitchCase, Lawful branch
  | ⟨label, statements⟩ =>
    SwitchCase.assembles.lawful (.pair (Refillable.lawful label) (lawfulStatements statements))

theorem lawfulCases : ∀ branches : List SwitchCase, Lawful branches
  | [] => assembles_nil.lawful Lawful.unit
  | branch :: later => assembles_cons.lawful (.pair branch.lawful (lawfulCases later))

theorem Decl.lawful : ∀ decl : Decl, Lawful decl
  | .importing decl => Decl.assembles_importing.lawful (Refillable.lawful decl)
  | .type header members =>
    Decl.assembles_type.lawful (.pair (Refillable.lawful header) members.lawful)
  | .function header body =>
    Decl.assembles_function.lawful (.pair (Refillable.lawful header) (lawfulBlock? body))
  | .variable header bindings =>
    Decl.assembles_variable.lawful (.pair (Refillable.lawful header) (lawfulBindings bindings))
  | .initializer header body =>
    Decl.assembles_initializer.lawful (.pair (Refillable.lawful header) (lawfulBlock? body))
  | .finalizer header body =>
    Decl.assembles_finalizer.lawful (.pair (Refillable.lawful header) (lawfulBlock? body))
  | .raw decl => Decl.assembles_raw.lawful (Refillable.lawful decl)

theorem PatternBinding.lawful : ∀ binding : PatternBinding, Lawful binding
  | ⟨pattern, type, initializer, accessor, comma⟩ =>
    PatternBinding.assembles.lawful
      (.pair (Refillable.lawful pattern) (.pair (Refillable.lawful type)
      (.pair (lawfulClause? initializer) (.pair (lawfulBlock? accessor)
        (Refillable.lawful comma)))))

theorem lawfulBindings : ∀ bindings : List PatternBinding, Lawful bindings
  | [] => assembles_nil.lawful Lawful.unit
  | binding :: later => assembles_cons.lawful (.pair binding.lawful (lawfulBindings later))

end

instance : Refillable Expr := ⟨Expr.lawful⟩

instance : Refillable ArgumentList := ⟨ArgumentList.lawful⟩

instance : Refillable Argument := ⟨Argument.lawful⟩

instance : Refillable CallArguments := ⟨CallArguments.lawful⟩

instance : Refillable OperatorRow := ⟨fun row => lawfulOperands row.operands row.operators⟩

instance : Refillable CollectionElement := ⟨CollectionElement.lawful⟩

instance : Refillable Closure := ⟨Closure.lawful⟩

instance : Refillable Statement := ⟨Statement.lawful⟩

instance : Refillable Item := ⟨Item.lawful⟩

instance : Refillable CodeBlock := ⟨CodeBlock.lawful⟩

instance : Refillable IfStatement := ⟨IfStatement.lawful⟩

instance : Refillable ElseClause := ⟨ElseClause.lawful⟩

instance : Refillable Condition := ⟨Condition.lawful⟩

instance : Refillable Clause := ⟨Clause.lawful⟩

instance : Refillable CatchClause := ⟨CatchClause.lawful⟩

instance : Refillable SwitchCase := ⟨SwitchCase.lawful⟩

instance : Refillable Decl := ⟨Decl.lawful⟩

instance : Refillable PatternBinding := ⟨PatternBinding.lawful⟩

instance : Refillable SourceFile where
  lawful file := SourceFile.assembles.lawful (Refillable.lawful (file.statements, file.endOfFile))

/-! ### The laws of a lens -/

namespace Node

variable {α β : Type} [Node α] [Node β]

/-- Filling a node is making it anew from other tokens, of which there must be as many. -/
theorem Template.refill_eq {node : α} {make : List Token → α} {new : List Token}
    (fits : Template (tokens node).length make) (node_eq : make (tokens node) = node)
    (size : new.length = (tokens node).length) : refill node new = make new := by
  have filled := fits.fill_make [] rfl size
  rw [node_eq, List.append_nil] at filled
  rw [refill, filled]

/-- A node assembled from parts is filled by filling its parts. -/
theorem Assembles.refill {make : β → α} (assembles : Assembles make) (parts : β)
    (new : List Token) : refill (make parts) new = make (refill parts new) := by
  rw [Node.refill, assembles.fill_eq]
  rfl

/-- The leading trivia of an assembled node are those of its parts. -/
theorem Assembles.setLeading {make : β → α} (assembles : Assembles make) (parts : β)
    (trivia : Trivia) : setLeading (make parts) trivia = make (setLeading parts trivia) := by
  rw [Node.setLeading, assembles.tokens_eq]
  exact assembles.refill ..

section Refillable

variable [Refillable α] [Refillable β]

/-- A node takes as many tokens from the supply as it has. -/
theorem fill_append (node : α) {new : List Token} (rest : List Token)
    (size : new.length = (tokens node).length) :
    fill node (new ++ rest) = (refill node new, rest) := by
  obtain ⟨make, fits, node_eq⟩ := (Refillable.lawful node).exists_template
  have filled := fits.fill_make rest rfl size
  rwa [node_eq, ← fits.refill_eq node_eq size] at filled

/-- Putting back the tokens that were read gives the node itself. -/
theorem refill_tokens (node : α) : refill node (tokens node) = node := by
  obtain ⟨make, fits, node_eq⟩ := (Refillable.lawful node).exists_template
  rw [fits.refill_eq node_eq rfl, node_eq]

/-- The tokens put into a node are read back from it. -/
theorem tokens_refill {node : α} {new : List Token} (size : new.length = (tokens node).length) :
    tokens (refill node new) = new := by
  obtain ⟨make, fits, node_eq⟩ := (Refillable.lawful node).exists_template
  rw [fits.refill_eq node_eq size, fits.tokens_make size]

/-- Of two fillings in a row the second one stays. -/
theorem refill_refill {node : α} {first second : List Token}
    (firstSize : first.length = (tokens node).length)
    (secondSize : second.length = (tokens node).length) :
    refill (refill node first) second = refill node second := by
  obtain ⟨make, fits, node_eq⟩ := (Refillable.lawful node).exists_template
  have filled := fits.fill_make [] firstSize secondSize
  rw [List.append_nil] at filled
  rw [fits.refill_eq node_eq firstSize, fits.refill_eq node_eq secondSize, refill, filled]

/-! ### The trivia at the ends of a node -/

/-- Setting the leading trivia changes the first token and no other. -/
theorem tokens_setLeading (node : α) (trivia : Trivia) :
    tokens (setLeading node trivia) = modifyFirst (·.withLeading trivia) (tokens node) :=
  tokens_refill (length_modifyFirst _ _)

/-- Setting the trailing trivia changes the last token and no other. -/
theorem tokens_setTrailing (node : α) (trivia : Trivia) :
    tokens (setTrailing node trivia) = modifyLast (·.withTrailing trivia) (tokens node) :=
  tokens_refill (length_modifyLast _ _)

/-- Of two trailing trivia set in a row the second stays. -/
theorem setTrailing_setTrailing (node : α) (first second : Trivia) :
    setTrailing (setTrailing node first) second = setTrailing node second := by
  rw [setTrailing, tokens_setTrailing, modifyLast_modifyLast]
  exact refill_refill (length_modifyLast _ _) (length_modifyLast _ _)

/-- The trivia at its ends are no part of the trimmed text of a node. -/
theorem trimmed_setLeading (node : α) (trivia : Trivia) :
    trimmed (setLeading node trivia) = trimmed node := by
  rw [trimmed, tokens_setLeading, modifyFirst_modifyFirst]
  rfl

/-- Trailing trivia do not show in a trimmed node. -/
theorem trimmed_setTrailing (node : α) (trivia : Trivia) :
    trimmed (setTrailing node trivia) = trimmed node := by
  rw [trimmed, trimmed, tokens_setTrailing, modifyLast_modifyFirst, modifyLast_modifyLast,
    modifyLast_modifyFirst]
  rfl

/-- Two nodes side by side are filled each from its own share of the tokens. -/
theorem refill_pair {first : α} {second : β} {front back : List Token}
    (frontSize : front.length = (tokens first).length)
    (backSize : back.length = (tokens second).length) :
    refill (first, second) (front ++ back) = (refill first front, refill second back) := by
  have backFilled := fill_append second [] backSize
  rw [List.append_nil] at backFilled
  rw [refill, fill_pair, fill_append first back frontSize, backFilled]

/-- The trivia before a pair are those before its first part, if that has tokens. -/
theorem setLeading_pair_of_ne_nil {first : α} (nonempty : tokens first ≠ []) (second : β)
    (trivia : Trivia) : setLeading (first, second) trivia = (setLeading first trivia, second) := by
  have changed : modifyFirst (·.withLeading trivia) (tokens first ++ tokens second) =
      modifyFirst (·.withLeading trivia) (tokens first) ++ tokens second := by
    cases tokens_eq : tokens first with
    | nil => exact absurd tokens_eq nonempty
    | cons token later => rfl
  show refill (first, second) (modifyFirst _ (tokens first ++ tokens second)) = _
  rw [changed, refill_pair (length_modifyFirst _ _) rfl, refill_tokens]
  rfl

/-- The trivia before a pair are those before its second part, if the first has no tokens. -/
theorem setLeading_pair_of_eq_nil {first : α} (empty : tokens first = []) (second : β)
    (trivia : Trivia) : setLeading (first, second) trivia = (first, setLeading second trivia) := by
  have changed : modifyFirst (·.withLeading trivia) (tokens first ++ tokens second) =
      tokens first ++ modifyFirst (·.withLeading trivia) (tokens second) := by
    rw [empty]
    rfl
  show refill (first, second) (modifyFirst _ (tokens first ++ tokens second)) = _
  rw [changed, refill_pair rfl (length_modifyFirst _ _), refill_tokens]
  rfl

variable {γ : Type} [Node γ] {make : α × β → γ} {first : α}

/-- The trivia before a node are those before its first part, if that has tokens. -/
theorem Assembles.setLeading_first (assembles : Assembles make) (nonempty : tokens first ≠ [])
    (rest : β) (trivia : Trivia) :
    Node.setLeading (make (first, rest)) trivia = make (Node.setLeading first trivia, rest) := by
  rw [assembles.setLeading, setLeading_pair_of_ne_nil nonempty]

end Refillable

end Node

end SuiteMigration
