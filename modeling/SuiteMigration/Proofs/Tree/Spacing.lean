import Mathlib.Tactic.Common
import SuiteMigration.Proofs.Tree.Outlines

/-!
# Outlines under other trivia

Trivia do not show in an outline: a node that is filled with the same words keeps its outline, if
the notes about lists of statements depend on the variables only that the statements declare.

## Main definitions

* `Statement.declaredNames` - the names that a statement declares as variables
* `Shallow`, `unnoted` - notes that depend on the declared names of a list only
* `Keeps` - what an action makes of a supply with the same words

## Main results

* `ClosureSignature.parameterNames_congr` - the names that a signature binds depend on its words
* `Expr.keeps`, `Statement.keeps` - filling with the same words keeps the outline
* `Keeps.setLeading`, `Keeps.setTrailing` - so do other trivia at the ends
-/

namespace SuiteMigration

variable {κ : Type}

/-! ### Bound names and trivia -/

/-- The token without its trivia. -/
def Token.bare (token : Token) : Token :=
  { kind := token.kind, text := token.text }

/-- Tokens with the same words are the same without their trivia. -/
theorem map_bare_congr {old new : List Token} (same : new.map Token.word = old.map Token.word) :
    new.map Token.bare = old.map Token.bare := by
  have ofWord := congrArg
    (List.map fun word : TokenKind × String => Token.mk word.1 word.2 "" "") same
  rw [List.map_map, List.map_map] at ofWord
  exact ofWord

/-- The names of a pattern do not depend on trivia. -/
theorem patternNamesAfter_bare (afterPeriod : Bool) (tokens : List Token) :
    patternNamesAfter afterPeriod (tokens.map Token.bare) =
      patternNamesAfter afterPeriod tokens := by
  induction tokens generalizing afterPeriod with
  | nil => rfl
  | cons token later ih =>
    simp only [List.map_cons, patternNamesAfter, ih]
    rfl

theorem afterClosing_bare (depth : Nat) (tokens : List Token) :
    afterClosing depth (tokens.map Token.bare) = (afterClosing depth tokens).map Token.bare := by
  induction tokens generalizing depth with
  | nil => rfl
  | cons token later ih =>
    simp only [List.map_cons, afterClosing, ih]
    simp only [apply_ite (List.map Token.bare)]
    rfl

/-- Trivia does not tell where a capture list ends. -/
theorem afterCaptures_bare (tokens : List Token) :
    afterCaptures (tokens.map Token.bare) = (afterCaptures tokens).map Token.bare := by
  cases tokens with
  | nil => rfl
  | cons token later =>
    simp only [List.map_cons, afterCaptures, afterClosing_bare]
    simp only [apply_ite (List.map Token.bare)]
    rfl

/-- The names of a parameter clause do not depend on trivia. -/
theorem clauseNames_bare (depth : Nat) (atStart : Bool) (tokens : List Token) :
    clauseNames depth atStart (tokens.map Token.bare) = clauseNames depth atStart tokens := by
  induction tokens generalizing depth atStart with
  | nil => rfl
  | cons token later ih =>
    simp only [List.map_cons, clauseNames, ih, List.head?_map]
    cases later.head? <;> rfl

theorem shorthandNames_bare (tokens : List Token) :
    shorthandNames (tokens.map Token.bare) = shorthandNames tokens := by
  induction tokens with
  | nil => rfl
  | cons token later ih =>
    simp only [List.map_cons, shorthandNames, ih]
    rfl

/-- Patterns with the same words bind the same names. -/
theorem patternNames_congr {old new : List Token} (same : new.map Token.word = old.map Token.word) :
    patternNames new = patternNames old := by
  rw [patternNames, patternNames, ← patternNamesAfter_bare, map_bare_congr same,
    patternNamesAfter_bare]

theorem ClosureSignature.parameterNames_bare (signature : ClosureSignature) :
    parameterNames { signature with tokens := signature.tokens.map Token.bare } =
      signature.parameterNames := by
  simp only [parameterNames, afterCaptures_bare]
  cases afterCaptures signature.tokens with
  | nil => rfl
  | cons first later =>
    rw [List.map_cons]
    simp only
    rw [← List.map_cons, clauseNames_bare, shorthandNames_bare]
    rfl

/-- Closures with the same words in their signatures bind the same names. -/
theorem ClosureSignature.parameterNames_congr {old new : ClosureSignature}
    (same : new.tokens.map Token.word = old.tokens.map Token.word) :
    new.parameterNames = old.parameterNames := by
  rw [← parameterNames_bare new, ← parameterNames_bare old, map_bare_congr same]
  rfl

/-! ### Notes about lists -/

/-- The names that a declaration declares as variables. -/
def Decl.declaredNames : Decl → List String
  | .variable _ bindings => bindingNames bindings
  | _ => []

/-- The names that an item declares as variables. -/
def Item.declaredNames : Item → List String
  | .decl declaration => declaration.declaredNames
  | _ => []

/-- The names that a statement declares as variables. -/
def Statement.declaredNames (statement : Statement) : List String :=
  statement.item.declaredNames

/-- The note about a list depends on the names only that its statements declare. -/
def Shallow (note : List Statement → κ) : Prop :=
  ∀ first second, first.map Statement.declaredNames = second.map Statement.declaredNames →
    note first = note second

/-- No list of statements is told from another one. -/
def unnoted (_ : List Statement) : Unit := ()

/-- A note that says nothing is a shallow one. -/
theorem shallow_unnoted : Shallow unnoted :=
  fun _ _ _ => rfl

/-! ### Filling with the same words -/

/-- Given a supply of the same words, the action takes as many of them as there are tokens, and its
result meets the condition. -/
def Keeps {α : Type} (action : Supply α) (old : List Token) (post : α → Prop) : Prop :=
  action.Fills old fun _ => post

namespace Keeps

variable {α β : Type} {action : Supply α} {next : α → Supply β} {old later : List Token}
  {post : α → Prop} {goal : β → Prop}

/-- A value that needs no token. -/
theorem pure {value : α} (holds : post value) : Keeps (Pure.pure value) [] post :=
  Supply.Fills.pure holds

/-- Two actions in a row take the tokens of both. -/
theorem bind (first : Keeps action old post)
    (second : ∀ value, post value → Keeps (next value) later goal) :
    Keeps (action >>= next) (old ++ later) goal :=
  Supply.Fills.bind first fun _ value _ _ holds => second value holds

/-- The last action is followed by putting the node together. -/
theorem bind_pure {make : α → β} (last : Keeps action old post)
    (made : ∀ value, post value → goal (make value)) :
    Keeps (action >>= fun value => Pure.pure (make value)) old goal :=
  Supply.Fills.bind_pure last fun _ value _ holds => made value holds

theorem map {make : α → β} (last : Keeps action old post)
    (made : ∀ value, post value → goal (make value)) : Keeps (make <$> action) old goal :=
  bind_pure last made

theorem cast (keeps : Keeps action old post) (same : later = old) : Keeps action later post :=
  same ▸ keeps

/-- A token is replaced by one with the same word. -/
theorem token {token : Token} : Keeps (Node.fill token) [token] fun new => new.word = token.word :=
  Supply.Fills.mono .single fun _ _ _ filled => filled.2

theorem bind_token {token : Token} {next : Token → Supply β}
    (second : ∀ new, new.word = token.word → Keeps (next new) later goal) :
    Keeps (Node.fill token >>= next) (token :: later) goal :=
  .bind .token second

theorem run {tokens : List Token} :
    Keeps (Node.fill tokens) tokens fun new => new.map Token.word = tokens.map Token.word :=
  Supply.Fills.mono .run fun _ _ edited new_eq => new_eq ▸ edited.words

/-- A part that holds tokens only keeps its words. -/
theorem part [Node α] [LawfulNode α] {node : α} :
    Keeps (Node.fill node) (Node.tokens node) fun new =>
      (Node.tokens new).map Token.word = (Node.tokens node).map Token.word :=
  Supply.Fills.mono (LawfulNode.fills node) fun _ _ edited new_eq => new_eq ▸ edited.words

/-- A pattern is refilled with the same words, so it binds the same names. -/
theorem pattern {pattern : Pattern} :
    Keeps (Node.fill pattern) (Node.tokens pattern) fun new =>
      (Node.tokens new).map Token.word = (Node.tokens pattern).map Token.word ∧
        new.names = pattern.names := by
  cases pattern with
  | identifier token =>
    refine .map .token fun new same => ⟨by simp [Node.tokens, same], ?_⟩
    have text_eq : new.text = token.text := congrArg Prod.snd same
    rw [Pattern.names, Pattern.names, text_eq]
  | raw tokens => exact .map .run fun new same => ⟨same, patternNames_congr same⟩

/-- A signature is refilled with the same words, so it binds the same names. -/
theorem signature {signature : ClosureSignature} :
    Keeps (Node.fill signature) (Node.tokens signature) fun new =>
      (Node.tokens new).map Token.word = (Node.tokens signature).map Token.word ∧
        new.parameterNames = signature.parameterNames := by
  refine .bind .run fun tokens same => .bind_pure .token fun keyword sameKeyword => ⟨?_, ?_⟩
  · simp [Node.tokens, same, sameKeyword]
  · exact ClosureSignature.parameterNames_congr same

theorem signature? {signature : Option ClosureSignature} :
    Keeps (Node.fill signature) (Node.tokens signature) fun new =>
      (Node.tokens new).map Token.word = (Node.tokens signature).map Token.word ∧
        new.map ClosureSignature.parameterNames =
          signature.map ClosureSignature.parameterNames := by
  cases signature with
  | none => exact .pure ⟨rfl, rfl⟩
  | some signature =>
    exact .map .signature fun _ kept => ⟨kept.1, congrArg some kept.2⟩

end Keeps

/-- With the same words a token that may be left out is there in both or in neither. -/
theorem isSome_eq_of_words {first second : Option Token}
    (same : (Node.tokens first).map Token.word = (Node.tokens second).map Token.word) :
    first.isSome = second.isSome := by
  cases first <;> cases second <;> simp_all [Node.tokens]

/-! ### The recursion -/

-- The induction follows the tokens of a node. Only at a list of statements is there more to show
-- than that the parts keep their outlines: the note about the list is kept with the declared names.
mutual

/-- Refilled with the same words an expression keeps its outline. -/
theorem Expr.keeps {note : List Statement → κ} (shallow : Shallow note) (expr : Expr) :
    Keeps expr.fill expr.tokens fun new => new.outline note = expr.outline note := by
  match expr with
  | .identifier token =>
    exact .map .token fun _ same => by simp only [Expr.outline, same]
  | .literal token =>
    exact .map .token fun _ same => by simp only [Expr.outline, plain, List.map_cons, same]
  | .raw tokens => exact .map .run fun _ same => by simp only [Expr.outline, plain, same]
  | .member base period name =>
    exact .bind (keepsExpr? shallow base) fun _ base => .bind_token fun _ period =>
      .bind_pure .token fun _ name => by
        simp only [Expr.outline, plain, List.map_cons, base, period, name]
  | .call callee arguments closure =>
    refine .cast (.bind (callee.keeps shallow) fun _ callee =>
      .bind (arguments.keeps shallow) fun _ arguments =>
      .bind_pure (keepsClosure? shallow closure) fun _ closure => ?_) (List.append_assoc ..)
    simp only [Expr.outline, callee, arguments, closure]
  | .index base arguments =>
    exact .bind (base.keeps shallow) fun _ base =>
      .bind_pure (arguments.keeps shallow) fun _ arguments => by
        simp only [Expr.outline, base, arguments]
  | .sequence operands operators =>
    exact .bind_pure (keepsOperands shallow operands operators) fun _ kept => kept.1
  | .prefixed operator operand =>
    exact .bind_token fun _ operator => .bind_pure (operand.keeps shallow) fun _ operand => by
      simp only [Expr.outline, plain, List.map_cons, operator, operand]
  | .suffixed operand operator =>
    exact .bind (operand.keeps shallow) fun _ operand => .bind_pure .token fun _ operator => by
      simp only [Expr.outline, plain, List.map_cons, operator, operand]
  | .trying keyword mark operand =>
    exact .bind_token fun _ keyword => .bind .part fun _ mark =>
      .bind_pure (operand.keeps shallow) fun _ operand => by
        simp only [Expr.outline, plain, List.map_cons, keyword, mark, operand]
  | .awaiting keyword operand =>
    exact .bind_token fun _ keyword => .bind_pure (operand.keeps shallow) fun _ operand => by
      simp only [Expr.outline, plain, List.map_cons, keyword, operand]
  | .tuple elements => exact .map (elements.keeps shallow) fun _ kept => kept
  | .collection left elements right =>
    exact .bind_token fun _ left => .bind (keepsElements shallow elements) fun _ elements =>
      .bind_pure .token fun _ right => by
        simp only [Expr.outline, plain, List.map_cons, left, elements, right]
  | .closure closure => exact .map (closure.keeps shallow) fun _ kept => kept
  | .specialized base arguments =>
    exact .bind (base.keeps shallow) fun _ base => .bind_pure .run fun _ arguments => by
      simp only [Expr.outline, plain, base, arguments]

theorem keepsExpr? {note : List Statement → κ} (shallow : Shallow note) (expr : Option Expr) :
    Keeps (fillExpr? expr) (tokensOfExpr? expr) fun new =>
      outlineOfExpr? note new = outlineOfExpr? note expr := by
  match expr with
  | none => exact .pure rfl
  | some expr => exact .map (expr.keeps shallow) fun _ kept => kept

theorem ArgumentList.keeps {note : List Statement → κ} (shallow : Shallow note)
    (list : ArgumentList) :
    Keeps list.fill list.tokens fun new => new.outline note = list.outline note := by
  match list with
  | ⟨opener, arguments, closer⟩ =>
    exact .bind_token fun _ opener => .bind (keepsArguments shallow arguments) fun _ arguments =>
      .bind_pure .token fun _ closer => by
        simp only [ArgumentList.outline, plain, List.map_cons, opener, arguments, closer]

theorem CallArguments.keeps {note : List Statement → κ} (shallow : Shallow note)
    (list : CallArguments) :
    Keeps list.fill list.tokens fun new => new.outline note = list.outline note := by
  match list with
  | ⟨left, arguments, right⟩ =>
    refine .cast (.bind .part fun _ left => .bind (keepsArguments shallow arguments) fun _ arguments =>
      .bind_pure .part fun _ right => ?_) (List.append_assoc ..)
    simp only [CallArguments.outline, plain, left, arguments, right]

theorem keepsArguments {note : List Statement → κ} (shallow : Shallow note)
    (arguments : List Argument) :
    Keeps (fillArguments arguments) (tokensOfArguments arguments) fun new =>
      outlineOfArguments note new = outlineOfArguments note arguments := by
  match arguments with
  | [] => exact .pure rfl
  | ⟨label, value, comma⟩ :: later =>
    simp only [fillArguments, Argument.fill, bind_assoc, pure_bind]
    refine .cast (.bind .part fun _ label => .bind (value.keeps shallow) fun _ value =>
      .bind .part fun _ comma => .bind_pure (keepsArguments shallow later) fun _ later => ?_)
      (by simp [tokensOfArguments, Argument.tokens])
    simp only [outlineOfArguments, plain, label, value, comma, later]

theorem keepsOperands {note : List Statement → κ} (shallow : Shallow note)
    (operands : List Expr) (operators : List Token) :
    Keeps (fillOperands operands operators) (tokensOfOperands operands operators) fun new =>
      outlineOfOperands note new.1 new.2 = outlineOfOperands note operands operators ∧
        new.2.length = operators.length := by
  match operands with
  | [] => exact .pure ⟨rfl, rfl⟩
  | operand :: later =>
    refine .cast (.bind (operand.keeps shallow) fun _ operand => .bind .part fun operator same =>
      .bind_pure (keepsOperands shallow later operators.tail) fun _ kept => ?_)
      (List.append_assoc ..)
    have present : operator.isSome = operators.head?.isSome := isSome_eq_of_words same
    refine ⟨?_, length_toList_append present kept.2⟩
    rw [outlineOfOperands_toList_append note present kept.2, outlineOfOperands, kept.1, operand,
      plain, plain, same]

theorem keepsElements {note : List Statement → κ} (shallow : Shallow note)
    (elements : List CollectionElement) :
    Keeps (fillElements elements) (tokensOfElements elements) fun new =>
      outlineOfElements note new = outlineOfElements note elements := by
  match elements with
  | [] => exact .pure rfl
  | .value value comma :: later =>
    simp only [fillElements, CollectionElement.fill, bind_assoc, pure_bind]
    refine .cast (.bind (value.keeps shallow) fun _ value => .bind .part fun _ comma =>
      .bind_pure (keepsElements shallow later) fun _ later => ?_)
      (by simp [tokensOfElements, CollectionElement.tokens])
    simp only [outlineOfElements, plain, value, comma, later]
  | .entry key colon value comma :: later =>
    simp only [fillElements, CollectionElement.fill, bind_assoc, pure_bind]
    refine .cast (.bind (key.keeps shallow) fun _ key => .bind_token fun _ colon =>
      .bind (value.keeps shallow) fun _ value => .bind .part fun _ comma =>
      .bind_pure (keepsElements shallow later) fun _ later => ?_)
      (by simp [tokensOfElements, CollectionElement.tokens])
    simp only [outlineOfElements, plain, List.map_cons, key, colon, value, comma, later]

theorem Closure.keeps {note : List Statement → κ} (shallow : Shallow note) (closure : Closure) :
    Keeps closure.fill closure.tokens fun new => new.outline note = closure.outline note := by
  match closure with
  | ⟨left, signature, statements, right⟩ =>
    -- The names that the signature binds are kept with its words.
    refine .cast (.bind_token fun _ left => .bind .signature? fun _ signature =>
      .bind (keepsStatements shallow statements) fun _ statements =>
      .bind_pure .token fun _ right => ?_) (by simp [Closure.tokens])
    simp only [Closure.outline, plain, List.map_cons, left, signature.1, signature.2,
      statements.1, shallow _ _ statements.2, right]

theorem keepsClosure? {note : List Statement → κ} (shallow : Shallow note)
    (closure : Option Closure) :
    Keeps (fillClosure? closure) (tokensOfClosure? closure) fun new =>
      outlineOfClosure? note new = outlineOfClosure? note closure := by
  match closure with
  | none => exact .pure rfl
  | some closure => exact .map (closure.keeps shallow) fun _ kept => kept

theorem Statement.keeps {note : List Statement → κ} (shallow : Shallow note)
    (statement : Statement) :
    Keeps statement.fill statement.tokens fun new =>
      new.outline note = statement.outline note ∧
        new.declaredNames = statement.declaredNames := by
  match statement with
  | ⟨item, semicolon⟩ =>
    refine .bind (item.keeps shallow) fun _ item => .bind_pure .part fun _ semicolon =>
      ⟨?_, item.2⟩
    simp only [Statement.outline, plain, item.1, semicolon]

/-- So do some statements, with the names they declare. -/
theorem keepsStatements {note : List Statement → κ} (shallow : Shallow note)
    (statements : List Statement) :
    Keeps (fillStatements statements) (tokensOfStatements statements) fun new =>
      outlineOfStatements note new = outlineOfStatements note statements ∧
        new.map Statement.declaredNames = statements.map Statement.declaredNames := by
  match statements with
  | [] => exact .pure ⟨rfl, rfl⟩
  | statement :: later =>
    refine .bind (statement.keeps shallow) fun _ statement =>
      .bind_pure (keepsStatements shallow later) fun _ later => ⟨?_, ?_⟩
    · simp only [outlineOfStatements, statement.1, later.1]
    · simp only [List.map_cons, statement.2, later.2]

theorem Item.keeps {note : List Statement → κ} (shallow : Shallow note) (item : Item) :
    Keeps item.fill item.tokens fun new =>
      new.outline note = item.outline note ∧ new.declaredNames = item.declaredNames := by
  -- Nodes are read in the order of their tokens. Trivia are the only thing that may differ, and the
  -- outline does not see them.
  match item with
  | .expr expr => exact .map (expr.keeps shallow) fun _ kept => ⟨kept, rfl⟩
  | .decl decl => exact .map (decl.keeps shallow) fun _ kept => kept
  | .returning keyword value =>
    refine .bind_token fun _ keyword => .bind_pure (keepsExpr? shallow value) fun _ value =>
      ⟨?_, rfl⟩
    simp only [Item.outline, plain, List.map_cons, keyword, value]
  | .throwing keyword value =>
    refine .bind_token fun _ keyword => .bind_pure (value.keeps shallow) fun _ value => ⟨?_, rfl⟩
    simp only [Item.outline, plain, List.map_cons, keyword, value]
  | .conditional statement => exact .map (statement.keeps shallow) fun _ kept => ⟨kept, rfl⟩
  | .guarding keyword conditions elseKeyword body =>
    refine .cast (.bind_token fun _ keyword =>
      .bind (keepsConditions shallow conditions) fun _ conditions =>
      .bind_token fun _ elseKeyword => .bind_pure (body.keeps shallow) fun _ body => ⟨?_, rfl⟩)
      (by simp [Item.tokens])
    simp only [Item.outline, plain, List.map_cons, keyword, conditions, elseKeyword, body]
  | .forIn keyword modifiers pattern type inKeyword sequence filter body =>
    refine .cast (.bind_token fun _ keyword => .bind .run fun _ modifiers =>
      .bind .part fun _ pattern => .bind .part fun _ type => .bind_token fun _ inKeyword =>
      .bind (sequence.keeps shallow) fun _ sequence =>
      .bind (keepsClause? shallow filter) fun _ filter =>
      .bind_pure (body.keeps shallow) fun _ body => ⟨?_, rfl⟩) (by simp [Item.tokens])
    simp only [Item.outline, plain, List.map_cons, List.map_append, keyword, modifiers, pattern,
      type, inKeyword, sequence, filter, body]
  | .whileLoop keyword conditions body =>
    refine .bind_token fun _ keyword =>
      .bind (keepsConditions shallow conditions) fun _ conditions =>
      .bind_pure (body.keeps shallow) fun _ body => ⟨?_, rfl⟩
    simp only [Item.outline, plain, List.map_cons, keyword, conditions, body]
  | .repeatLoop keyword body whileKeyword condition =>
    refine .cast (.bind_token fun _ keyword => .bind (body.keeps shallow) fun _ body =>
      .bind_token fun _ whileKeyword => .bind_pure (condition.keeps shallow) fun _ condition =>
      ⟨?_, rfl⟩) (by simp [Item.tokens])
    simp only [Item.outline, plain, List.map_cons, keyword, body, whileKeyword, condition]
  | .doCatch keyword throwsClause body catches =>
    refine .cast (.bind_token fun _ keyword => .bind .run fun _ throwsClause =>
      .bind (body.keeps shallow) fun _ body =>
      .bind_pure (keepsCatches shallow catches) fun _ catches => ⟨?_, rfl⟩) (by simp [Item.tokens])
    simp only [Item.outline, plain, List.map_cons, keyword, throwsClause, body, catches]
  | .switching keyword subject left cases right =>
    refine .cast (.bind_token fun _ keyword => .bind (subject.keeps shallow) fun _ subject =>
      .bind_token fun _ left => .bind (keepsCases shallow cases) fun _ cases =>
      .bind_pure .token fun _ right => ⟨?_, rfl⟩) (by simp [Item.tokens])
    simp only [Item.outline, plain, List.map_cons, keyword, subject, left, cases, right]
  | .deferring keyword body =>
    refine .bind_token fun _ keyword => .bind_pure (body.keeps shallow) fun _ body => ⟨?_, rfl⟩
    simp only [Item.outline, plain, List.map_cons, keyword, body]
  | .raw tokens =>
    exact .map .run fun _ same => ⟨by simp only [Item.outline, plain, same], rfl⟩

theorem CodeBlock.keeps {note : List Statement → κ} (shallow : Shallow note) (block : CodeBlock) :
    Keeps block.fill block.tokens fun new => new.outline note = block.outline note := by
  match block with
  | ⟨left, statements, right⟩ =>
    refine .bind_token fun _ left => .bind (keepsStatements shallow statements) fun _ statements =>
      .bind_pure .token fun _ right => ?_
    simp only [CodeBlock.outline, plain, List.map_cons, left, statements.1,
      shallow _ _ statements.2, right]

theorem keepsBlock? {note : List Statement → κ} (shallow : Shallow note)
    (block : Option CodeBlock) :
    Keeps (fillBlock? block) (tokensOfBlock? block) fun new =>
      outlineOfBlock? note new = outlineOfBlock? note block := by
  match block with
  | none => exact .pure rfl
  | some block => exact .map (block.keeps shallow) fun _ kept => kept

theorem IfStatement.keeps {note : List Statement → κ} (shallow : Shallow note)
    (statement : IfStatement) :
    Keeps statement.fill statement.tokens fun new =>
      new.outline note = statement.outline note := by
  match statement with
  | ⟨keyword, conditions, body, alternative⟩ =>
    refine .cast (.bind_token fun _ keyword =>
      .bind (keepsConditions shallow conditions) fun _ conditions =>
      .bind (body.keeps shallow) fun _ body =>
      .bind_pure (alternative.keeps shallow) fun _ alternative => ?_)
      (by simp [IfStatement.tokens])
    simp only [IfStatement.outline, plain, List.map_cons, keyword, conditions, body, alternative]

theorem ElseClause.keeps {note : List Statement → κ} (shallow : Shallow note)
    (alternative : ElseClause) :
    Keeps alternative.fill alternative.tokens fun new =>
      new.outline note = alternative.outline note := by
  match alternative with
  | .absent => exact .pure rfl
  | .block keyword body =>
    exact .bind_token fun _ keyword => .bind_pure (body.keeps shallow) fun _ body => by
      simp only [ElseClause.outline, plain, List.map_cons, keyword, body]
  | .chained keyword next =>
    exact .bind_token fun _ keyword => .bind_pure (next.keeps shallow) fun _ next => by
      simp only [ElseClause.outline, plain, List.map_cons, keyword, next]

theorem keepsConditions {note : List Statement → κ} (shallow : Shallow note)
    (conditions : List Condition) :
    Keeps (fillConditions conditions) (tokensOfConditions conditions) fun new =>
      outlineOfConditions note new = outlineOfConditions note conditions := by
  match conditions with
  | [] => exact .pure rfl
  | .expr expr comma :: later =>
    simp only [fillConditions, Condition.fill, bind_assoc, pure_bind]
    refine .cast (.bind (expr.keeps shallow) fun _ expr => .bind .part fun _ comma =>
      .bind_pure (keepsConditions shallow later) fun _ later => ?_)
      (by simp [tokensOfConditions, Condition.tokens])
    simp only [outlineOfConditions, plain, expr, comma, later]
  | .binding specifier pattern type initializer comma :: later =>
    simp only [fillConditions, Condition.fill, bind_assoc, pure_bind]
    refine .cast (.bind_token fun _ specifier => .bind .part fun _ pattern =>
      .bind .part fun _ type => .bind (keepsClause? shallow initializer) fun _ initializer =>
      .bind .part fun _ comma => .bind_pure (keepsConditions shallow later) fun _ later => ?_)
      (by simp [tokensOfConditions, Condition.tokens])
    simp only [outlineOfConditions, plain, List.map_cons, List.map_append, specifier, pattern,
      type, initializer, comma, later]

theorem Clause.keeps {note : List Statement → κ} (shallow : Shallow note) (clause : Clause) :
    Keeps clause.fill clause.tokens fun new => new.outline note = clause.outline note := by
  match clause with
  | ⟨mark, value⟩ =>
    exact .bind_token fun _ mark => .bind_pure (value.keeps shallow) fun _ value => by
      simp only [Clause.outline, plain, List.map_cons, mark, value]

theorem keepsClause? {note : List Statement → κ} (shallow : Shallow note)
    (clause : Option Clause) :
    Keeps (fillClause? clause) (tokensOfClause? clause) fun new =>
      outlineOfClause? note new = outlineOfClause? note clause := by
  match clause with
  | none => exact .pure rfl
  | some clause => exact .map (clause.keeps shallow) fun _ kept => kept

theorem keepsCatches {note : List Statement → κ} (shallow : Shallow note)
    (catches : List CatchClause) :
    Keeps (fillCatches catches) (tokensOfCatches catches) fun new =>
      outlineOfCatches note new = outlineOfCatches note catches := by
  match catches with
  | [] => exact .pure rfl
  | ⟨keyword, pattern, body⟩ :: later =>
    simp only [fillCatches, CatchClause.fill, bind_assoc, pure_bind]
    refine .cast (.bind_token fun _ keyword => .bind .run fun _ pattern =>
      .bind (body.keeps shallow) fun _ body =>
      .bind_pure (keepsCatches shallow later) fun _ later => ?_)
      (by simp [tokensOfCatches, CatchClause.tokens])
    simp only [outlineOfCatches, plain, List.map_cons, keyword, pattern, body, later]

theorem keepsCases {note : List Statement → κ} (shallow : Shallow note)
    (cases : List SwitchCase) :
    Keeps (fillCases cases) (tokensOfCases cases) fun new =>
      outlineOfCases note new = outlineOfCases note cases := by
  match cases with
  | [] => exact .pure rfl
  | ⟨label, statements⟩ :: later =>
    simp only [fillCases, SwitchCase.fill, bind_assoc, pure_bind]
    refine .cast (.bind .run fun _ label =>
      .bind (keepsStatements shallow statements) fun _ statements =>
      .bind_pure (keepsCases shallow later) fun _ later => ?_)
      (by simp [tokensOfCases, SwitchCase.tokens])
    simp only [outlineOfCases, plain, label, statements.1, shallow _ _ statements.2, later]

theorem Decl.keeps {note : List Statement → κ} (shallow : Shallow note) (decl : Decl) :
    Keeps decl.fill decl.tokens fun new =>
      new.outline note = decl.outline note ∧ new.declaredNames = decl.declaredNames := by
  match decl with
  | .importing decl =>
    exact .map .part fun _ same => ⟨by simp only [Decl.outline, plain, same], rfl⟩
  | .raw decl =>
    exact .map .part fun _ same => ⟨by simp only [Decl.outline, plain, same], rfl⟩
  | .type header members =>
    refine .bind .part fun _ header => .bind_pure (members.keeps shallow) fun _ members => ⟨?_, rfl⟩
    simp only [Decl.outline, plain, header, members]
  | .function header body =>
    refine .bind .part fun _ header => .bind_pure (keepsBlock? shallow body) fun _ body => ⟨?_, rfl⟩
    simp only [Decl.outline, plain, header, body]
  | .initializer header body =>
    refine .bind .part fun _ header => .bind_pure (keepsBlock? shallow body) fun _ body => ⟨?_, rfl⟩
    simp only [Decl.outline, plain, header, body]
  | .finalizer header body =>
    refine .bind .part fun _ header => .bind_pure (keepsBlock? shallow body) fun _ body => ⟨?_, rfl⟩
    simp only [Decl.outline, plain, header, body]
  | .variable header bindings =>
    refine .bind .part fun _ header => .bind_pure (keepsBindings shallow bindings) fun _ bindings =>
      ⟨?_, bindings.2⟩
    simp only [Decl.outline, plain, header, bindings.1]

theorem keepsBindings {note : List Statement → κ} (shallow : Shallow note)
    (bindings : List PatternBinding) :
    Keeps (fillBindings bindings) (tokensOfBindings bindings) fun new =>
      outlineOfBindings note new = outlineOfBindings note bindings ∧
        bindingNames new = bindingNames bindings := by
  match bindings with
  | [] => exact .pure ⟨rfl, rfl⟩
  | ⟨pattern, type, initializer, accessor, comma⟩ :: later =>
    simp only [fillBindings, PatternBinding.fill, bind_assoc, pure_bind]
    refine .cast (.bind .pattern fun _ pattern => .bind .part fun _ type =>
      .bind (keepsClause? shallow initializer) fun _ initializer =>
      .bind (keepsBlock? shallow accessor) fun _ accessor => .bind .part fun _ comma =>
      .bind_pure (keepsBindings shallow later) fun _ later => ⟨?_, ?_⟩)
      (by simp [tokensOfBindings, PatternBinding.tokens])
    · simp only [outlineOfBindings, plain, List.map_append, pattern.1, type, initializer, accessor,
        comma, later.1]
    · have later_eq := later.2
      simp only [bindingNames, List.flatMap_cons, pattern.2] at later_eq ⊢
      rw [later_eq]

end

/-! ### Other trivia at the ends -/

/-- Other trivia before a node or after it are other trivia of the same words. -/
theorem Keeps.setLeading {α : Type} [Node α] {node : α} {post : α → Prop}
    (keeps : Keeps (Node.fill node) (Node.tokens node) post) (trivia : Trivia) :
    post (Node.setLeading node trivia) :=
  Supply.Fills.refill keeps (edited_leading trivia _)

/-- Exchanging the trivia at the end of a node is refilling it with the same words. -/
theorem Keeps.setTrailing {α : Type} [Node α] {node : α} {post : α → Prop}
    (keeps : Keeps (Node.fill node) (Node.tokens node) post) (trivia : Trivia) :
    post (Node.setTrailing node trivia) :=
  Supply.Fills.refill keeps (edited_trailing trivia _)

end SuiteMigration
