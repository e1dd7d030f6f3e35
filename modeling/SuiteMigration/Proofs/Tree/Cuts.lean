import Mathlib.Tactic.Common
import SuiteMigration.Tree.Tokens
import SuiteMigration.Tree.Walk

/-!
# Cutting a tree

A tree is cut at some of its expressions and closures: what is left of it is a row of parts, which
are single tokens and the expressions and closures at which it was cut, in the order of the source.
The cut does not go into such an expression or closure, so only the outermost ones are parts.

Nothing is lost by a cut. The tokens of the parts are the tokens of the tree, and what a walk looks
for is met in the parts, if the cut stops wherever the walk finds it.

## Main definitions

* `Stops` - the expressions and closures at which a tree is cut
* `Part` - a part of a tree that was cut
* `Expr.cut`, `Statement.cut`, `SourceFile.cut` - the parts of a tree

## Main results

* `Stops.Finds.statement_covers` - the tokens of the parts of a statement, and what a walk meets in
  them
* `Expr.tokens_cut`, `Statement.tokens_cut`, `SourceFile.tokens_cut` - the tokens of the parts
-/

namespace SuiteMigration

/-- The expressions and closures at which a tree is cut. -/
structure Stops where
  expr : Expr → Bool := fun _ => false
  closure : Closure → Bool := fun _ => false

/-- A part of a tree that was cut. -/
inductive Part
  | token (token : Token)
  | expr (expr : Expr)
  | closure (closure : Closure)

/-- The tokens of a part. -/
def Part.tokens : Part → List Token
  | .token only => [only]
  | .expr inner => inner.tokens
  | .closure inner => inner.tokens

/-- What a walk meets in a part. -/
def Part.walk (extent : Extent) : Part → List Visit
  | .token _ => []
  | .expr inner => inner.walk extent
  | .closure inner => inner.walk extent

/-- The part is a token, or the tree was cut at it. -/
def Part.IsStop (stops : Stops) : Part → Prop
  | .token _ => True
  | .expr inner => stops.expr inner = true
  | .closure inner => stops.closure inner = true

/-- The parts of a run of tokens. -/
def loose (tokens : List Token) : List Part :=
  tokens.map .token

namespace Stops

/-- The parts of an expression, given those of what is in it. -/
def atExpr (stops : Stops) (expr : Expr) (inner : List Part) : List Part :=
  if stops.expr expr then [.expr expr] else inner

/-- The parts of a closure, given those of what is in it. -/
def atClosure (stops : Stops) (closure : Closure) (inner : List Part) : List Part :=
  if stops.closure closure then [.closure closure] else inner

end Stops

/-! ### The parts of a tree -/

mutual

def Expr.cut (stops : Stops) (expr : Expr) : List Part :=
  stops.atExpr expr <| match expr with
    | .identifier token => loose [token]
    | .literal token => loose [token]
    | .member base period name => cutExpr? stops base ++ loose [period, name]
    | .call callee arguments closure =>
      callee.cut stops ++ arguments.cut stops ++ cutClosure? stops closure
    | .index base arguments => base.cut stops ++ arguments.cut stops
    | .sequence operands operators => cutOperands stops operands operators
    | .prefixed operator operand => loose [operator] ++ operand.cut stops
    | .suffixed operand operator => operand.cut stops ++ loose [operator]
    | .trying keyword mark operand => loose (keyword :: Node.tokens mark) ++ operand.cut stops
    | .awaiting keyword operand => loose [keyword] ++ operand.cut stops
    | .tuple elements => elements.cut stops
    | .collection left elements right =>
      loose [left] ++ cutElements stops elements ++ loose [right]
    | .closure closure => closure.cut stops
    | .specialized base arguments => base.cut stops ++ loose arguments
    | .raw tokens => loose tokens

def cutExpr? (stops : Stops) : Option Expr → List Part
  | none => []
  | some expr => expr.cut stops

def ArgumentList.cut (stops : Stops) : ArgumentList → List Part
  | ⟨opener, arguments, closer⟩ =>
    loose [opener] ++ cutArguments stops arguments ++ loose [closer]

def CallArguments.cut (stops : Stops) : CallArguments → List Part
  | ⟨left, arguments, right⟩ =>
    loose (Node.tokens left) ++ cutArguments stops arguments ++ loose (Node.tokens right)

def cutArguments (stops : Stops) : List Argument → List Part
  | [] => []
  | ⟨label, value, comma⟩ :: later =>
    loose (Node.tokens label) ++ value.cut stops ++ loose (Node.tokens comma) ++
      cutArguments stops later

def cutOperands (stops : Stops) : List Expr → List Token → List Part
  | [], _ => []
  | operand :: later, operators =>
    operand.cut stops ++ loose (Node.tokens operators.head?) ++
      cutOperands stops later operators.tail

def cutElements (stops : Stops) : List CollectionElement → List Part
  | [] => []
  | .value value comma :: later =>
    value.cut stops ++ loose (Node.tokens comma) ++ cutElements stops later
  | .entry key colon value comma :: later =>
    key.cut stops ++ (loose [colon] ++ value.cut stops) ++ loose (Node.tokens comma) ++
      cutElements stops later

def Closure.cut (stops : Stops) : Closure → List Part
  | ⟨left, signature, statements, right⟩ =>
    stops.atClosure ⟨left, signature, statements, right⟩ <|
      loose (left :: Node.tokens signature) ++ cutStatements stops statements ++ loose [right]

def cutClosure? (stops : Stops) : Option Closure → List Part
  | none => []
  | some closure => closure.cut stops

def Statement.cut (stops : Stops) : Statement → List Part
  | ⟨item, semicolon⟩ => item.cut stops ++ loose (Node.tokens semicolon)

def cutStatements (stops : Stops) : List Statement → List Part
  | [] => []
  | statement :: later => statement.cut stops ++ cutStatements stops later

def Item.cut (stops : Stops) : Item → List Part
  | .expr expr => expr.cut stops
  | .decl decl => decl.cut stops
  | .returning keyword value => loose [keyword] ++ cutExpr? stops value
  | .throwing keyword value => loose [keyword] ++ value.cut stops
  | .conditional statement => statement.cut stops
  | .guarding keyword conditions elseKeyword body =>
    loose [keyword] ++ cutConditions stops conditions ++ (loose [elseKeyword] ++ body.cut stops)
  | .forIn keyword modifiers pattern type inKeyword sequence filter body =>
    loose (keyword :: modifiers ++ Node.tokens pattern ++ Node.tokens type) ++
      (loose [inKeyword] ++ sequence.cut stops) ++ cutClause? stops filter ++ body.cut stops
  | .whileLoop keyword conditions body =>
    loose [keyword] ++ cutConditions stops conditions ++ body.cut stops
  | .repeatLoop keyword body whileKeyword condition =>
    loose [keyword] ++ body.cut stops ++ (loose [whileKeyword] ++ condition.cut stops)
  | .doCatch keyword throwsClause body catches =>
    loose (keyword :: throwsClause) ++ body.cut stops ++ cutCatches stops catches
  | .switching keyword subject left cases right =>
    loose [keyword] ++ subject.cut stops ++ (loose [left] ++ cutCases stops cases) ++ loose [right]
  | .deferring keyword body => loose [keyword] ++ body.cut stops
  | .raw tokens => loose tokens

def CodeBlock.cut (stops : Stops) : CodeBlock → List Part
  | ⟨left, statements, right⟩ =>
    loose [left] ++ cutStatements stops statements ++ loose [right]

def cutBlock? (stops : Stops) : Option CodeBlock → List Part
  | none => []
  | some block => block.cut stops

def IfStatement.cut (stops : Stops) : IfStatement → List Part
  | ⟨keyword, conditions, body, alternative⟩ =>
    loose [keyword] ++ cutConditions stops conditions ++ body.cut stops ++
      alternative.cut stops

def ElseClause.cut (stops : Stops) : ElseClause → List Part
  | .absent => []
  | .block keyword body => loose [keyword] ++ body.cut stops
  | .chained keyword next => loose [keyword] ++ next.cut stops

def cutConditions (stops : Stops) : List Condition → List Part
  | [] => []
  | .expr expr comma :: later =>
    expr.cut stops ++ loose (Node.tokens comma) ++ cutConditions stops later
  | .binding specifier pattern type initializer comma :: later =>
    loose (specifier :: Node.tokens pattern ++ Node.tokens type) ++
      cutClause? stops initializer ++ loose (Node.tokens comma) ++ cutConditions stops later

def Clause.cut (stops : Stops) : Clause → List Part
  | ⟨mark, value⟩ => loose [mark] ++ value.cut stops

def cutClause? (stops : Stops) : Option Clause → List Part
  | none => []
  | some clause => clause.cut stops

def cutCatches (stops : Stops) : List CatchClause → List Part
  | [] => []
  | ⟨keyword, pattern, body⟩ :: later =>
    loose (keyword :: pattern) ++ body.cut stops ++ cutCatches stops later

def cutCases (stops : Stops) : List SwitchCase → List Part
  | [] => []
  | ⟨label, statements⟩ :: later =>
    loose label ++ cutStatements stops statements ++ cutCases stops later

def Decl.cut (stops : Stops) : Decl → List Part
  | .importing decl => loose (Node.tokens decl)
  | .type header members => loose (Node.tokens header) ++ members.cut stops
  | .function header body => loose (Node.tokens header) ++ cutBlock? stops body
  | .variable header bindings => loose (Node.tokens header) ++ cutBindings stops bindings
  | .initializer header body => loose (Node.tokens header) ++ cutBlock? stops body
  | .finalizer header body => loose (Node.tokens header) ++ cutBlock? stops body
  | .raw decl => loose (Node.tokens decl)

def cutBindings (stops : Stops) : List PatternBinding → List Part
  | [] => []
  | ⟨pattern, type, initializer, accessor, comma⟩ :: later =>
    loose (Node.tokens pattern ++ Node.tokens type) ++ cutClause? stops initializer ++
      cutBlock? stops accessor ++ loose (Node.tokens comma) ++ cutBindings stops later

end

/-- The parts of a file. -/
def SourceFile.cut (stops : Stops) (file : SourceFile) : List Part :=
  cutStatements stops file.statements ++ loose [file.endOfFile]

/-! ### What the parts cover -/

/-- The parts were cut at the stops and hold the given tokens, and those of the given visits that
are looked for are met in the parts. -/
structure Covers (stops : Stops) (sought : Visit → Bool) (parts : List Part) (tokens : List Token)
    (visits : List Visit) : Prop where
  isStop : ∀ part ∈ parts, part.IsStop stops
  tokens_eq : parts.flatMap Part.tokens = tokens
  visits_eq : visits.filter sought =
    parts.flatMap fun part => (part.walk .everywhere).filter sought

namespace Covers

variable {stops : Stops} {sought : Visit → Bool} {parts later : List Part}
  {tokens laterTokens : List Token} {visits laterVisits : List Visit}

theorem nil : Covers stops sought [] [] [] :=
  ⟨List.forall_mem_nil _, rfl, rfl⟩

/-- Parts in a row cover the tokens in a row. -/
theorem append (covers : Covers stops sought parts tokens visits)
    (laterCovers : Covers stops sought later laterTokens laterVisits) :
    Covers stops sought (parts ++ later) (tokens ++ laterTokens) (visits ++ laterVisits) := by
  constructor
  · exact List.forall_mem_append.2 ⟨covers.isStop, laterCovers.isStop⟩
  · rw [List.flatMap_append, covers.tokens_eq, laterCovers.tokens_eq]
  · rw [List.filter_append, List.flatMap_append, covers.visits_eq, laterCovers.visits_eq]

/-- Loose tokens have no visit. -/
theorem loose (run : List Token) : Covers stops sought (loose run) run [] := by
  constructor
  · exact List.forall_mem_map.2 fun _ _ => trivial
  · simp [SuiteMigration.loose, List.flatMap_map, Part.tokens]
  · simp [SuiteMigration.loose, List.flatMap_map, Part.walk]

/-- Loose tokens stand before other parts. -/
theorem before (run : List Token) (covers : Covers stops sought parts tokens visits) :
    Covers stops sought (SuiteMigration.loose run ++ parts) (run ++ tokens) visits :=
  (Covers.loose run).append covers

/-- Loose tokens stand behind other parts. -/
theorem behind (run : List Token) (covers : Covers stops sought parts tokens visits) :
    Covers stops sought (parts ++ SuiteMigration.loose run) (tokens ++ run) visits := by
  rw [← List.append_nil visits]
  exact covers.append (.loose run)

/-- What is not looked for is skipped. -/
theorem skip {visit : Visit} (other : sought visit = false)
    (covers : Covers stops sought parts tokens visits) :
    Covers stops sought parts tokens (visit :: visits) :=
  ⟨covers.isStop, covers.tokens_eq, by
    rw [List.filter_cons_of_neg (by simp [other]), covers.visits_eq]⟩

/-- A visit that is not sought needs no part. -/
theorem skipLast {visit : Visit} (other : sought visit = false)
    (covers : Covers stops sought parts tokens visits) :
    Covers stops sought parts tokens (visits ++ [visit]) :=
  ⟨covers.isStop, covers.tokens_eq, by
    rw [List.filter_append, List.filter_cons_of_neg (by simp [other]), List.filter_nil,
      List.append_nil, covers.visits_eq]⟩

end Covers

/-- Whatever is looked for is an expression at which the tree is cut. -/
structure Stops.Finds (stops : Stops) (sought : Visit → Bool) : Prop where
  expr : ∀ expr, stops.expr expr = false → sought (.expr expr) = false
  closure : ∀ closure, sought (.closure closure) = false
  decl : ∀ decl, sought (.decl decl) = false
  binds : ∀ names, sought (.binds names) = false

namespace Stops.Finds

variable {stops : Stops} {sought : Visit → Bool}

/-- An expression is one part, if it is sought or its inside is not looked at, or else the parts of
its inside. -/
theorem atExpr (finds : stops.Finds sought) {expr : Expr} {inner : List Part}
    {visits : List Visit} (walk_eq : expr.walk .everywhere = .expr expr :: visits)
    (covers : Covers stops sought inner expr.tokens visits) :
    Covers stops sought (stops.atExpr expr inner) expr.tokens (expr.walk .everywhere) := by
  unfold Stops.atExpr
  by_cases stop : stops.expr expr = true
  · rw [if_pos stop]
    exact ⟨List.forall_mem_singleton.2 stop, List.flatMap_singleton ..,
      (List.flatMap_singleton ..).symm⟩
  · rw [if_neg stop, walk_eq]
    exact covers.skip (finds.expr expr (eq_false_of_ne_true stop))

/-- A closure is one part, if it is sought, or else the parts of its inside. -/
theorem atClosure (finds : stops.Finds sought) {closure : Closure} {inner : List Part}
    (covers : Covers stops sought inner closure.tokens
      (walkStatements .everywhere closure.statements)) :
    Covers stops sought (stops.atClosure closure inner) closure.tokens
      (closure.walk .everywhere) := by
  unfold Stops.atClosure
  by_cases stop : stops.closure closure = true
  · rw [if_pos stop]
    exact ⟨List.forall_mem_singleton.2 stop, List.flatMap_singleton ..,
      (List.flatMap_singleton ..).symm⟩
  · rw [if_neg stop]
    obtain ⟨left, signature, statements, right⟩ := closure
    exact (covers.skip (finds.binds _)).skip (finds.closure _)

-- The induction follows the cut. Tokens, visits and parts of a node are put together in the same
-- order from those of its parts.
mutual

/-- The parts of an expression cover its tokens, and each visit that is sought has its part. -/
theorem expr_covers (finds : stops.Finds sought) (expr : Expr) :
    Covers stops sought (expr.cut stops) expr.tokens (expr.walk .everywhere) := by
  rw [Expr.cut.eq_def]
  match expr with
  | .identifier token => exact finds.atExpr rfl (.loose [token])
  | .literal token => exact finds.atExpr rfl (.loose [token])
  | .member base period name =>
    exact finds.atExpr rfl ((finds.expr?_covers base).behind [period, name])
  | .call callee arguments closure =>
    exact finds.atExpr rfl (((finds.expr_covers callee).append
      (finds.callArguments_covers arguments)).append (finds.closure?_covers closure))
  | .index base arguments =>
    exact finds.atExpr rfl ((finds.expr_covers base).append (finds.argumentList_covers arguments))
  | .sequence operands operators =>
    exact finds.atExpr rfl (finds.operands_covers operands operators)
  | .prefixed operator operand =>
    exact finds.atExpr rfl ((finds.expr_covers operand).before [operator])
  | .suffixed operand operator =>
    exact finds.atExpr rfl ((finds.expr_covers operand).behind [operator])
  | .trying keyword mark operand =>
    exact finds.atExpr rfl ((finds.expr_covers operand).before (keyword :: Node.tokens mark))
  | .awaiting keyword operand =>
    exact finds.atExpr rfl ((finds.expr_covers operand).before [keyword])
  | .tuple elements => exact finds.atExpr rfl (finds.argumentList_covers elements)
  | .collection left elements right =>
    exact finds.atExpr rfl (((finds.elements_covers elements).before [left]).behind [right])
  | .closure closure => exact finds.atExpr rfl (finds.closure_covers closure)
  | .specialized base arguments =>
    exact finds.atExpr rfl ((finds.expr_covers base).behind arguments)
  | .raw tokens => exact finds.atExpr rfl (.loose tokens)

theorem expr?_covers (finds : stops.Finds sought) (expr : Option Expr) :
    Covers stops sought (cutExpr? stops expr) (tokensOfExpr? expr)
      (walkExpr? .everywhere expr) := by
  match expr with
  | none => exact .nil
  | some expr => exact finds.expr_covers expr

theorem argumentList_covers (finds : stops.Finds sought) (list : ArgumentList) :
    Covers stops sought (list.cut stops) list.tokens (list.walk .everywhere) := by
  match list with
  | ⟨opener, arguments, closer⟩ =>
    exact ((finds.arguments_covers arguments).before [opener]).behind [closer]

theorem callArguments_covers (finds : stops.Finds sought) (list : CallArguments) :
    Covers stops sought (list.cut stops) list.tokens (list.walk .everywhere) := by
  match list with
  | ⟨left, arguments, right⟩ =>
    exact ((finds.arguments_covers arguments).before (Node.tokens left)).behind (Node.tokens right)

theorem arguments_covers (finds : stops.Finds sought) (arguments : List Argument) :
    Covers stops sought (cutArguments stops arguments) (tokensOfArguments arguments)
      (walkArguments .everywhere arguments) := by
  match arguments with
  | [] => exact .nil
  | ⟨label, value, comma⟩ :: later =>
    exact (((finds.expr_covers value).before (Node.tokens label)).behind
      (Node.tokens comma)).append (finds.arguments_covers later)

theorem operands_covers (finds : stops.Finds sought) (operands : List Expr)
    (operators : List Token) :
    Covers stops sought (cutOperands stops operands operators) (tokensOfOperands operands operators)
      (walkOperands .everywhere operands) := by
  match operands with
  | [] => exact .nil
  | operand :: later =>
    exact ((finds.expr_covers operand).behind (Node.tokens operators.head?)).append
      (finds.operands_covers later operators.tail)

theorem elements_covers (finds : stops.Finds sought) (elements : List CollectionElement) :
    Covers stops sought (cutElements stops elements) (tokensOfElements elements)
      (walkElements .everywhere elements) := by
  match elements with
  | [] => exact .nil
  | .value value comma :: later =>
    exact ((finds.expr_covers value).behind (Node.tokens comma)).append
      (finds.elements_covers later)
  | .entry key colon value comma :: later =>
    exact (((finds.expr_covers key).append ((finds.expr_covers value).before [colon])).behind
      (Node.tokens comma)).append (finds.elements_covers later)

theorem closure_covers (finds : stops.Finds sought) (closure : Closure) :
    Covers stops sought (closure.cut stops) closure.tokens (closure.walk .everywhere) := by
  match closure with
  | ⟨left, signature, statements, right⟩ =>
    exact finds.atClosure
      (((finds.statements_covers statements).before (left :: Node.tokens signature)).behind [right])

theorem closure?_covers (finds : stops.Finds sought) (closure : Option Closure) :
    Covers stops sought (cutClosure? stops closure) (tokensOfClosure? closure)
      (walkClosure? .everywhere closure) := by
  match closure with
  | none => exact .nil
  | some closure => exact finds.closure_covers closure

theorem statement_covers (finds : stops.Finds sought) (statement : Statement) :
    Covers stops sought (statement.cut stops) statement.tokens (statement.walk .everywhere) := by
  match statement with
  | ⟨item, semicolon⟩ => exact (finds.item_covers item).behind (Node.tokens semicolon)

/-- The parts of some statements cover their tokens. -/
theorem statements_covers (finds : stops.Finds sought) (statements : List Statement) :
    Covers stops sought (cutStatements stops statements) (tokensOfStatements statements)
      (walkStatements .everywhere statements) := by
  match statements with
  | [] => exact .nil
  | statement :: later =>
    exact (finds.statement_covers statement).append (finds.statements_covers later)

theorem item_covers (finds : stops.Finds sought) (item : Item) :
    Covers stops sought (item.cut stops) item.tokens (item.walk .everywhere) := by
  match item with
  | .expr expr => exact finds.expr_covers expr
  | .decl decl => exact finds.decl_covers decl
  | .returning keyword value => exact (finds.expr?_covers value).before [keyword]
  | .throwing keyword value => exact (finds.expr_covers value).before [keyword]
  | .conditional statement => exact finds.ifStatement_covers statement
  | .guarding keyword conditions elseKeyword body =>
    exact ((finds.conditions_covers conditions).before [keyword]).append
      ((finds.block_covers body).before [elseKeyword])
  | .forIn keyword modifiers pattern type inKeyword sequence filter body =>
    exact ((((((finds.expr_covers sequence).before [inKeyword]).before
      (keyword :: modifiers ++ Node.tokens pattern ++ Node.tokens type)).skip
        (finds.binds _)).append (finds.clause?_covers filter)).append (finds.block_covers body))
  | .whileLoop keyword conditions body =>
    exact ((finds.conditions_covers conditions).before [keyword]).append (finds.block_covers body)
  | .repeatLoop keyword body whileKeyword condition =>
    exact ((finds.block_covers body).before [keyword]).append
      ((finds.expr_covers condition).before [whileKeyword])
  | .doCatch keyword throwsClause body catches =>
    exact ((finds.block_covers body).before (keyword :: throwsClause)).append
      (finds.catches_covers catches)
  | .switching keyword subject left cases right =>
    exact (((finds.expr_covers subject).before [keyword]).append
      ((finds.cases_covers cases).before [left])).behind [right]
  | .deferring keyword body => exact (finds.block_covers body).before [keyword]
  | .raw tokens => exact .loose tokens

theorem block_covers (finds : stops.Finds sought) (block : CodeBlock) :
    Covers stops sought (block.cut stops) block.tokens (block.walk .everywhere) := by
  match block with
  | ⟨left, statements, right⟩ =>
    exact ((finds.statements_covers statements).before [left]).behind [right]

theorem block?_covers (finds : stops.Finds sought) (block : Option CodeBlock) :
    Covers stops sought (cutBlock? stops block) (tokensOfBlock? block)
      (walkBlock? .everywhere block) := by
  match block with
  | none => exact .nil
  | some block => exact finds.block_covers block

theorem ifStatement_covers (finds : stops.Finds sought) (statement : IfStatement) :
    Covers stops sought (statement.cut stops) statement.tokens (statement.walk .everywhere) := by
  match statement with
  | ⟨keyword, conditions, body, alternative⟩ =>
    exact (((finds.conditions_covers conditions).before [keyword]).append
      (finds.block_covers body)).append (finds.elseClause_covers alternative)

theorem elseClause_covers (finds : stops.Finds sought) (alternative : ElseClause) :
    Covers stops sought (alternative.cut stops) alternative.tokens
      (alternative.walk .everywhere) := by
  match alternative with
  | .absent => exact .nil
  | .block keyword body => exact (finds.block_covers body).before [keyword]
  | .chained keyword next => exact (finds.ifStatement_covers next).before [keyword]

theorem conditions_covers (finds : stops.Finds sought) (conditions : List Condition) :
    Covers stops sought (cutConditions stops conditions) (tokensOfConditions conditions)
      (walkConditions .everywhere conditions) := by
  match conditions with
  | [] => exact .nil
  | .expr expr comma :: later =>
    exact ((finds.expr_covers expr).behind (Node.tokens comma)).append
      (finds.conditions_covers later)
  | .binding specifier pattern type initializer comma :: later =>
    exact (((finds.clause?_covers initializer).before
      (specifier :: Node.tokens pattern ++ Node.tokens type)).behind (Node.tokens comma)).append
        ((finds.conditions_covers later).skip (finds.binds _))

theorem clause_covers (finds : stops.Finds sought) (clause : Clause) :
    Covers stops sought (clause.cut stops) clause.tokens (clause.walk .everywhere) := by
  match clause with
  | ⟨mark, value⟩ => exact (finds.expr_covers value).before [mark]

theorem clause?_covers (finds : stops.Finds sought) (clause : Option Clause) :
    Covers stops sought (cutClause? stops clause) (tokensOfClause? clause)
      (walkClause? .everywhere clause) := by
  match clause with
  | none => exact .nil
  | some clause => exact finds.clause_covers clause

theorem catches_covers (finds : stops.Finds sought) (catches : List CatchClause) :
    Covers stops sought (cutCatches stops catches) (tokensOfCatches catches)
      (walkCatches .everywhere catches) := by
  match catches with
  | [] => exact .nil
  | ⟨keyword, pattern, body⟩ :: later =>
    exact ((finds.block_covers body).before (keyword :: pattern)).append
      (finds.catches_covers later)

theorem cases_covers (finds : stops.Finds sought) (cases : List SwitchCase) :
    Covers stops sought (cutCases stops cases) (tokensOfCases cases)
      (walkCases .everywhere cases) := by
  match cases with
  | [] => exact .nil
  | ⟨label, statements⟩ :: later =>
    exact ((finds.statements_covers statements).before label).append (finds.cases_covers later)

/-- The parts of a declaration cover its tokens. -/
theorem decl_covers (finds : stops.Finds sought) (decl : Decl) :
    Covers stops sought (decl.cut stops) decl.tokens (decl.walk .everywhere) := by
  match decl with
  | .importing decl => exact (Covers.loose (Node.tokens decl)).skip (finds.decl _)
  | .raw decl => exact (Covers.loose (Node.tokens decl)).skip (finds.decl _)
  | .type header members =>
    exact ((finds.block_covers members).before (Node.tokens header)).skip (finds.decl _)
  | .function header body =>
    exact (((finds.block?_covers body).before (Node.tokens header)).skip (finds.binds _)).skip
      (finds.decl _)
  | .variable header bindings =>
    exact (((finds.bindings_covers bindings).before (Node.tokens header)).skipLast
      (finds.binds _)).skip (finds.decl _)
  | .initializer header body =>
    exact ((finds.block?_covers body).before (Node.tokens header)).skip (finds.decl _)
  | .finalizer header body =>
    exact ((finds.block?_covers body).before (Node.tokens header)).skip (finds.decl _)

theorem bindings_covers (finds : stops.Finds sought) (bindings : List PatternBinding) :
    Covers stops sought (cutBindings stops bindings) (tokensOfBindings bindings)
      (walkBindings .everywhere bindings) := by
  match bindings with
  | [] => exact .nil
  | ⟨pattern, type, initializer, accessor, comma⟩ :: later =>
    exact ((((finds.clause?_covers initializer).before
      (Node.tokens pattern ++ Node.tokens type)).append (finds.block?_covers accessor)).behind
        (Node.tokens comma)).append (finds.bindings_covers later)

end

end Stops.Finds

/-! ### The tokens of the parts -/

/-- Where nothing is sought the stops do not matter. -/
theorem Stops.finds_nothing (stops : Stops) : stops.Finds fun _ => false :=
  ⟨fun _ _ => rfl, fun _ => rfl, fun _ => rfl, fun _ => rfl⟩

variable (stops : Stops)

/-- Cut into parts an expression has the same tokens. -/
theorem Expr.tokens_cut (expr : Expr) : (expr.cut stops).flatMap Part.tokens = expr.tokens :=
  (stops.finds_nothing.expr_covers expr).tokens_eq

/-- Cut into parts a statement has the same tokens. -/
theorem Statement.tokens_cut (statement : Statement) :
    (statement.cut stops).flatMap Part.tokens = statement.tokens :=
  (stops.finds_nothing.statement_covers statement).tokens_eq

/-- Cut into parts a file has the same tokens. -/
theorem SourceFile.tokens_cut (file : SourceFile) :
    (file.cut stops).flatMap Part.tokens = Node.tokens file :=
  ((stops.finds_nothing.statements_covers file.statements).behind [file.endOfFile]).tokens_eq

end SuiteMigration
