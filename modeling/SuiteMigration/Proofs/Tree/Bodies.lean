import Mathlib.Tactic.Common
import SuiteMigration.Proofs.Tree.Lenses

/-!
# Lists of statements in a tree

A list of statements stands in a code block, in a closure or behind the label of a switch. All of
them are collected from a tree in the order of the source, each before those inside it. At some
calls the arguments with a label can be left out, because a rewrite drops them.

## Main definitions

* `Body` - a place of a list of statements
* `Expr.bodies`, `Statement.bodies`, `SourceFile.bodies` - the places in a tree
* `SourceFile.blocks` - the code blocks among them
* `SameInside` - tokens that differ at their ends only

## Main results

* `Statement.owns`, `SourceFile.infix_of_block` - the tokens of a place stand in a row in those of
  the tree
* `Expr.lists_refill` - an expression that changes at its ends keeps its lists of statements
-/

namespace SuiteMigration

/-- No call is passed over. -/
def skipNothing : Expr → Bool := fun _ => false

/-- A part of a tree that holds a list of statements. -/
inductive Body
  | block (block : CodeBlock)
  | closure (closure : Closure)
  | branch (branch : SwitchCase)

/-- The statements of a body. -/
def Body.statements : Body → List Statement
  | .block body => body.statements
  | .closure body => body.statements
  | .branch body => body.statements

/-- The tokens of a body. -/
def Body.tokens : Body → List Token
  | .block body => body.tokens
  | .closure body => body.tokens
  | .branch body => body.tokens

mutual

/-- The bodies in an expression. At the given calls the arguments with a label are left out. -/
def Expr.bodies (skips : Expr → Bool) : Expr → List Body
  | .identifier _ | .literal _ | .raw _ => []
  | .member base _ _ => bodiesOfExpr? skips base
  | .call callee arguments closure =>
    callee.bodies skips ++
      arguments.bodies skips (skips (.call callee arguments closure)) ++
      bodiesOfClosure? skips closure
  | .index base arguments => base.bodies skips ++ arguments.bodies skips false
  | .sequence operands _ => bodiesOfOperands skips operands
  | .prefixed _ operand => operand.bodies skips
  | .suffixed operand _ => operand.bodies skips
  | .trying _ _ operand => operand.bodies skips
  | .awaiting _ operand => operand.bodies skips
  | .tuple elements => elements.bodies skips false
  | .collection _ elements _ => bodiesOfElements skips elements
  | .closure closure => closure.bodies skips
  | .specialized base _ => base.bodies skips

def bodiesOfExpr? (skips : Expr → Bool) : Option Expr → List Body
  | none => []
  | some expr => expr.bodies skips

def ArgumentList.bodies (skips : Expr → Bool) (unlabeled : Bool) : ArgumentList → List Body
  | ⟨_, arguments, _⟩ => bodiesOfArguments skips unlabeled arguments

def CallArguments.bodies (skips : Expr → Bool) (unlabeled : Bool) : CallArguments → List Body
  | ⟨_, arguments, _⟩ => bodiesOfArguments skips unlabeled arguments

/-- The bodies in some arguments, or in those of them without a label. -/
def bodiesOfArguments (skips : Expr → Bool) (unlabeled : Bool) : List Argument → List Body
  | [] => []
  | ⟨label, value, _⟩ :: later =>
    (if unlabeled && label.isSome then [] else value.bodies skips) ++
      bodiesOfArguments skips unlabeled later

def bodiesOfOperands (skips : Expr → Bool) : List Expr → List Body
  | [] => []
  | operand :: later => operand.bodies skips ++ bodiesOfOperands skips later

def bodiesOfElements (skips : Expr → Bool) : List CollectionElement → List Body
  | [] => []
  | .value value _ :: later => value.bodies skips ++ bodiesOfElements skips later
  | .entry key _ value _ :: later =>
    key.bodies skips ++ value.bodies skips ++ bodiesOfElements skips later

def Closure.bodies (skips : Expr → Bool) : Closure → List Body
  | ⟨left, signature, statements, right⟩ =>
    .closure ⟨left, signature, statements, right⟩ :: bodiesOfStatements skips statements

def bodiesOfClosure? (skips : Expr → Bool) : Option Closure → List Body
  | none => []
  | some closure => closure.bodies skips

def Statement.bodies (skips : Expr → Bool) : Statement → List Body
  | ⟨item, _⟩ => item.bodies skips

def bodiesOfStatements (skips : Expr → Bool) : List Statement → List Body
  | [] => []
  | statement :: later => statement.bodies skips ++ bodiesOfStatements skips later

def Item.bodies (skips : Expr → Bool) : Item → List Body
  | .expr expr => expr.bodies skips
  | .decl decl => decl.bodies skips
  | .returning _ value => bodiesOfExpr? skips value
  | .throwing _ value => value.bodies skips
  | .conditional statement => statement.bodies skips
  | .guarding _ conditions _ body => bodiesOfConditions skips conditions ++ body.bodies skips
  | .forIn _ _ _ _ _ sequence filter body =>
    sequence.bodies skips ++ bodiesOfClause? skips filter ++ body.bodies skips
  | .whileLoop _ conditions body => bodiesOfConditions skips conditions ++ body.bodies skips
  | .repeatLoop _ body _ condition => body.bodies skips ++ condition.bodies skips
  | .doCatch _ _ body catches => body.bodies skips ++ bodiesOfCatches skips catches
  | .switching _ subject _ cases _ => subject.bodies skips ++ bodiesOfCases skips cases
  | .deferring _ body => body.bodies skips
  | .raw _ => []

def CodeBlock.bodies (skips : Expr → Bool) : CodeBlock → List Body
  | ⟨left, statements, right⟩ =>
    .block ⟨left, statements, right⟩ :: bodiesOfStatements skips statements

def bodiesOfBlock? (skips : Expr → Bool) : Option CodeBlock → List Body
  | none => []
  | some block => block.bodies skips

def IfStatement.bodies (skips : Expr → Bool) : IfStatement → List Body
  | ⟨_, conditions, body, alternative⟩ =>
    bodiesOfConditions skips conditions ++ body.bodies skips ++ alternative.bodies skips

def ElseClause.bodies (skips : Expr → Bool) : ElseClause → List Body
  | .absent => []
  | .block _ body => body.bodies skips
  | .chained _ next => next.bodies skips

def bodiesOfConditions (skips : Expr → Bool) : List Condition → List Body
  | [] => []
  | .expr expr _ :: later => expr.bodies skips ++ bodiesOfConditions skips later
  | .binding _ _ _ initializer _ :: later =>
    bodiesOfClause? skips initializer ++ bodiesOfConditions skips later

def Clause.bodies (skips : Expr → Bool) : Clause → List Body
  | ⟨_, value⟩ => value.bodies skips

def bodiesOfClause? (skips : Expr → Bool) : Option Clause → List Body
  | none => []
  | some clause => clause.bodies skips

def bodiesOfCatches (skips : Expr → Bool) : List CatchClause → List Body
  | [] => []
  | ⟨_, _, body⟩ :: later => body.bodies skips ++ bodiesOfCatches skips later

def bodiesOfCases (skips : Expr → Bool) : List SwitchCase → List Body
  | [] => []
  | ⟨label, statements⟩ :: later =>
    .branch ⟨label, statements⟩ :: bodiesOfStatements skips statements ++ bodiesOfCases skips later

def Decl.bodies (skips : Expr → Bool) : Decl → List Body
  | .importing _ | .raw _ => []
  | .type _ members => members.bodies skips
  | .function _ body => bodiesOfBlock? skips body
  | .variable _ bindings => bodiesOfBindings skips bindings
  | .initializer _ body => bodiesOfBlock? skips body
  | .finalizer _ body => bodiesOfBlock? skips body

def bodiesOfBindings (skips : Expr → Bool) : List PatternBinding → List Body
  | [] => []
  | ⟨_, _, initializer, accessor, _⟩ :: later =>
    bodiesOfClause? skips initializer ++ bodiesOfBlock? skips accessor ++
      bodiesOfBindings skips later

end

/-- The bodies in a file. -/
def SourceFile.bodies (skips : Expr → Bool) (file : SourceFile) : List Body :=
  bodiesOfStatements skips file.statements

/-- The body as a code block, if it is one. -/
def Body.block? : Body → Option CodeBlock
  | .block body => some body
  | .closure _ | .branch _ => none

/-- The code blocks in a file. -/
def SourceFile.blocks (file : SourceFile) : List CodeBlock :=
  (file.bodies skipNothing).filterMap Body.block?

/-! ### The tokens of bodies -/

/-- The tokens of each of the bodies stand in a row in the given ones. -/
def Owns (tokens : List Token) (bodies : List Body) : Prop :=
  ∀ body ∈ bodies, body.tokens <:+: tokens

namespace Owns

variable {tokens later : List Token} {bodies laterBodies : List Body}

theorem nil (tokens : List Token) : Owns tokens [] :=
  List.forall_mem_nil _

/-- Tokens in a row hold the bodies of both. -/
theorem append (owns : Owns tokens bodies) (laterOwns : Owns later laterBodies) :
    Owns (tokens ++ later) (bodies ++ laterBodies) := by
  refine List.forall_mem_append.2 ⟨fun body member => ?_, fun body member => ?_⟩
  · exact (owns body member).trans (List.prefix_append _ _).isInfix
  · exact (laterOwns body member).trans (List.suffix_append _ _).isInfix

theorem before (run : List Token) (owns : Owns tokens bodies) : Owns (run ++ tokens) bodies :=
  (nil run).append owns

theorem behind (run : List Token) (owns : Owns tokens bodies) : Owns (tokens ++ run) bodies := by
  rw [← List.append_nil bodies]
  exact owns.append (nil run)

/-- A body stands around those inside it. -/
theorem cons {body : Body} (whole : body.tokens = tokens) (owns : Owns tokens bodies) :
    Owns tokens (body :: bodies) :=
  List.forall_mem_cons.2 ⟨whole ▸ List.infix_rfl, owns⟩

/-- A case stands around the bodies in its statements. -/
theorem branch (label : List Token) (statements : List Statement)
    (owns : Owns (tokensOfStatements statements) bodies) :
    Owns (label ++ tokensOfStatements statements) (.branch ⟨label, statements⟩ :: bodies) :=
  cons rfl (owns.before label)

theorem ite {skip : Bool} (owns : Owns tokens bodies) : Owns tokens (if skip then [] else bodies) := by
  cases skip with
  | true => exact nil tokens
  | false => exact owns

end Owns

-- The induction follows the tree. The tokens of a node are put together as its bodies are.
mutual

/-- The tokens of each body in an expression stand in a row in it. -/
theorem Expr.owns (skips : Expr → Bool) : ∀ expr : Expr, Owns expr.tokens (expr.bodies skips)
  | .identifier _ | .literal _ | .raw _ => .nil _
  | .member base period name => (ownsExpr? skips base).behind [period, name]
  | .call callee arguments closure =>
    ((callee.owns skips).append (arguments.owns skips _)).append
      (ownsClosure? skips closure)
  | .index base arguments => (base.owns skips).append (arguments.owns skips false)
  | .sequence operands operators => ownsOperands skips operands operators
  | .prefixed operator operand => (operand.owns skips).before [operator]
  | .suffixed operand operator => (operand.owns skips).behind [operator]
  | .trying keyword mark operand => (operand.owns skips).before (keyword :: Node.tokens mark)
  | .awaiting keyword operand => (operand.owns skips).before [keyword]
  | .tuple elements => elements.owns skips false
  | .collection left elements right => ((ownsElements skips elements).before [left]).behind [right]
  | .closure closure => closure.owns skips
  | .specialized base arguments => (base.owns skips).behind arguments

theorem ownsExpr? (skips : Expr → Bool) : ∀ expr : Option Expr,
    Owns (tokensOfExpr? expr) (bodiesOfExpr? skips expr)
  | none => .nil _
  | some expr => expr.owns skips

theorem ArgumentList.owns (skips : Expr → Bool) (unlabeled : Bool) : ∀ list : ArgumentList,
    Owns list.tokens (list.bodies skips unlabeled)
  | ⟨opener, arguments, closer⟩ =>
    ((ownsArguments skips unlabeled arguments).before [opener]).behind [closer]

theorem CallArguments.owns (skips : Expr → Bool) (unlabeled : Bool) : ∀ list : CallArguments,
    Owns list.tokens (list.bodies skips unlabeled)
  | ⟨left, arguments, right⟩ =>
    ((ownsArguments skips unlabeled arguments).before (Node.tokens left)).behind
      (Node.tokens right)

theorem ownsArguments (skips : Expr → Bool) (unlabeled : Bool) : ∀ arguments : List Argument,
    Owns (tokensOfArguments arguments) (bodiesOfArguments skips unlabeled arguments)
  | [] => .nil _
  | ⟨label, value, comma⟩ :: later =>
    (((value.owns skips).ite.before (Node.tokens label)).behind (Node.tokens comma)).append
      (ownsArguments skips unlabeled later)

theorem ownsOperands (skips : Expr → Bool) : ∀ (operands : List Expr) (operators : List Token),
    Owns (tokensOfOperands operands operators) (bodiesOfOperands skips operands)
  | [], _ => .nil _
  | operand :: later, operators =>
    ((operand.owns skips).behind (Node.tokens operators.head?)).append
      (ownsOperands skips later operators.tail)

theorem ownsElements (skips : Expr → Bool) : ∀ elements : List CollectionElement,
    Owns (tokensOfElements elements) (bodiesOfElements skips elements)
  | [] => .nil _
  | .value value comma :: later =>
    ((value.owns skips).behind (Node.tokens comma)).append (ownsElements skips later)
  | .entry key colon value comma :: later =>
    (((key.owns skips).append ((value.owns skips).before [colon])).behind
      (Node.tokens comma)).append (ownsElements skips later)

theorem Closure.owns (skips : Expr → Bool) : ∀ closure : Closure,
    Owns closure.tokens (closure.bodies skips)
  | ⟨left, signature, statements, right⟩ =>
    .cons rfl (((ownsStatements skips statements).before (left :: Node.tokens signature)).behind
      [right])

theorem ownsClosure? (skips : Expr → Bool) : ∀ closure : Option Closure,
    Owns (tokensOfClosure? closure) (bodiesOfClosure? skips closure)
  | none => .nil _
  | some closure => closure.owns skips

theorem Statement.owns (skips : Expr → Bool) : ∀ statement : Statement,
    Owns statement.tokens (statement.bodies skips)
  | ⟨item, semicolon⟩ => (item.owns skips).behind (Node.tokens semicolon)

/-- The tokens of each body in some statements stand in a row in them. -/
theorem ownsStatements (skips : Expr → Bool) : ∀ statements : List Statement,
    Owns (tokensOfStatements statements) (bodiesOfStatements skips statements)
  | [] => .nil _
  | statement :: later => (statement.owns skips).append (ownsStatements skips later)

theorem Item.owns (skips : Expr → Bool) : ∀ item : Item, Owns item.tokens (item.bodies skips)
  | .expr expr => expr.owns skips
  | .decl decl => decl.owns skips
  | .returning keyword value => (ownsExpr? skips value).before [keyword]
  | .throwing keyword value => (value.owns skips).before [keyword]
  | .conditional statement => statement.owns skips
  | .guarding keyword conditions elseKeyword body =>
    ((ownsConditions skips conditions).before [keyword]).append
      ((body.owns skips).before [elseKeyword])
  | .forIn keyword modifiers pattern type inKeyword sequence filter body =>
    (((((sequence.owns skips).before [inKeyword]).before
      (keyword :: modifiers ++ Node.tokens pattern ++ Node.tokens type)).append
        (ownsClause? skips filter)).append (body.owns skips))
  | .whileLoop keyword conditions body =>
    ((ownsConditions skips conditions).before [keyword]).append (body.owns skips)
  | .repeatLoop keyword body whileKeyword condition =>
    ((body.owns skips).before [keyword]).append ((condition.owns skips).before [whileKeyword])
  | .doCatch keyword throwsClause body catches =>
    ((body.owns skips).before (keyword :: throwsClause)).append (ownsCatches skips catches)
  | .switching keyword subject left cases right =>
    (((subject.owns skips).before [keyword]).append
      ((ownsCases skips cases).before [left])).behind [right]
  | .deferring keyword body => (body.owns skips).before [keyword]
  | .raw _ => .nil _

theorem CodeBlock.owns (skips : Expr → Bool) : ∀ block : CodeBlock,
    Owns block.tokens (block.bodies skips)
  | ⟨left, statements, right⟩ =>
    .cons rfl (((ownsStatements skips statements).before [left]).behind [right])

theorem ownsBlock? (skips : Expr → Bool) : ∀ block : Option CodeBlock,
    Owns (tokensOfBlock? block) (bodiesOfBlock? skips block)
  | none => .nil _
  | some block => block.owns skips

theorem IfStatement.owns (skips : Expr → Bool) : ∀ statement : IfStatement,
    Owns statement.tokens (statement.bodies skips)
  | ⟨keyword, conditions, body, alternative⟩ =>
    (((ownsConditions skips conditions).before [keyword]).append (body.owns skips)).append
      (alternative.owns skips)

theorem ElseClause.owns (skips : Expr → Bool) : ∀ alternative : ElseClause,
    Owns alternative.tokens (alternative.bodies skips)
  | .absent => .nil _
  | .block keyword body => (body.owns skips).before [keyword]
  | .chained keyword next => (next.owns skips).before [keyword]

theorem ownsConditions (skips : Expr → Bool) : ∀ conditions : List Condition,
    Owns (tokensOfConditions conditions) (bodiesOfConditions skips conditions)
  | [] => .nil _
  | .expr expr comma :: later =>
    ((expr.owns skips).behind (Node.tokens comma)).append (ownsConditions skips later)
  | .binding specifier pattern type initializer comma :: later =>
    (((ownsClause? skips initializer).before
      (specifier :: Node.tokens pattern ++ Node.tokens type)).behind
        (Node.tokens comma)).append (ownsConditions skips later)

theorem Clause.owns (skips : Expr → Bool) : ∀ clause : Clause,
    Owns clause.tokens (clause.bodies skips)
  | ⟨mark, value⟩ => (value.owns skips).before [mark]

theorem ownsClause? (skips : Expr → Bool) : ∀ clause : Option Clause,
    Owns (tokensOfClause? clause) (bodiesOfClause? skips clause)
  | none => .nil _
  | some clause => clause.owns skips

theorem ownsCatches (skips : Expr → Bool) : ∀ catches : List CatchClause,
    Owns (tokensOfCatches catches) (bodiesOfCatches skips catches)
  | [] => .nil _
  | ⟨keyword, pattern, body⟩ :: later =>
    ((body.owns skips).before (keyword :: pattern)).append (ownsCatches skips later)

theorem ownsCases (skips : Expr → Bool) : ∀ cases : List SwitchCase,
    Owns (tokensOfCases cases) (bodiesOfCases skips cases)
  | [] => .nil _
  | ⟨label, statements⟩ :: later =>
    (Owns.branch label statements (ownsStatements skips statements)).append (ownsCases skips later)

theorem Decl.owns (skips : Expr → Bool) : ∀ decl : Decl, Owns decl.tokens (decl.bodies skips)
  | .importing _ | .raw _ => .nil _
  | .type header members => (members.owns skips).before (Node.tokens header)
  | .function header body => (ownsBlock? skips body).before (Node.tokens header)
  | .variable header bindings => (ownsBindings skips bindings).before (Node.tokens header)
  | .initializer header body => (ownsBlock? skips body).before (Node.tokens header)
  | .finalizer header body => (ownsBlock? skips body).before (Node.tokens header)

theorem ownsBindings (skips : Expr → Bool) : ∀ bindings : List PatternBinding,
    Owns (tokensOfBindings bindings) (bodiesOfBindings skips bindings)
  | [] => .nil _
  | ⟨pattern, type, initializer, accessor, comma⟩ :: later =>
    ((((ownsClause? skips initializer).before (Node.tokens pattern ++ Node.tokens type)).append
      (ownsBlock? skips accessor)).behind (Node.tokens comma)).append (ownsBindings skips later)

end

/-- The tokens of a code block of a file stand in a row in those of its statements. -/
theorem SourceFile.infix_of_block {file : SourceFile} {block : CodeBlock}
    (member : block ∈ file.blocks) : block.tokens <:+: tokensOfStatements file.statements := by
  obtain ⟨body, inFile, isBlock⟩ := List.mem_filterMap.1 member
  cases body with
  | block body =>
    obtain rfl := Option.some.inj isBlock
    exact ownsStatements skipNothing file.statements _ inFile
  | closure | branch => cases isBlock

/-! ### Changes at the ends of an expression -/

/-- The tokens differ in the first and the last of them only. -/
structure SameInside (old new : List Token) : Prop where
  length_eq : new.length = old.length
  getElem?_eq : ∀ index, 0 < index → index + 1 < old.length → new[index]? = old[index]?

namespace SameInside

variable {old later new : List Token} {left right : Token}

/-- The ends of a part are at the ends of the whole or are not touched. -/
theorem split (same : SameInside (old ++ later) new) :
    ∃ front back, new = front ++ back ∧ SameInside old front ∧ SameInside later back := by
  have length_eq := same.length_eq
  rw [List.length_append] at length_eq
  have front_length : (new.take old.length).length = old.length := by
    rw [List.length_take]
    omega
  refine ⟨new.take old.length, new.drop old.length, (List.take_append_drop _ _).symm, ?_, ?_⟩
  · refine ⟨front_length, fun index positive inside => ?_⟩
    rw [List.getElem?_take_of_lt (by omega)]
    rw [same.getElem?_eq index positive (by rw [List.length_append]; omega)]
    exact List.getElem?_append_left (by omega)
  · refine ⟨by rw [List.length_drop]; omega, fun index positive inside => ?_⟩
    rw [List.getElem?_drop, same.getElem?_eq _ (by omega) (by rw [List.length_append]; omega),
      List.getElem?_append_right (by omega), Nat.add_sub_cancel_left]

/-- The first list is matched by the first one. -/
theorem split_cons (same : SameInside (left :: later) new) :
    ∃ first back, new = first :: back ∧ SameInside later back := by
  have whole : SameInside ([left] ++ later) new := same
  obtain ⟨front, back, rfl, frontSame, backSame⟩ := whole.split
  obtain ⟨first, rfl⟩ := List.length_eq_one_iff.1 frontSame.length_eq
  exact ⟨first, back, rfl, backSame⟩

/-- Between two tokens nothing is touched. -/
theorem between (same : SameInside (left :: old ++ [right]) new) :
    ∃ first last, new = first :: old ++ [last] := by
  obtain ⟨first, rest, rfl, -⟩ := same.split_cons
  have length_eq : rest.length = (old ++ [right]).length := Nat.succ.inj same.length_eq
  obtain ⟨middle, last, rfl⟩ : ∃ middle last, rest = middle ++ [last] := by
    rcases List.eq_nil_or_concat rest with rfl | ⟨middle, last, rfl⟩
    · simp at length_eq
    · exact ⟨middle, last, List.concat_eq_append⟩
  have middle_length : middle.length = old.length := by simpa using length_eq
  refine ⟨first, last, congrArg (first :: · ++ [last]) (List.ext_getElem? fun index => ?_)⟩
  by_cases inside : index < old.length
  · have kept := same.getElem?_eq (index + 1) (Nat.succ_pos _) (by simpa using inside)
    simp only [List.cons_append, List.getElem?_cons_succ] at kept
    rwa [List.getElem?_append_left (by omega), List.getElem?_append_left inside] at kept
  · rw [List.getElem?_eq_none (by omega), List.getElem?_eq_none (by omega)]

/-- Changing the first token leaves what is inside. -/
theorem modifyFirst (change : Token → Token) (tokens : List Token) :
    SameInside tokens (SuiteMigration.modifyFirst change tokens) := by
  refine ⟨length_modifyFirst _ _, fun index positive _ => ?_⟩
  obtain ⟨later, rfl⟩ := Nat.exists_eq_add_one_of_ne_zero (Nat.ne_of_gt positive)
  cases tokens <;> rfl

/-- Changing the last token leaves what is inside. -/
theorem modifyLast (change : Token → Token) (tokens : List Token) :
    SameInside tokens (SuiteMigration.modifyLast change tokens) := by
  refine ⟨length_modifyLast _ _, fun index _ inside => ?_⟩
  rcases List.eq_nil_or_concat tokens with rfl | ⟨front, last, rfl⟩
  · rfl
  · rw [List.concat_eq_append] at inside ⊢
    rw [List.length_append, List.length_singleton] at inside
    rw [modifyLast_concat, List.getElem?_append_left (by omega),
      List.getElem?_append_left (by omega)]

end SameInside

open Node (Assembles refill)

variable {α β : Type}

/-- What stands between two tokens stays as it is. -/
theorem refill_between [Node α] [Refillable α] {left right : Token} {middle : α}
    {new : List Token} (same : SameInside (Node.tokens (left, middle, right)) new) :
    ∃ first last, refill (left, middle, right) new = (first, middle, last) := by
  obtain ⟨first, last, rfl⟩ := SameInside.between same
  have inner : refill (middle, right) (Node.tokens middle ++ [last]) =
      (refill middle (Node.tokens middle), last) := Node.refill_pair rfl rfl
  have whole : refill (left, middle, right) ([first] ++ (Node.tokens middle ++ [last])) =
      (first, refill (middle, right) (Node.tokens middle ++ [last])) :=
    Node.refill_pair rfl (by simp [Node.tokens])
  rw [Node.refill_tokens] at inner
  exact ⟨first, last, whole.trans (congrArg (Prod.mk first) inner)⟩

/-- The node keeps its lists of statements when its tokens change at the ends only. -/
def KeepsLists [Node α] (bodies : α → List Body) (node : α) : Prop :=
  ∀ new, SameInside (Node.tokens node) new →
    (bodies (refill node new)).map Body.statements = (bodies node).map Body.statements

namespace KeepsLists

variable [Node α] [Node β]

/-- A node without bodies. -/
theorem none (node : α) : KeepsLists (fun _ => []) node :=
  fun _ _ => rfl

variable [Refillable α] [Refillable β]

/-- Two parts keep the lists of both. -/
theorem pair {bodies : α → List Body} {laterBodies : β → List Body} {first : α} {second : β}
    (keeps : KeepsLists bodies first) (laterKeeps : KeepsLists laterBodies second) :
    KeepsLists (fun parts => bodies parts.1 ++ laterBodies parts.2) (first, second) := by
  intro new same
  have whole : SameInside (Node.tokens first ++ Node.tokens second) new := same
  obtain ⟨front, back, rfl, frontSame, backSame⟩ := whole.split
  rw [Node.refill_pair frontSame.length_eq backSame.length_eq, List.map_append, List.map_append,
    keeps front frontSame, laterKeeps back backSame]

theorem behind {bodies : α → List Body} {first : α} (keeps : KeepsLists bodies first)
    (second : β) : KeepsLists (fun parts => bodies parts.1) (first, second) := by
  simpa using keeps.pair (none second)

theorem before {bodies : β → List Body} {second : β} (first : α)
    (keeps : KeepsLists bodies second) : KeepsLists (fun parts => bodies parts.2) (first, second) := by
  simpa using (none first).pair keeps

theorem between (bodies : α → List Body) (left right : Token) (middle : α) :
    KeepsLists (fun parts => bodies parts.2.1) (left, middle, right) := by
  intro new same
  obtain ⟨first, last, new_eq⟩ := refill_between same
  rw [new_eq]

end KeepsLists

/-- A node is put together from parts, and so are its bodies. -/
theorem Node.Assembles.keepsLists [Node α] [Node β] {make : β → α} (assembles : Assembles make)
    {bodies : α → List Body} {partBodies : β → List Body} {parts : β}
    (keeps : KeepsLists partBodies parts)
    (agree : ∀ parts, bodies (make parts) = partBodies parts) : KeepsLists bodies (make parts) := by
  intro new same
  rw [assembles.tokens_eq] at same
  rw [assembles.refill, agree, agree]
  exact keeps new same

theorem ArgumentList.keepsLists (skips : Expr → Bool) (unlabeled : Bool) :
    ∀ list : ArgumentList, KeepsLists (ArgumentList.bodies skips unlabeled) list
  | ⟨opener, arguments, closer⟩ =>
    have keeps := KeepsLists.between (bodiesOfArguments skips unlabeled) opener closer arguments
    ArgumentList.assembles.keepsLists keeps fun _ => rfl

/-- The signature and the statements of a closure stand between its braces. -/
theorem Closure.assembles_between : Assembles fun (left, (signature, statements), right) =>
    Closure.mk left signature statements right where
  tokens_eq := fun (left, (signature, statements), right) => by
    rw [Closure.assembles.tokens_eq (left, signature, statements, right)]
    simp [Node.tokens]
  fill_eq := fun (left, (signature, statements), right) =>
    Closure.assembles.fill_eq (left, signature, statements, right)

theorem Closure.keepsLists (skips : Expr → Bool) :
    ∀ closure : Closure, KeepsLists (Closure.bodies skips) closure
  | ⟨left, signature, statements, right⟩ => by
    intro new same
    rw [Closure.assembles_between.tokens_eq (left, (signature, statements), right)] at same
    obtain ⟨first, last, inner⟩ := refill_between same
    have refill_eq := Closure.assembles_between.refill (left, (signature, statements), right) new
    rw [inner] at refill_eq
    show (Closure.bodies skips (refill _ new)).map Body.statements = _
    rw [refill_eq]
    rfl

-- The induction goes into the parts that an expression can begin or end with, as these are the only
-- ones that change.
mutual

/-- Other margins leave the lists in an expression as they are. -/
theorem Expr.keepsLists : ∀ expr : Expr, KeepsLists (Expr.bodies skipNothing) expr
  | .identifier token => Expr.assembles_identifier.keepsLists (.none token) fun _ => rfl
  | .literal token => Expr.assembles_literal.keepsLists (.none token) fun _ => rfl
  | .raw tokens => Expr.assembles_raw.keepsLists (.none tokens) fun _ => rfl
  | .member base period name =>
    Expr.assembles_member.keepsLists ((keepsListsExpr? base).behind (period, name)) fun _ => rfl
  | .call callee arguments closure =>
    Expr.assembles_call.keepsLists
      (callee.keepsLists.pair (arguments.keepsLists.pair
        (keepsListsClosure? closure))) fun _ => List.append_assoc ..
  | .index base arguments =>
    Expr.assembles_index.keepsLists (base.keepsLists.pair (arguments.keepsLists skipNothing false))
      fun _ => rfl
  | .sequence operands operators =>
    Expr.assembles_sequence.keepsLists (keepsListsOperands operands operators) fun _ => rfl
  | .prefixed operator operand =>
    Expr.assembles_prefixed.keepsLists (operand.keepsLists.before operator) fun _ => rfl
  | .suffixed operand operator =>
    Expr.assembles_suffixed.keepsLists (operand.keepsLists.behind operator) fun _ => rfl
  | .trying keyword mark operand =>
    Expr.assembles_trying.keepsLists ((operand.keepsLists.before mark).before keyword) fun _ => rfl
  | .awaiting keyword operand =>
    Expr.assembles_awaiting.keepsLists (operand.keepsLists.before keyword) fun _ => rfl
  | .tuple elements =>
    Expr.assembles_tuple.keepsLists (elements.keepsLists skipNothing false) fun _ => rfl
  | .collection left elements right =>
    have keeps := KeepsLists.between (bodiesOfElements skipNothing) left right elements
    Expr.assembles_collection.keepsLists keeps fun _ => rfl
  | .closure inner => Expr.assembles_closure.keepsLists (inner.keepsLists skipNothing) fun _ => rfl
  | .specialized base arguments =>
    Expr.assembles_specialized.keepsLists (base.keepsLists.behind arguments) fun _ => rfl

theorem keepsListsExpr? : ∀ expr : Option Expr, KeepsLists (bodiesOfExpr? skipNothing) expr
  | none => fun _ _ => rfl
  | some expr => assembles_some.keepsLists expr.keepsLists fun _ => rfl

-- A call may lack its parentheses, and then it begins or ends with an argument.
theorem CallArguments.keepsLists : ∀ list : CallArguments,
    KeepsLists (CallArguments.bodies skipNothing false) list
  | ⟨left, arguments, right⟩ =>
    CallArguments.assembles.keepsLists (((keepsListsArguments arguments).behind right).before left)
      fun _ => rfl

theorem keepsListsArguments : ∀ arguments : List Argument,
    KeepsLists (bodiesOfArguments skipNothing false) arguments
  | [] => fun _ _ => rfl
  | ⟨label, value, comma⟩ :: later =>
    have first : KeepsLists (fun arg : Argument => arg.value.bodies skipNothing)
        ⟨label, value, comma⟩ :=
      Argument.assembles.keepsLists ((value.keepsLists.behind comma).before label) fun _ => rfl
    assembles_cons.keepsLists (first.pair (keepsListsArguments later)) fun (⟨_, _, _⟩, _) => rfl

theorem keepsListsOperands : ∀ (operands : List Expr) (operators : List Token),
    KeepsLists (fun row : OperatorRow => bodiesOfOperands skipNothing row.operands)
      ⟨operands, operators⟩
  | [], operators => (OperatorRow.assembles_nil operators).keepsLists (.none ()) fun _ => rfl
  | operand :: later, [] =>
    OperatorRow.assembles_operands.keepsLists
      (assembles_cons.keepsLists (operand.keepsLists.pair (keepsListsExprs later)) fun _ => rfl)
      fun _ => rfl
  | operand :: later, operator :: operators =>
    OperatorRow.assembles_cons.keepsLists
      (operand.keepsLists.pair ((keepsListsOperands later operators).before operator)) fun _ => rfl

theorem keepsListsExprs : ∀ operands : List Expr,
    KeepsLists (bodiesOfOperands skipNothing) operands
  | [] => fun _ _ => rfl
  | operand :: later =>
    assembles_cons.keepsLists (operand.keepsLists.pair (keepsListsExprs later)) fun _ => rfl

theorem keepsListsClosure? : ∀ closure : Option Closure,
    KeepsLists (bodiesOfClosure? skipNothing) closure
  | none => fun _ _ => rfl
  | some closure => assembles_some.keepsLists (closure.keepsLists skipNothing) fun _ => rfl

end

/-- The lists of statements in an expression. -/
def Expr.lists (expr : Expr) : List (List Statement) :=
  (expr.bodies skipNothing).map Body.statements

/-- Trivia in front is in no list. -/
theorem Expr.lists_setLeading (expr : Expr) (trivia : Trivia) :
    (Node.setLeading expr trivia).lists = expr.lists :=
  expr.keepsLists _ (.modifyFirst _ _)

theorem Expr.lists_setTrailing (expr : Expr) (trivia : Trivia) :
    (Node.setTrailing expr trivia).lists = expr.lists :=
  expr.keepsLists _ (.modifyLast _ _)

end SuiteMigration
