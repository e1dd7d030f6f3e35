import Mathlib.Tactic.Common
import SuiteMigration.Proofs.Reading.Consumption
import SuiteMigration.Proofs.Reading.Header
import SuiteMigration.Reading.Source

/-!
# Reading goes forward

Whatever the functions of the grammar read, and with however much fuel, they leave a tail of the
tokens that there were, and the end of the stream stays what it was. Nothing is asked of the tokens
or the fuel, unlike for the extent of what is read.

## Main definitions

* `Cursor.Passes` - one cursor is further on in the same stream than another
* `Parser.Forward` - a computation only moves on
* `Parser.AllForward` - the functions of the grammar only move on

## Main results

* `Parser.allForward` - with every amount of fuel the functions of the grammar only move on
-/

namespace SuiteMigration

/-- The second cursor is at the same place of the stream as the first one, or further on. -/
structure Cursor.Passes (cursor next : Cursor) : Prop where
  endOfFile : next.endOfFile = cursor.endOfFile
  suffix : next.pending <:+ cursor.pending

namespace Cursor.Passes

variable {cursor middle next : Cursor}

theorem refl (cursor : Cursor) : cursor.Passes cursor :=
  ⟨rfl, List.suffix_refl _⟩

/-- Passing on in two steps. -/
theorem trans (before : cursor.Passes middle) (after : middle.Passes next) : cursor.Passes next :=
  ⟨after.endOfFile.trans before.endOfFile, after.suffix.trans before.suffix⟩

/-- Reading tokens passes them. -/
theorem of_reads {tokens : List Token} (reads : cursor.Reads tokens next) : cursor.Passes next :=
  ⟨reads.endOfFile, reads.suffix⟩

/-- What comes later is as proper as what came before. -/
theorem proper (passes : cursor.Passes next) (proper : cursor.Proper) : next.Proper := by
  rw [Proper, passes.endOfFile]
  exact proper

end Cursor.Passes

namespace Parser

/-- From wherever the computation starts, it only moves on. -/
def Forward (p : Parser α) : Prop :=
  ∀ cursor answer next, p cursor = some (answer, next) → cursor.Passes next

namespace Forward

variable {p q : Parser α} {f : α → Parser β}

theorem pure (answer : α) : Forward (Pure.pure answer : Parser α) := by
  intro cursor _ _ given
  cases given
  exact .refl cursor

theorem failure : Forward (failure : Parser α) := by
  intro cursor _ _ given
  cases given


/-- Two computations in a row move forward if each of them does. -/
theorem bind (first : Forward p) (later : ∀ answer, Forward (f answer)) : Forward (p >>= f) := by
  intro cursor answer last given
  obtain ⟨value, next, read, rest⟩ := bind_eq_some given
  exact (first cursor value next read).trans (later value next answer last rest)

theorem map {make : α → β} (first : Forward p) : Forward (make <$> p) := by
  rw [← bind_pure_comp]
  exact first.bind fun _ => pure _

/-- Both branches move forward. -/
theorem ite {condition : Prop} [Decidable condition] (holds : Forward p) (fails : Forward q) :
    Forward (if condition then p else q) := by
  split
  · exact holds
  · exact fails

/-- A question moves nothing. -/
theorem ask (question : Cursor → α) : Forward (Parser.ask question) := by
  intro cursor _ _ given
  cases given
  exact .refl cursor

theorem get : Forward (MonadState.get : Parser Cursor) :=
  ask id

/-- A computation that reads its tokens moves forward. -/
theorem of_agree {view : α → List Token}
    (agree : ∀ cursor, Agree p p cursor fun answer next => cursor.Reads (view answer) next) :
    Forward p := by
  intro cursor answer next given
  obtain ⟨_, _, given', -, reads⟩ := agree cursor
  rw [given] at given'
  cases given'
  exact .of_reads reads

theorem bump : Forward Parser.bump :=
  of_agree agree_bump

/-- A run of tokens is passed. -/
theorem run (length : Cursor → Nat) : Forward (Parser.run length) :=
  of_agree (agree_run length)

theorem bumpIf (condition : Cursor → Bool) : Forward (Parser.bumpIf condition) :=
  of_agree (agree_bumpIf condition)

theorem expect (kind : TokenKind) : Forward (Parser.expect kind) :=
  of_agree (agree_expect kind)

theorem expectKeyword (keyword : String) : Forward (Parser.expectKeyword keyword) :=
  of_agree (agree_expectKeyword keyword)

/-- A branch of a computation that goes on in the same way after it. -/
theorem join {condition : Prop} [Decidable condition] (holds : Forward p) (fails : Forward q)
    (later : ∀ answer, Forward (f answer)) :
    Forward (if condition then p >>= f else q >>= f) :=
  ite (holds.bind later) (fails.bind later)

end Forward

/-! ### Parts of the grammar -/

/-- A cast moves past its word and its mark. -/
theorem forward_castOperator : Forward castOperator := by
  refine Forward.bump.bind fun word => .ite ?_ (.pure word)
  refine (Forward.bumpIf _).bind fun mark => ?_
  cases mark <;> exact .pure _

theorem forward_binaryOperator (ternaries : Nat) : Forward (binaryOperator? ternaries) :=
  Forward.get.bind fun _ => .ite (.map .bump) (.ite (.map forward_castOperator) (.pure none))

/-- Stray tokens are passed. -/
theorem forward_absorbStray (value : Expr) (closer : TokenKind) :
    Forward (absorbStray value closer) :=
  (Forward.ask _).bind fun _ => .ite (.pure value) ((Forward.run _).bind fun _ => .pure _)

theorem forward_label : Forward label? :=
  (Forward.ask _).bind fun _ =>
    .ite (Forward.bump.bind fun _ => Forward.bump.bind fun _ => .pure _) (.pure none)

/-- A signature is passed with its `in`. -/
theorem forward_closureSignature : Forward closureSignature? := by
  refine (Forward.ask _).bind fun length => ?_
  cases length with
  | none => exact .pure none
  | some length => exact (Forward.run _).bind fun _ => Forward.bump.bind fun _ => .pure _

variable (attributes : List Attribute) (modifiers : List Modifier)

theorem forward_importDecl : Forward (importDecl attributes modifiers) :=
  Forward.bump.bind fun _ => (Forward.bumpIf _).bind fun _ => (Forward.run _).bind fun _ => .pure _

theorem forward_typeHeader : Forward (typeHeader attributes modifiers) :=
  Forward.bump.bind fun _ => (Forward.expect _).bind fun _ => (Forward.run _).bind fun _ =>
    (Forward.of_agree agree_inheritanceClause).bind fun _ => (Forward.run _).bind fun _ => .pure _

theorem forward_functionHeader : Forward (functionHeader attributes modifiers) :=
  Forward.bump.bind fun _ => (Forward.bumpIf _).bind fun _ => (Forward.run _).bind fun _ =>
    (Forward.of_agree agree_parameterClause).bind fun _ => (Forward.run _).bind fun _ => .pure _

theorem forward_initializerHeader : Forward (initializerHeader attributes modifiers) :=
  Forward.bump.bind fun _ => (Forward.bumpIf _).bind fun _ => (Forward.run _).bind fun _ =>
    (Forward.of_agree agree_parameterClause).bind fun _ => (Forward.run _).bind fun _ => .pure _

theorem forward_rawDecl : Forward (rawDecl attributes modifiers) :=
  (Forward.run _).bind fun _ => .pure _

/-! ### One step of fuel -/

/-- With the given fuel the functions of the grammar only move on. -/
structure AllForward (fuel : Nat) : Prop where
  statements : Forward (.statements fuel)
  statement : Forward (.statement fuel)
  item : Forward (.item fuel)
  codeBlock : Forward (.codeBlock fuel)
  optionalBlock : Forward (.codeBlock? fuel)
  ifStatement : Forward (.ifStatement fuel)
  elseClause : Forward (.elseClause fuel)
  conditions : Forward (.conditions fuel)
  condition : Forward (.condition fuel)
  clause : ∀ position isMark, Forward (.clause? fuel position isMark)
  catches : Forward (.catches fuel)
  switchCases : Forward (.switchCases fuel)
  caseStatements : Forward (.caseStatements fuel)
  decl : Forward (.decl fuel)
  bindings : Forward (.bindings fuel)
  expr : ∀ position, Forward (.expr fuel position)
  terms : ∀ position ternaries, Forward (.terms fuel position ternaries)
  unary : ∀ position, Forward (.unary fuel position)
  primary : ∀ position, Forward (.primary fuel position)
  suffixes : ∀ position base, Forward (.suffixes fuel position base)
  argumentList : ∀ closer, Forward (.argumentList fuel closer)
  arguments : ∀ closer, Forward (.arguments fuel closer)
  collection : Forward (.collection fuel)
  elements : Forward (.elements fuel)
  closure : Forward (.closure fuel)

namespace AllForward

variable {fuel : Nat}

/-! #### Expressions -/

theorem expr_succ (grammar : AllForward fuel) (position : Position) :
    Forward (.expr (fuel + 1) position) := by
  rw [Parser.expr]
  exact (grammar.unary position).bind fun first => .ite (.pure first)
    ((grammar.terms position 0).bind fun _ => .pure _)

theorem terms_succ (grammar : AllForward fuel) (position : Position) (ternaries : Nat) :
    Forward (.terms (fuel + 1) position ternaries) := by
  rw [Parser.terms]
  refine (forward_binaryOperator ternaries).bind fun operator => ?_
  cases operator with
  | none => exact .pure []
  | some operator =>
    exact .join (.map (.run _)) (grammar.unary position) fun _ =>
      (grammar.terms position _).bind fun _ => .pure _

theorem unary_succ (grammar : AllForward fuel) (position : Position) :
    Forward (.unary (fuel + 1) position) := by
  rw [Parser.unary]
  refine Forward.get.bind fun _ => .ite ?_ (.ite ?_ (.ite ?_ (.ite ?_ ?_)))
  · exact Forward.bump.bind fun _ => (Forward.bumpIf _).bind fun _ =>
      (grammar.expr position).bind fun _ => .pure _
  · exact Forward.bump.bind fun _ => (grammar.expr position).bind fun _ => .pure _
  · exact Forward.bump.bind fun _ => (grammar.unary position).bind fun _ => .pure _
  · exact Forward.bump.bind fun _ => (grammar.primary position).bind fun _ =>
      (grammar.suffixes position _).bind fun _ => .pure _
  · exact (grammar.primary position).bind fun _ => .ite (.pure _) (grammar.suffixes position _)

theorem primary_succ (grammar : AllForward fuel) (position : Position) :
    Forward (.primary (fuel + 1) position) := by
  rw [Parser.primary]
  refine (Forward.ask _).bind fun token => ?_
  split
  · exact .ite (.map .bump) (.ite (.pure _) (.map .bump))
  · exact .map .bump
  iterate 2 exact .map .bump
  · exact .map (grammar.argumentList _)
  · exact grammar.collection
  · exact .ite (.map grammar.closure) (.pure _)
  · exact Forward.bump.bind fun _ => (Forward.bumpIf _).bind fun _ => .pure _
  · exact .pure _

theorem suffixes_succ (grammar : AllForward fuel) (position : Position) (base : Expr) :
    Forward (.suffixes (fuel + 1) position base) := by
  have next := grammar.suffixes position
  rw [Parser.suffixes]
  refine Forward.get.bind fun cursor => .ite ?_ (.ite ?_ (.ite ?_ (.ite ?_ (.ite ?_ ?_))))
  · exact Forward.bump.bind fun _ => Forward.bump.bind fun _ => next _
  · exact (grammar.argumentList _).bind fun _ => next _
  · exact (grammar.argumentList _).bind fun _ => next _
  · exact grammar.closure.bind fun _ => next _
  · exact Forward.bump.bind fun _ => next _
  · split
    · exact (Forward.run _).bind fun _ => next _
    · exact .pure base

theorem argumentList_succ (grammar : AllForward fuel) (closer : TokenKind) :
    Forward (.argumentList (fuel + 1) closer) := by
  rw [Parser.argumentList]
  exact Forward.bump.bind fun _ => (grammar.arguments closer).bind fun _ =>
    (Forward.expect closer).bind fun _ => .pure _

theorem arguments_succ (grammar : AllForward fuel) (closer : TokenKind) :
    Forward (.arguments (fuel + 1) closer) := by
  rw [Parser.arguments]
  refine (Forward.ask _).bind fun _ => .ite (.pure []) ?_
  exact forward_label.bind fun _ => (grammar.expr .free).bind fun _ =>
    (forward_absorbStray _ closer).bind fun _ => (Forward.bumpIf _).bind fun _ =>
    .ite (.pure []) (.join (grammar.arguments closer) (.pure []) fun _ => .pure _)

theorem collection_succ (grammar : AllForward fuel) : Forward (.collection (fuel + 1)) := by
  rw [Parser.collection]
  exact Forward.bump.bind fun _ => (Forward.ask _).bind fun _ => .ite
    (Forward.bump.bind fun _ => Forward.bump.bind fun _ => .pure _)
    (grammar.elements.bind fun _ => (Forward.expect _).bind fun _ => .pure _)

theorem elements_succ (grammar : AllForward fuel) : Forward (.elements (fuel + 1)) := by
  rw [Parser.elements]
  refine (Forward.ask _).bind fun _ => .ite (.pure []) ((grammar.expr .free).bind fun first =>
    (Forward.bumpIf _).bind fun colon => ?_)
  cases colon with
  | some colon =>
    exact (grammar.expr .free).bind fun _ => (forward_absorbStray _ _).bind fun _ =>
      (Forward.bumpIf _).bind fun _ => .join grammar.elements (.pure []) fun _ => .pure _
  | none =>
    exact (forward_absorbStray first _).bind fun _ => (Forward.bumpIf _).bind fun _ =>
      .ite (.pure []) (.join grammar.elements (.pure []) fun _ => .pure _)

theorem closure_succ (grammar : AllForward fuel) : Forward (.closure (fuel + 1)) := by
  rw [Parser.closure]
  exact Forward.bump.bind fun _ => forward_closureSignature.bind fun _ =>
    grammar.statements.bind fun _ => (Forward.expect _).bind fun _ => .pure _

/-! #### Statements and declarations -/

theorem statements_succ (grammar : AllForward fuel) : Forward (.statements (fuel + 1)) := by
  rw [Parser.statements]
  exact (Forward.ask _).bind fun _ => .ite (.pure [])
    (grammar.statement.bind fun _ => grammar.statements.bind fun _ => .pure _)

theorem statement_succ (grammar : AllForward fuel) : Forward (.statement (fuel + 1)) := by
  rw [Parser.statement]
  exact (Forward.ask _).bind fun _ => grammar.item.bind fun _ => (Forward.ask _).bind fun _ =>
    .join (.map .bump) (.pure _) fun _ => (Forward.bumpIf _).bind fun _ => .pure _

theorem codeBlock_succ (grammar : AllForward fuel) : Forward (.codeBlock (fuel + 1)) := by
  rw [Parser.codeBlock]
  refine (Forward.bumpIf _).bind fun brace => ?_
  cases brace with
  | none => exact .pure _
  | some brace => exact grammar.statements.bind fun _ => (Forward.expect _).bind fun _ => .pure _

theorem optionalBlock_succ (grammar : AllForward fuel) : Forward (.codeBlock? (fuel + 1)) := by
  rw [Parser.codeBlock?]
  exact (Forward.ask _).bind fun _ => .ite (.map grammar.codeBlock) (.pure none)

theorem ifStatement_succ (grammar : AllForward fuel) : Forward (.ifStatement (fuel + 1)) := by
  rw [Parser.ifStatement]
  exact Forward.bump.bind fun _ => grammar.conditions.bind fun _ => grammar.codeBlock.bind fun _ =>
    grammar.elseClause.bind fun _ => .pure _

theorem elseClause_succ (grammar : AllForward fuel) : Forward (.elseClause (fuel + 1)) := by
  rw [Parser.elseClause]
  refine (Forward.bumpIf _).bind fun keyword => ?_
  cases keyword with
  | none => exact .pure _
  | some keyword =>
    exact (Forward.ask _).bind fun _ => .ite (.map grammar.ifStatement) (.map grammar.codeBlock)

theorem conditions_succ (grammar : AllForward fuel) : Forward (.conditions (fuel + 1)) := by
  rw [Parser.conditions]
  exact grammar.condition.bind fun _ => (Forward.bumpIf _).bind fun _ =>
    .join grammar.conditions (.pure []) fun _ => .pure _

theorem condition_succ (grammar : AllForward fuel) : Forward (.condition (fuel + 1)) := by
  rw [Parser.condition]
  refine (Forward.ask _).bind fun _ => .ite ?_ ((grammar.expr .head).bind fun _ => .pure _)
  exact Forward.bump.bind fun _ => (Forward.of_agree agree_pattern).bind fun _ =>
    (Forward.of_agree agree_annotatedType).bind fun _ =>
    (grammar.clause .head _).bind fun _ => .pure _

theorem clause_succ (grammar : AllForward fuel) (position : Position) (isMark : Cursor → Bool) :
    Forward (.clause? (fuel + 1) position isMark) := by
  rw [Parser.clause?]
  refine (Forward.bumpIf _).bind fun mark => ?_
  cases mark with
  | none => exact .pure none
  | some mark => exact (grammar.expr position).bind fun _ => .pure _

theorem catches_succ (grammar : AllForward fuel) : Forward (.catches (fuel + 1)) := by
  rw [Parser.catches]
  refine (Forward.bumpIf _).bind fun keyword => ?_
  cases keyword with
  | none => exact .pure []
  | some keyword =>
    exact (Forward.run _).bind fun _ => grammar.codeBlock.bind fun _ =>
      grammar.catches.bind fun _ => .pure _

theorem switchCases_succ (grammar : AllForward fuel) : Forward (.switchCases (fuel + 1)) := by
  rw [Parser.switchCases]
  exact (Forward.ask _).bind fun _ => .ite (.pure []) ((Forward.run _).bind fun _ =>
    grammar.caseStatements.bind fun _ => grammar.switchCases.bind fun _ => .pure _)

theorem caseStatements_succ (grammar : AllForward fuel) :
    Forward (.caseStatements (fuel + 1)) := by
  rw [Parser.caseStatements]
  exact (Forward.ask _).bind fun _ => .ite (.pure [])
    (grammar.statement.bind fun _ => grammar.caseStatements.bind fun _ => .pure _)

theorem bindings_succ (grammar : AllForward fuel) : Forward (.bindings (fuel + 1)) := by
  rw [Parser.bindings]
  exact (Forward.of_agree agree_pattern).bind fun _ =>
    (Forward.of_agree agree_annotatedType).bind fun _ => (grammar.clause .free _).bind fun _ =>
    grammar.optionalBlock.bind fun _ => (Forward.bumpIf _).bind fun _ =>
    .join grammar.bindings (.pure []) fun _ => .pure _

theorem decl_succ (grammar : AllForward fuel) : Forward (.decl (fuel + 1)) := by
  rw [Parser.decl]
  refine (Forward.of_agree agree_attributes).bind fun _ =>
    (Forward.of_agree agree_modifiers).bind fun _ => (Forward.ask _).bind fun _ =>
    .ite ?_ (.ite ?_ (.ite ?_ (.ite ?_ (.ite ?_ (.ite ?_ ?_)))))
  · exact .map (forward_importDecl _ _)
  · exact (forward_typeHeader _ _).bind fun _ =>
      grammar.codeBlock.bind fun _ => .pure _
  · exact (forward_functionHeader _ _).bind fun _ =>
      grammar.optionalBlock.bind fun _ => .pure _
  · exact Forward.bump.bind fun _ => grammar.bindings.bind fun _ => .pure _
  · exact (forward_initializerHeader _ _).bind fun _ =>
      grammar.optionalBlock.bind fun _ => .pure _
  · exact Forward.bump.bind fun _ => grammar.optionalBlock.bind fun _ => .pure _
  · exact .map (forward_rawDecl _ _)

theorem item_succ (grammar : AllForward fuel) : Forward (.item (fuel + 1)) := by
  have expression : Forward (Item.expr <$> Parser.expr fuel .free) := .map (grammar.expr .free)
  rw [Parser.item]
  refine Forward.get.bind fun cursor => .ite (.map (.run _)) (.ite (.map (.run _))
    (.ite (.map grammar.decl) (.ite ?_ expression)))
  -- One case for each keyword, in the order in which the reader tries them.
  generalize cursor.peek.text = word
  split
  · exact .map grammar.ifStatement
  · exact Forward.bump.bind fun _ => grammar.conditions.bind fun _ =>
      (Forward.expectKeyword _).bind fun _ => grammar.codeBlock.bind fun _ => .pure _
  · exact Forward.bump.bind fun _ => (Forward.run _).bind fun _ =>
      (Forward.of_agree agree_pattern).bind fun _ =>
      (Forward.of_agree agree_annotatedType).bind fun _ =>
      (Forward.expectKeyword _).bind fun _ => (grammar.expr .head).bind fun _ =>
      (grammar.clause .head _).bind fun _ => grammar.codeBlock.bind fun _ => .pure _
  · exact Forward.bump.bind fun _ => grammar.conditions.bind fun _ =>
      grammar.codeBlock.bind fun _ => .pure _
  · exact Forward.bump.bind fun _ => grammar.codeBlock.bind fun _ =>
      (Forward.expectKeyword _).bind fun _ =>
      .join (.pure _) (grammar.expr .head) fun _ => .pure _
  · exact Forward.bump.bind fun _ => (Forward.bumpIf _).bind fun _ => (Forward.run _).bind fun _ =>
      grammar.codeBlock.bind fun _ => grammar.catches.bind fun _ => .pure _
  · refine Forward.bump.bind fun _ => (grammar.expr .head).bind fun _ =>
      (Forward.bumpIf _).bind fun brace => ?_
    cases brace with
    | none => exact .pure _
    | some brace =>
      exact grammar.switchCases.bind fun _ => (Forward.expect _).bind fun _ => .pure _
  · exact Forward.bump.bind fun _ => grammar.codeBlock.bind fun _ => .pure _
  · exact Forward.bump.bind fun _ => (Forward.ask _).bind fun _ => .ite (.pure _)
      ((grammar.expr .free).bind fun _ => .pure _)
  · exact Forward.bump.bind fun _ => (grammar.expr .free).bind fun _ => .pure _
  iterate 2 exact Forward.bump.bind fun _ => (Forward.bumpIf _).bind fun _ => .pure _
  · exact .map (.run _)
  · exact expression

/-- Without fuel nothing is read. -/
theorem zero : AllForward 0 := by
  constructor
  all_goals intros
  all_goals exact .failure

/-- One more unit of fuel moves no function of the grammar backward. -/
theorem succ (grammar : AllForward fuel) : AllForward (fuel + 1) where
  statements := grammar.statements_succ
  statement := grammar.statement_succ
  item := grammar.item_succ
  codeBlock := grammar.codeBlock_succ
  optionalBlock := grammar.optionalBlock_succ
  ifStatement := grammar.ifStatement_succ
  elseClause := grammar.elseClause_succ
  conditions := grammar.conditions_succ
  condition := grammar.condition_succ
  clause := grammar.clause_succ
  catches := grammar.catches_succ
  switchCases := grammar.switchCases_succ
  caseStatements := grammar.caseStatements_succ
  decl := grammar.decl_succ
  bindings := grammar.bindings_succ
  expr := grammar.expr_succ
  terms := grammar.terms_succ
  unary := grammar.unary_succ
  primary := grammar.primary_succ
  suffixes := grammar.suffixes_succ
  argumentList := grammar.argumentList_succ
  arguments := grammar.arguments_succ
  collection := grammar.collection_succ
  elements := grammar.elements_succ
  closure := grammar.closure_succ

end AllForward

/-- With every amount of fuel the functions of the grammar only move on. -/
theorem allForward (fuel : Nat) : AllForward fuel := by
  induction fuel with
  | zero => exact .zero
  | succ fuel grammar => exact grammar.succ

/-- The statements of a file are read forward. -/
theorem forward_fileStatements (fuel : Nat) : Forward (fileStatements fuel) := by
  induction fuel with
  | zero => exact .failure
  | succ fuel ih =>
    rw [fileStatements]
    refine (Forward.ask _).bind fun _ => .ite (.pure []) ((Forward.ask _).bind fun _ => ?_)
    exact .join (.map .bump) (allForward fuel).statement fun _ => ih.bind fun _ => .pure _

end Parser

end SuiteMigration
