import Mathlib.Tactic.Common
import SuiteMigration.Proofs.Reading.Mirrors

/-!
# The grammar in two places

Inside the delimiters of an argument the functions of the grammar do in both streams the same: with
the same fuel they take as many tokens and give answers of the same shape.

## Main definitions

* `Expr.Like` - expressions of the same shape, as far as the grammar asks for it
* `Parser.AllMirrors` - the functions of the grammar are mirrored

## Main results

* `Parser.allMirrors` - with every amount of fuel the functions of the grammar are mirrored
-/

namespace SuiteMigration

variable {passage : Passage} {cursor cursor' next : Cursor}

/-! ### Shapes of expressions -/

/-- The grammar treats the expressions alike. -/
structure Expr.Like (expr expr' : Expr) : Prop where
  isEmpty : expr.isEmpty = expr'.isEmpty
  tokens : expr.tokens = [] ↔ expr'.tokens = []
  acceptsClosure : expr.acceptsClosure = expr'.acceptsClosure

namespace Expr.Like

variable {base base' : Expr}

theorem refl (expr : Expr) : expr.Like expr :=
  ⟨rfl, .rfl, rfl⟩

/-- Expressions that hold tokens are alike if closures can follow both or neither. -/
theorem of_nonempty {expr expr' : Expr} (some : expr.isEmpty = false) (some' : expr'.isEmpty = false)
    (tokens : expr.tokens ≠ []) (tokens' : expr'.tokens ≠ [])
    (accepts : expr.acceptsClosure = expr'.acceptsClosure) : expr.Like expr' :=
  ⟨some.trans some'.symm, iff_of_false tokens tokens', accepts⟩

/-- Runs of tokens are alike if both are empty or neither. -/
theorem raw {tokens tokens' : List Token} (same : tokens = [] ↔ tokens' = []) :
    (Expr.raw tokens).Like (.raw tokens') := by
  refine ⟨?_, by simpa [Expr.tokens] using same, rfl⟩
  cases tokens <;> cases tokens' <;> first | rfl | simp at same

/-- Like names are like expressions, because both are reserved or neither is. -/
theorem identifier {token token' : Token} (like : token.Like token') :
    (Expr.identifier token).Like (.identifier token') := by
  refine of_nonempty rfl rfl (by simp [Expr.tokens]) (by simp [Expr.tokens]) ?_
  rw [Expr.acceptsClosure, Expr.acceptsClosure, like.isReserved]

theorem literal (token token' : Token) : (Expr.literal token).Like (.literal token') :=
  of_nonempty rfl rfl (by simp [Expr.tokens]) (by simp [Expr.tokens]) rfl

theorem member (base base' : Option Expr) (period period' name name' : Token) :
    (Expr.member base period name).Like (.member base' period' name') :=
  of_nonempty rfl rfl (by simp [Expr.tokens]) (by simp [Expr.tokens]) rfl

theorem call (base base' : Expr) (arguments arguments' : ArgumentList) :
    (Expr.call base (.ofList arguments) none).Like (.call base' (.ofList arguments') none) :=
  of_nonempty rfl rfl (by simp [Expr.tokens, arguments.tokens_ne_nil])
    (by simp [Expr.tokens, arguments'.tokens_ne_nil]) rfl

theorem index (base base' : Expr) (arguments arguments' : ArgumentList) :
    (Expr.index base arguments).Like (.index base' arguments') :=
  of_nonempty rfl rfl (by simp [Expr.tokens, arguments.tokens_ne_nil])
    (by simp [Expr.tokens, arguments'.tokens_ne_nil]) rfl

theorem tuple (elements elements' : ArgumentList) :
    (Expr.tuple elements).Like (.tuple elements') :=
  of_nonempty rfl rfl elements.tokens_ne_nil elements'.tokens_ne_nil rfl

theorem collection (left left' : Token) (elements elements' : List CollectionElement)
    (right right' : Token) :
    (Expr.collection left elements right).Like (.collection left' elements' right') :=
  of_nonempty rfl rfl (by simp [Expr.tokens]) (by simp [Expr.tokens]) rfl

theorem closure (closure closure' : Closure) : (Expr.closure closure).Like (.closure closure') :=
  of_nonempty rfl rfl closure.tokens_ne_nil closure'.tokens_ne_nil rfl

theorem prefixed (operator operator' : Token) (operand operand' : Expr) :
    (Expr.prefixed operator operand).Like (.prefixed operator' operand') :=
  of_nonempty rfl rfl (by simp [Expr.tokens]) (by simp [Expr.tokens]) rfl

theorem suffixed (operand operand' : Expr) (operator operator' : Token) :
    (Expr.suffixed operand operator).Like (.suffixed operand' operator') :=
  of_nonempty rfl rfl (by simp [Expr.tokens]) (by simp [Expr.tokens]) rfl

theorem trying (keyword keyword' : Token) (mark mark' : Option Token) (operand operand' : Expr) :
    (Expr.trying keyword mark operand).Like (.trying keyword' mark' operand') :=
  of_nonempty rfl rfl (by simp [Expr.tokens]) (by simp [Expr.tokens]) rfl

theorem awaiting (keyword keyword' : Token) (operand operand' : Expr) :
    (Expr.awaiting keyword operand).Like (.awaiting keyword' operand') :=
  of_nonempty rfl rfl (by simp [Expr.tokens]) (by simp [Expr.tokens]) rfl

/-- Generic arguments are there in both or in neither. -/
theorem specialized (like : base.Like base') {arguments arguments' : List Token}
    (same : arguments = [] ↔ arguments' = []) :
    (Expr.specialized base arguments).Like (.specialized base' arguments') :=
  ⟨rfl, by simp [Expr.tokens, like.tokens, same], rfl⟩

/-- Like operands stay alike with operators behind both or neither. -/
theorem ofTerms (like : base.Like base') (rest rest' : List OperatorTerm)
    (same : rest.isEmpty = rest'.isEmpty) :
    (Expr.ofTerms base rest).Like (.ofTerms base' rest') := by
  cases rest <;> cases rest' <;> try cases same
  · exact like
  · exact of_nonempty rfl rfl (by simp [tokensOfTerms]) (by simp [tokensOfTerms]) rfl

/-- Like callees stay alike with a closure behind them. -/
theorem withClosure (like : base.Like base') (accepts : base.acceptsClosure = true)
    (closure closure' : Closure) : (base.withClosure closure).Like (base'.withClosure closure') := by
  have shape {base : Expr} (closure : Closure) : (base.withClosure closure).isEmpty = false ∧
      (base.withClosure closure).acceptsClosure = false := by
    cases base <;> exact ⟨rfl, rfl⟩
  have tokens {base : Expr} (accepts : base.acceptsClosure = true) (closure : Closure) :
      (base.withClosure closure).tokens ≠ [] := by
    rw [Expr.tokens_withClosure accepts]
    simp [closure.tokens_ne_nil]
  exact of_nonempty (shape closure).1 (shape closure').1 (tokens accepts closure)
    (tokens (like.acceptsClosure ▸ accepts) closure') ((shape closure).2.trans (shape closure').2.symm)

end Expr.Like

/-! ### One step of fuel -/

namespace Parser

/-- With the given fuel the functions of the grammar are mirrored. -/
structure AllMirrors (passage : Passage) (fuel : Nat) : Prop where
  statements : Mirrors passage (.statements fuel) (.statements fuel) Any
  statement : Mirrors passage (.statement fuel) (.statement fuel) Any
  item : Mirrors passage (.item fuel) (.item fuel) Any
  codeBlock : Mirrors passage (.codeBlock fuel) (.codeBlock fuel) Any
  optionalBlock : Mirrors passage (.codeBlock? fuel) (.codeBlock? fuel) Any
  ifStatement : Mirrors passage (.ifStatement fuel) (.ifStatement fuel) Any
  elseClause : Mirrors passage (.elseClause fuel) (.elseClause fuel) Any
  conditions : Mirrors passage (.conditions fuel) (.conditions fuel) Any
  condition : Mirrors passage (.condition fuel) (.condition fuel) Any
  clause : ∀ position isMark, passage.Agrees isMark →
    Mirrors passage (.clause? fuel position isMark) (.clause? fuel position isMark) Any
  catches : Mirrors passage (.catches fuel) (.catches fuel) Any
  switchCases : Mirrors passage (.switchCases fuel) (.switchCases fuel) Any
  caseStatements : Mirrors passage (.caseStatements fuel) (.caseStatements fuel) Any
  decl : Mirrors passage (.decl fuel) (.decl fuel) Any
  bindings : Mirrors passage (.bindings fuel) (.bindings fuel) Any
  expr : ∀ position, Mirrors passage (.expr fuel position) (.expr fuel position) Expr.Like
  terms : ∀ position ternaries, Mirrors passage (.terms fuel position ternaries)
    (.terms fuel position ternaries) fun terms terms' => terms.isEmpty = terms'.isEmpty
  unary : ∀ position, Mirrors passage (.unary fuel position) (.unary fuel position) Expr.Like
  primary : ∀ position, Mirrors passage (.primary fuel position) (.primary fuel position) Expr.Like
  suffixes : ∀ position base base', base.Like base' →
    Mirrors passage (.suffixes fuel position base) (.suffixes fuel position base') Expr.Like
  argumentList : ∀ closer,
    Mirrors passage (.argumentList fuel closer) (.argumentList fuel closer) Any
  arguments : ∀ closer, Mirrors passage (.arguments fuel closer) (.arguments fuel closer) Any
  collection : Mirrors passage (.collection fuel) (.collection fuel) Expr.Like
  elements : Mirrors passage (.elements fuel) (.elements fuel) Any
  closure : ∀ {cursor cursor'}, Abreast passage cursor cursor' → passage.Braced cursor →
    cursor.isAt .leftBrace = true →
    MirrorsAt passage cursor cursor' (.closure fuel) (.closure fuel) Any

/-- What is left of an argument is read in both streams. -/
theorem mirrors_absorbStray {value value' : Expr} (like : value.Like value') (closer : TokenKind) :
    Mirrors passage (absorbStray value closer) (absorbStray value' closer) Expr.Like :=
  .branch (Passage.agrees_atArgumentEnd closer) (.pure like)
    ((Mirrors.run measures_strayRun).bind (fun _ => .rfl) fun stray stray' same => .pure (.raw (by
      rw [List.append_eq_nil_iff, List.append_eq_nil_iff, like.tokens, show stray = [] ↔ _ from same])))

namespace AllMirrors

variable {fuel : Nat} (ends : passage.Ends) (grammar : AllMirrors passage fuel)

include grammar

/-! #### Expressions -/

theorem expr_succ (position : Position) :
    Mirrors passage (.expr (fuel + 1) position) (.expr (fuel + 1) position) Expr.Like := by
  rw [Parser.expr]
  refine (grammar.unary position).bind .refl fun first first' like => ?_
  rw [← like.isEmpty]
  refine .ite (.pure like) ((grammar.terms position 0).bind (fun _ => rfl) fun rest rest' same => ?_)
  exact .pure (like.ofTerms rest rest' same)

include ends in
theorem terms_succ (position : Position) (ternaries : Nat) :
    Mirrors passage (.terms (fuel + 1) position ternaries) (.terms (fuel + 1) position ternaries)
      fun terms terms' => terms.isEmpty = terms'.isEmpty := by
  rw [Parser.terms]
  refine (mirrors_binaryOperator ends ternaries).bind .refl fun operator operator' alike => ?_
  cases alike with
  | none => exact .pure rfl
  | @some operator operator' like =>
    have cast : isCast operator = isCast operator' := by
      rw [isCast, isCast, like.kind, like.text]
    have after : ternariesAfter ternaries operator = ternariesAfter ternaries operator' := by
      rw [ternariesAfter, ternariesAfter, like.isOperator, like.kind]
    have castRun : passage.Measures Cursor.castRun := fun _ _ abreast within =>
      abreast.castRun_eq ends (Nat.le_of_lt within)
    simp only [← after]
    exact .join cast (Mirrors.run castRun).mapAny (grammar.unary position).any fun _ _ =>
      (grammar.terms position _).after fun _ _ => .pure rfl

include ends in
theorem unary_succ (position : Position) :
    Mirrors passage (.unary (fuel + 1) position) (.unary (fuel + 1) position) Expr.Like := by
  refine ⟨(allForward (fuel + 1)).unary position, fun {cursor cursor'} abreast braced => ?_⟩
  have level := Level.later abreast
  rw [Parser.unary]
  refine MirrorsAt.ite (level.atKeyword_eq ends "try") (fun _ => ?_) fun _ =>
    .ite (level.atKeyword_eq ends "await") (fun _ => ?_) fun _ =>
    .ite (ends.agrees_atOperator .before _ _ abreast braced) (fun _ => ?_) fun _ =>
    .ite (level.isAt_eq ends _ (by decide)) (fun _ => ?_) fun _ => ?_
  · exact (Mirrors.bump.after fun _ _ => mirrors_optionalMark.after fun _ _ =>
      (grammar.expr position).after fun _ _ => .pure (.trying ..)).mirrorsAt abreast braced
  · exact (Mirrors.bump.after fun _ _ => (grammar.expr position).after fun _ _ =>
      .pure (.awaiting ..)).mirrorsAt abreast braced
  · exact (Mirrors.bump.after fun _ _ => (grammar.unary position).after fun _ _ =>
      .pure (.prefixed ..)).mirrorsAt abreast braced
  · exact (Mirrors.bump.after fun _ _ => (grammar.primary position).bind .refl fun root root' like =>
      (grammar.suffixes position root root' like).after fun _ _ =>
      .pure (.prefixed ..)).mirrorsAt abreast braced
  · refine ((grammar.primary position).bind .refl fun root root' like => ?_).mirrorsAt abreast braced
    rw [← like.isEmpty]
    exact .ite (.pure like) (grammar.suffixes position root root' like)

theorem primary_succ (position : Position) :
    Mirrors passage (.primary (fuel + 1) position) (.primary (fuel + 1) position) Expr.Like := by
  refine ⟨(allForward (fuel + 1)).primary position, fun {cursor cursor'} abreast braced => ?_⟩
  have like := abreast.peek_like braced.inside
  rw [Parser.primary]
  refine .asked _ _ ?_
  simp only [← like.kind, ← like.text, ← like.isReserved]
  split
  · refine .ite rfl (fun _ => ?_) fun _ => .ite rfl (fun _ => ?_) fun _ => ?_
    · exact (Mirrors.bump.map .refl fun _ _ _ => .literal ..).mirrorsAt abreast braced
    · exact (Mirrors.pure (.refl _)).mirrorsAt abreast braced
    · exact (Mirrors.bump.map .refl fun _ _ like => .identifier like).mirrorsAt abreast braced
  · exact (Mirrors.bump.map .refl fun _ _ like => .identifier like).mirrorsAt abreast braced
  iterate 2 exact (Mirrors.bump.map .refl fun _ _ _ => .literal ..).mirrorsAt abreast braced
  · exact ((grammar.argumentList _).map (fun _ => trivial) fun _ _ _ => .tuple ..).mirrorsAt abreast
      braced
  · exact grammar.collection.mirrorsAt abreast braced
  · next brace =>
    split
    · have isBrace : cursor.isAt .leftBrace = true := by rw [Cursor.isAt, brace, beq_self_eq_true]
      rw [← bind_pure_comp]
      exact (grammar.closure abreast braced isBrace).after fun _ _ => .pure (.closure ..)
    · exact (Mirrors.pure (.refl _)).mirrorsAt abreast braced
  · exact (Mirrors.bump.after fun _ _ =>
      (Mirrors.bumpIf (.or (Passage.agrees_isAt _) (Passage.agrees_isAt _))).after fun _ _ =>
      .pure (.member ..)).mirrorsAt abreast braced
  · exact (Mirrors.pure (.refl _)).mirrorsAt abreast braced

include ends in
theorem suffixes_succ (position : Position) (base base' : Expr) (like : base.Like base') :
    Mirrors passage (.suffixes (fuel + 1) position base) (.suffixes (fuel + 1) position base')
      Expr.Like := by
  refine ⟨(allForward (fuel + 1)).suffixes position base, fun {cursor cursor'} abreast braced => ?_⟩
  have level := Level.later abreast
  have line := abreast.atNewLine_eq braced.inside
  have next := grammar.suffixes position
  rw [Parser.suffixes, Parser.suffixes]
  refine MirrorsAt.ite (Passage.agrees_atMember _ _ abreast braced) (fun _ => ?_) fun _ =>
    .ite (by rw [level.isAt_eq ends _ (by decide), line]) (fun _ => ?_) fun _ =>
    .ite (by rw [level.isAt_eq ends _ (by decide), line]) (fun _ => ?_) fun _ =>
    .ite (by rw [level.isAt_eq ends _ (by decide), line, like.acceptsClosure]) (fun brace => ?_)
      fun _ =>
    .ite (ends.agrees_atOperator .after _ _ abreast braced) (fun _ => ?_) fun _ => ?_
  · exact (Mirrors.bump.after fun _ _ => Mirrors.bump.after fun _ _ =>
      next _ _ (.member ..)).mirrorsAt abreast braced
  · exact ((grammar.argumentList _).after fun _ _ => next _ _ (.call ..)).mirrorsAt abreast braced
  · exact ((grammar.argumentList _).after fun _ _ => next _ _ (.index ..)).mirrorsAt abreast braced
  · simp only [Bool.and_eq_true, decide_eq_true_eq] at brace
    exact (grammar.closure abreast braced brace.1.1.1).after fun _ _ =>
      next _ _ (like.withClosure brace.2 ..)
  · exact (Mirrors.bump.after fun _ _ => next _ _ (.suffixed ..)).mirrorsAt abreast braced
  · -- The generic list must end on the way, which is known from where the whole reading ends.
    intro answer last given ahead
    have found := abreast.genericArguments?_eq ends fun length found => by
      rw [found] at given
      have passes : (cursor.skip length).Passes last :=
        (allForward fuel).suffixes position _ _ _ _ given
      have inside := (ahead.back passes).inside
      rw [Passage.Inside, Cursor.left_skip] at inside
      omega
    rw [found]
    cases generics : cursor.genericArguments? with
    | none =>
      rw [generics] at given
      exact (Mirrors.pure like).mirrorsAt abreast braced _ _ given ahead
    | some length =>
      rw [generics] at given
      exact ((Mirrors.runFixed length).bind (fun _ => .rfl)
        fun _ _ same => next _ _ (like.specialized same)).mirrorsAt abreast braced _ _ given ahead

theorem argumentList_succ (closer : TokenKind) :
    Mirrors passage (.argumentList (fuel + 1) closer) (.argumentList (fuel + 1) closer) Any := by
  rw [Parser.argumentList]
  exact Mirrors.bump.after fun _ _ => (grammar.arguments closer).after fun _ _ =>
    (Mirrors.expect closer).after fun _ _ => .pure trivial

theorem arguments_succ (closer : TokenKind) :
    Mirrors passage (.arguments (fuel + 1) closer) (.arguments (fuel + 1) closer) Any := by
  rw [Parser.arguments]
  refine .branch (.or Passage.agrees_atEnd (Passage.agrees_isAt _)) (.pure trivial) ?_
  refine mirrors_label.bind (fun _ => rfl) fun label label' sameLabel =>
    (grammar.expr .free).bind .refl fun read read' likeRead =>
    (mirrors_absorbStray likeRead closer).bind .refl fun value value' like =>
    (Mirrors.bumpIf (Passage.agrees_isAt _)).bind .refl fun comma comma' alike => ?_
  have isNone : comma.isNone = comma'.isNone := by cases alike <;> rfl
  rw [← sameLabel, ← like.isEmpty, ← isNone]
  exact .ite (.pure trivial) (.join alike.isSome (grammar.arguments closer) (.pure trivial)
    fun _ _ => .pure trivial)

theorem collection_succ :
    Mirrors passage (.collection (fuel + 1)) (.collection (fuel + 1)) Expr.Like := by
  rw [Parser.collection]
  refine Mirrors.bump.after fun _ _ => .branch ?_ ?_ ?_
  · exact Passage.agrees_second (fun token => token.kind == .colon)
      (fun _ next => next.kind == .rightBracket)
      (fun _ same => Passage.isClosing_of_kind same rfl) (fun _ _ like => by rw [like.kind])
      fun _ _ _ _ like _ => by rw [like.kind]
  · exact Mirrors.bump.after fun _ _ => Mirrors.bump.after fun _ _ => .pure (.raw (by simp))
  · exact grammar.elements.after fun _ _ => (Mirrors.expect _).after fun _ _ =>
      .pure (.collection ..)

theorem elements_succ : Mirrors passage (.elements (fuel + 1)) (.elements (fuel + 1)) Any := by
  rw [Parser.elements]
  refine .branch (.or Passage.agrees_atEnd (Passage.agrees_isAt _)) (.pure trivial)
    ((grammar.expr .free).bind .refl fun first first' likeFirst =>
    (Mirrors.bumpIf (Passage.agrees_isAt _)).bind .refl fun colon colon' colons => ?_)
  cases colons with
  | some _ =>
    exact (grammar.expr .free).bind .refl fun _ _ like =>
      (mirrors_absorbStray like _).after fun _ _ =>
      (Mirrors.bumpIf (Passage.agrees_isAt _)).bind .refl fun comma comma' alike =>
      .join alike.isSome grammar.elements (.pure trivial) fun _ _ => .pure trivial
  | none =>
    refine (mirrors_absorbStray likeFirst _).bind .refl fun value value' like =>
      (Mirrors.bumpIf (Passage.agrees_isAt _)).bind .refl fun comma comma' alike => ?_
    have isNone : comma.isNone = comma'.isNone := by cases alike <;> rfl
    rw [← like.isEmpty, ← isNone]
    exact .ite (.pure trivial) (.join alike.isSome grammar.elements (.pure trivial) fun _ _ =>
      .pure trivial)

include ends in
theorem closure_succ (abreast : Abreast passage cursor cursor') (braced : passage.Braced cursor)
    (brace : cursor.isAt .leftBrace = true) :
    MirrorsAt passage cursor cursor' (.closure (fuel + 1)) (.closure (fuel + 1)) Any := by
  obtain ⟨token, later, token', later', -, pending, -⟩ := abreast.inside braced.inside
  have opening : token.kind.isOpening = true := by
    rw [Cursor.isAt, Cursor.peek, pending, List.headD_cons, beq_iff_eq] at brace
    rw [brace]
    rfl
  have next := (abreast.bump braced.inside).2
  have within : passage.Within cursor.bump.2 cursor'.bump.2 :=
    ⟨next, ends.encloses next (by rw [Cursor.bump_of_pending pending]) opening⟩
  rw [Parser.closure]
  exact .bumped ((mirrorsAt_closureSignature ends within).after fun _ _ =>
    grammar.statements.after fun _ _ => (Mirrors.expect _).after fun _ _ => .pure trivial)

/-! #### Statements and declarations -/

theorem statements_succ :
    Mirrors passage (.statements (fuel + 1)) (.statements (fuel + 1)) Any := by
  rw [Parser.statements]
  exact .branch (.or Passage.agrees_atEnd (Passage.agrees_isAt _)) (.pure trivial)
    (grammar.statement.after fun _ _ => grammar.statements.after fun _ _ => .pure trivial)

theorem statement_succ : Mirrors passage (.statement (fuel + 1)) (.statement (fuel + 1)) Any := by
  refine ⟨(allForward (fuel + 1)).statement, fun {cursor cursor'} abreast braced => ?_⟩
  rw [Parser.statement]
  refine .asked _ _ ((grammar.item.mirrorsAt abreast braced).after fun item item' => ⟨?_, ?_⟩)
  · exact (Forward.ask _).bind fun _ => .join (.map .bump) (.pure _) fun _ =>
      (Forward.bumpIf _).bind fun _ => .pure _
  intro last last' abreast' braced'
  refine .asked _ _ ?_
  -- A token is taken in both streams where nothing was read.
  have start := abreast.left_eq
  have reached := abreast'.left_eq
  have same : decide (last.pending.length = cursor.pending.length) =
      decide (last'.pending.length = cursor'.pending.length) := by
    rw [decide_eq_decide]
    simp only [Cursor.left] at start reached
    omega
  have finish (item item' : Item) : Mirrors passage
      (bumpIf (·.isAt .semicolon) >>= fun semicolon => pure ({ item, semicolon } : Statement))
      (bumpIf (·.isAt .semicolon) >>= fun semicolon =>
        pure ({ item := item', semicolon } : Statement)) Any :=
    (Mirrors.bumpIf (Passage.agrees_isAt _)).after fun _ _ => .pure trivial
  have taken : Mirrors passage ((fun token => Item.raw [token]) <$> bump)
      ((fun token => Item.raw [token]) <$> bump) Any := Mirrors.bump.mapAny
  have kept : Mirrors passage (Pure.pure item) (Pure.pure item') Any := .pure trivial
  have joined := (Mirrors.join same taken kept finish).mirrorsAt abreast' braced'
  simpa only [decide_eq_true_eq] using joined

theorem codeBlock_succ : Mirrors passage (.codeBlock (fuel + 1)) (.codeBlock (fuel + 1)) Any := by
  rw [Parser.codeBlock]
  refine (Mirrors.bumpIf (Passage.agrees_isAt _)).bind .refl fun brace brace' alike => ?_
  cases alike with
  | none => exact .pure trivial
  | some _ =>
    exact grammar.statements.after fun _ _ => (Mirrors.expect _).after fun _ _ => .pure trivial

theorem optionalBlock_succ :
    Mirrors passage (.codeBlock? (fuel + 1)) (.codeBlock? (fuel + 1)) Any := by
  rw [Parser.codeBlock?]
  exact .branch (Passage.agrees_isAt _) grammar.codeBlock.mapAny (.pure trivial)

theorem ifStatement_succ :
    Mirrors passage (.ifStatement (fuel + 1)) (.ifStatement (fuel + 1)) Any := by
  rw [Parser.ifStatement]
  exact Mirrors.bump.after fun _ _ => grammar.conditions.after fun _ _ =>
    grammar.codeBlock.after fun _ _ => grammar.elseClause.after fun _ _ => .pure trivial

theorem elseClause_succ :
    Mirrors passage (.elseClause (fuel + 1)) (.elseClause (fuel + 1)) Any := by
  rw [Parser.elseClause]
  refine (Mirrors.bumpIf (Passage.agrees_atKeyword _)).bind .refl fun keyword keyword' alike => ?_
  cases alike with
  | none => exact .pure trivial
  | some _ =>
    exact .branch (Passage.agrees_atKeyword _) grammar.ifStatement.mapAny grammar.codeBlock.mapAny

theorem conditions_succ :
    Mirrors passage (.conditions (fuel + 1)) (.conditions (fuel + 1)) Any := by
  rw [Parser.conditions]
  exact grammar.condition.after fun _ _ =>
    (Mirrors.bumpIf (Passage.agrees_isAt _)).bind .refl fun _ _ alike =>
    .join alike.isSome grammar.conditions (.pure trivial) fun _ _ => .pure trivial

theorem condition_succ : Mirrors passage (.condition (fuel + 1)) (.condition (fuel + 1)) Any := by
  rw [Parser.condition]
  refine .branch Passage.agrees_atBindingKeyword ?_
    ((grammar.expr .head).after fun _ _ => .pure trivial)
  exact Mirrors.bump.after fun _ _ => mirrors_pattern.after fun _ _ =>
    mirrors_typeAnnotation.after fun _ _ =>
    (grammar.clause .head _ Passage.agrees_atAssignment).after fun _ _ => .pure trivial

theorem clause_succ (position : Position) (isMark : Cursor → Bool)
    (agrees : passage.Agrees isMark) : Mirrors passage (.clause? (fuel + 1) position isMark)
      (.clause? (fuel + 1) position isMark) Any := by
  rw [Parser.clause?]
  refine (Mirrors.bumpIf agrees).bind .refl fun mark mark' alike => ?_
  cases alike with
  | none => exact .pure trivial
  | some _ => exact (grammar.expr position).after fun _ _ => .pure trivial

theorem catches_succ : Mirrors passage (.catches (fuel + 1)) (.catches (fuel + 1)) Any := by
  rw [Parser.catches]
  refine (Mirrors.bumpIf (Passage.agrees_atKeyword _)).bind .refl fun keyword keyword' alike => ?_
  cases alike with
  | none => exact .pure trivial
  | some _ =>
    exact (Mirrors.run measures_catchRun).after fun _ _ => grammar.codeBlock.after fun _ _ =>
      grammar.catches.after fun _ _ => .pure trivial

theorem switchCases_succ :
    Mirrors passage (.switchCases (fuel + 1)) (.switchCases (fuel + 1)) Any := by
  rw [Parser.switchCases]
  refine .branch (.or Passage.agrees_atEnd (Passage.agrees_isAt _)) (.pure trivial) ?_
  refine (Mirrors.runIf fun cursor cursor' abreast braced within => ?_).after fun _ _ =>
    grammar.caseStatements.after fun _ _ => grammar.switchCases.after fun _ _ => .pure trivial
  rw [← Passage.agrees_atCaseLabel _ _ abreast braced]
  split
  · next label =>
    rw [if_pos label] at within
    exact measures_labelRun _ _ abreast within
  · rfl

theorem caseStatements_succ :
    Mirrors passage (.caseStatements (fuel + 1)) (.caseStatements (fuel + 1)) Any := by
  rw [Parser.caseStatements]
  exact .branch (.or (.or Passage.agrees_atEnd (Passage.agrees_isAt _)) Passage.agrees_atCaseLabel)
    (.pure trivial)
    (grammar.statement.after fun _ _ => grammar.caseStatements.after fun _ _ => .pure trivial)

theorem bindings_succ : Mirrors passage (.bindings (fuel + 1)) (.bindings (fuel + 1)) Any := by
  rw [Parser.bindings]
  exact mirrors_pattern.after fun _ _ => mirrors_typeAnnotation.after fun _ _ =>
    (grammar.clause .free _ Passage.agrees_atAssignment).after fun _ _ =>
    grammar.optionalBlock.after fun _ _ =>
    (Mirrors.bumpIf (Passage.agrees_isAt _)).bind .refl fun _ _ alike =>
    .join alike.isSome grammar.bindings (.pure trivial) fun _ _ => .pure trivial

include ends in
theorem decl_succ : Mirrors passage (.decl (fuel + 1)) (.decl (fuel + 1)) Any := by
  rw [Parser.decl]
  refine (mirrors_attributes ends).after fun attributes attributes' =>
    (mirrors_modifiers ends).after fun modifiers modifiers' =>
    (Mirrors.ask (Passage.agrees_peek _ fun _ _ like => like.text)).bind (fun _ => rfl)
    fun word _ same => ?_
  subst same
  refine .ite ?_ (.ite ?_ (.ite ?_ (.ite ?_ (.ite ?_ (.ite ?_ ?_)))))
  · exact (mirrors_importDecl ends ..).mapAny
  · exact (mirrors_typeHeader ends ..).after fun _ _ => grammar.codeBlock.after fun _ _ =>
      .pure trivial
  · exact (mirrors_functionHeader ends ..).after fun _ _ => grammar.optionalBlock.after fun _ _ =>
      .pure trivial
  · exact Mirrors.bump.after fun _ _ => grammar.bindings.after fun _ _ => .pure trivial
  · exact (mirrors_initializerHeader ends ..).after fun _ _ =>
      grammar.optionalBlock.after fun _ _ => .pure trivial
  · exact Mirrors.bump.after fun _ _ => grammar.optionalBlock.after fun _ _ => .pure trivial
  · exact (mirrors_rawDecl ..).mapAny

include ends in
theorem item_succ : Mirrors passage (.item (fuel + 1)) (.item (fuel + 1)) Any := by
  have expression : Mirrors passage (Item.expr <$> Parser.expr fuel .free)
      (Item.expr <$> Parser.expr fuel .free) Any := (grammar.expr .free).mapAny
  have whereClause := grammar.clause .head _ (Passage.agrees_atKeyword "where")
  refine ⟨(allForward (fuel + 1)).item, fun {cursor cursor'} abreast braced => ?_⟩
  have like := abreast.peek_like braced.inside
  -- Both readings see the same first token, and so take the same branch.
  have declares := ends.agrees_declarationKeyword _ _ abreast braced
  have kept {p q : Parser Item} (mirrors : Mirrors passage p q Any) :
      MirrorsAt passage cursor cursor' p q Any := mirrors.mirrorsAt abreast braced
  simp only at declares
  rw [Parser.item]
  refine .asked id id ?_
  simp only [id, ← like.kind, ← like.text, ← declares]
  refine .ite rfl (fun _ => kept (Mirrors.run measures_restOfLine).mapAny) fun _ =>
    .ite rfl (fun _ => kept (Mirrors.runFixed 1).mapAny) fun _ =>
    .ite rfl (fun _ => kept grammar.decl.mapAny) fun _ =>
    .ite rfl (fun _ => ?_) fun _ => kept expression
  -- One case for each keyword, in the order in which the reader tries them.
  generalize cursor.peek.text = word
  split
  · exact kept grammar.ifStatement.mapAny
  · exact kept (Mirrors.bump.after fun _ _ => grammar.conditions.after fun _ _ =>
      (Mirrors.expectKeyword _).after fun _ _ => grammar.codeBlock.after fun _ _ => .pure trivial)
  · exact kept (Mirrors.bump.after fun _ _ => (Mirrors.run measures_loopModifiers).after fun _ _ =>
      mirrors_pattern.after fun _ _ => mirrors_typeAnnotation.after fun _ _ =>
      (Mirrors.expectKeyword _).after fun _ _ => (grammar.expr .head).after fun _ _ =>
      whereClause.after fun _ _ => grammar.codeBlock.after fun _ _ => .pure trivial)
  · exact kept (Mirrors.bump.after fun _ _ => grammar.conditions.after fun _ _ =>
      grammar.codeBlock.after fun _ _ => .pure trivial)
  · refine kept (Mirrors.bump.after fun _ _ => grammar.codeBlock.after fun _ _ =>
      (Mirrors.expectKeyword _).bind .refl fun word word' alike => ?_)
    have missing : word.isMissing = word'.isMissing := by
      rw [Token.isMissing, Token.isMissing, alike.kind, alike.text]
    exact .join missing (.pure trivial) (grammar.expr .head).any fun _ _ => .pure trivial
  · refine kept (Mirrors.bump.after fun _ _ =>
      (Mirrors.bumpIf (Passage.agrees_atKeyword _)).bind .refl fun word word' alike =>
      ?_)
    rw [← alike.isSome]
    refine (Mirrors.run ?_).after fun _ _ => grammar.codeBlock.after fun _ _ =>
      grammar.catches.after fun _ _ => .pure trivial
    cases word.isSome with
    | false => exact fun _ _ _ _ => rfl
    | true => exact ends.measures_attachedGroup
  · refine kept (Mirrors.bump.after fun _ _ => (grammar.expr .head).after fun _ _ =>
      (Mirrors.bumpIf (Passage.agrees_isAt _)).bind .refl fun brace brace' alike => ?_)
    cases alike with
    | none => exact .pure trivial
    | some _ =>
      exact grammar.switchCases.after fun _ _ => (Mirrors.expect _).after fun _ _ => .pure trivial
  · exact kept (Mirrors.bump.after fun _ _ => grammar.codeBlock.after fun _ _ => .pure trivial)
  · exact kept (Mirrors.bump.after fun _ _ => .branch Passage.agrees_atReturnEnd (.pure trivial)
      ((grammar.expr .free).after fun _ _ => .pure trivial))
  · exact kept (Mirrors.bump.after fun _ _ => (grammar.expr .free).after fun _ _ => .pure trivial)
  iterate 2
    exact kept (Mirrors.bump.after fun _ _ =>
      (Mirrors.bumpIf Passage.agrees_atJumpTarget).after fun _ _ => .pure trivial)
  · exact kept (Mirrors.runFixed 1).mapAny
  · exact kept expression

omit grammar in
/-- Without fuel nothing is read. -/
theorem zero : AllMirrors passage 0 := by
  constructor
  all_goals intros
  all_goals first | exact .failure | exact fun _ _ given => by cases given

include ends in
/-- One more unit of fuel leaves the functions of the grammar mirrored. -/
theorem succ : AllMirrors passage (fuel + 1) where
  statements := grammar.statements_succ
  statement := grammar.statement_succ
  item := grammar.item_succ ends
  codeBlock := grammar.codeBlock_succ
  optionalBlock := grammar.optionalBlock_succ
  ifStatement := grammar.ifStatement_succ
  elseClause := grammar.elseClause_succ
  conditions := grammar.conditions_succ
  condition := grammar.condition_succ
  clause := grammar.clause_succ
  catches := grammar.catches_succ
  switchCases := grammar.switchCases_succ
  caseStatements := grammar.caseStatements_succ
  decl := grammar.decl_succ ends
  bindings := grammar.bindings_succ
  expr := grammar.expr_succ
  terms := grammar.terms_succ ends
  unary := grammar.unary_succ ends
  primary := grammar.primary_succ
  suffixes := grammar.suffixes_succ ends
  argumentList := grammar.argumentList_succ
  arguments := grammar.arguments_succ
  collection := grammar.collection_succ
  elements := grammar.elements_succ
  closure := grammar.closure_succ ends

end AllMirrors

/-- With every amount of fuel the functions of the grammar are mirrored. -/
theorem allMirrors (ends : passage.Ends) (fuel : Nat) : AllMirrors passage fuel := by
  induction fuel with
  | zero => exact .zero
  | succ fuel grammar => exact grammar.succ ends

end Parser

end SuiteMigration
