import Mathlib.Data.List.Basic
import Mathlib.Tactic.Common
import SuiteMigration.Proofs.Expectation.Conservation
import SuiteMigration.Proofs.Lexing.Comments
import SuiteMigration.Proofs.Tree.Margins

/-!
# Comments of an assertion

When an assertion is migrated, the trivia around its arguments move with the tokens they belong to.
Two operands become one condition by clearing the trivia between them, so the comments there are
lost: those after the left operand, those beside the comma, and those before the right operand. A
test for `nil` loses the comments after its operand. The comma behind the last argument goes too,
but its comments move to the value, unless the value has no token that could take them. All other
comments of the arguments are still there, with those of the callee and of the parentheses.

## Main definitions

* `Trivia.comments`, `commentsOf` - the comments in trivia and around tokens
* `Synthesis.lostComments` - the comments that a condition has no place for
* `strandedComments` - the comments of a last comma behind a value without tokens

## Main results

* `commentsOf_combined`, `commentsOf_negated` - the comments of a condition
* `perm_argumentComments_apply` - the comments of the arguments before and after a condition is built
* `comments_survive` - which comments of an assertion its expectation holds
-/

namespace SuiteMigration

/-! ### Comments -/

/-- The text of a piece that is a comment. -/
def Piece.comment? : Piece → Option (List Char)
  | .comment text _ => some text
  | .trivia ('/' :: '/' :: rest) => some ('/' :: '/' :: rest)
  | _ => none

theorem Piece.text_eq_of_comment? {piece : Piece} {comment : List Char}
    (isComment : piece.comment? = some comment) : piece.text = comment := by
  unfold comment? at isComment
  split at isComment
  · exact Option.some.inj isComment
  · exact Option.some.inj isComment
  · cases isComment

theorem Piece.opensComment_of_comment? {piece : Piece} (wellFormed : piece.WellFormed)
    {comment : List Char} (isComment : piece.comment? = some comment) (rest : List Char) :
    Trivia.opensComment (comment ++ rest) = true := by
  unfold comment? at isComment
  split at isComment
  · obtain ⟨later, rfl, -⟩ := wellFormed
    obtain rfl := Option.some.inj isComment
    rfl
  · obtain rfl := Option.some.inj isComment
    rfl
  · cases isComment

namespace Trivia

variable {trivia : Trivia} {comment : List Char}

/-- The line comments and the block comments in trivia, in order. A comment nested in another one is
part of that one. -/
def comments (trivia : Trivia) : List (List Char) :=
  (Piece.segment trivia.toList).filterMap Piece.comment?

theorem opensComment_append (before : List Char) {rest : List Char}
    (opens : opensComment rest = true) : opensComment (before ++ rest) = true := by
  induction before with
  | nil => exact opens
  | cons c before ih =>
    rw [List.cons_append]
    unfold opensComment
    split
    · rfl
    · rfl
    · next heq => exact (List.cons.inj heq).2 ▸ ih
    · next heq => cases heq

/-- A comment is part of the trivia, which carry a comment then. -/
theorem of_mem_comments (member : comment ∈ trivia.comments) :
    comment <:+: trivia.toList ∧ trivia.hasComment = true := by
  obtain ⟨piece, isPiece, isComment⟩ := List.mem_filterMap.1 member
  obtain ⟨before, after, split⟩ := List.append_of_mem isPiece
  have whole := Piece.flatMap_text_segment trivia.toList
  rw [split, List.flatMap_append, List.flatMap_cons, Piece.text_eq_of_comment? isComment] at whole
  refine ⟨⟨before.flatMap Piece.text, after.flatMap Piece.text, by simpa using whole⟩, ?_⟩
  rw [hasComment, ← whole]
  apply opensComment_append
  exact Piece.opensComment_of_comment? (Piece.wellFormed_of_mem_segment isPiece) isComment _

end Trivia

/-- The comments before and after a token. -/
def Token.comments (token : Token) : List (List Char) :=
  token.leading.comments ++ token.trailing.comments

/-- The comments around the tokens of a run, in order. -/
def commentsOf (tokens : List Token) : List (List Char) :=
  tokens.flatMap Token.comments

theorem commentsOf_append (first second : List Token) :
    commentsOf (first ++ second) = commentsOf first ++ commentsOf second :=
  List.flatMap_append

theorem commentsOf_cons (token : Token) (tokens : List Token) :
    commentsOf (token :: tokens) = token.comments ++ commentsOf tokens :=
  List.flatMap_cons

/-- The text from within the trivia of a token is part of the text of the run. -/
theorem infix_renderAll_of_mem {tokens : List Token} {token : Token} (member : token ∈ tokens)
    {text : List Char}
    (part : text <:+: token.leading.toList ∨ text <:+: token.trailing.toList) :
    text <:+: (Token.renderAll tokens).toList := by
  have ofToken : token.render.toList <:+: (Token.renderAll tokens).toList := by
    rw [Token.toList_renderAll, List.flatMap_def]
    exact List.infix_of_mem_flatten (List.mem_map_of_mem member)
  refine List.IsInfix.trans ?_ ofToken
  simp only [Token.render, String.toList_append]
  rcases part with before | after
  · rw [List.append_assoc]
    exact before.trans (List.prefix_append _ _).isInfix
  · exact after.trans (List.suffix_append _ _).isInfix

theorem infix_renderAll_of_mem_commentsOf {tokens : List Token} {comment : List Char}
    (member : comment ∈ commentsOf tokens) : comment <:+: (Token.renderAll tokens).toList := by
  obtain ⟨token, isToken, around⟩ := List.mem_flatMap.1 member
  refine infix_renderAll_of_mem isToken ?_
  rcases List.mem_append.1 around with before | after
  · exact .inl (Trivia.of_mem_comments before).1
  · exact .inr (Trivia.of_mem_comments after).1

theorem infix_renderAll_append (before tokens after : List Token) :
    (Token.renderAll tokens).toList <:+: (Token.renderAll (before ++ tokens ++ after)).toList := by
  simp only [Token.renderAll_append, String.toList_append]
  exact List.infix_append _ _ _

/-! ### The ends of a node -/

/-- No comments. -/
theorem Trivia.comments_empty : Trivia.comments "" = [] := rfl

/-- A space holds no comment. -/
theorem Trivia.comments_space : Trivia.comments .space = [] := by
  decide +kernel

section Ends

variable {α : Type} [Node α] [Refillable α]

/-- The comments of a node are those before it and then the others. -/
theorem commentsOf_eq_leading (node : α) :
    commentsOf (Node.tokens node) =
      (Node.leading node).comments ++ commentsOf (Node.tokens (Node.setLeading node "")) := by
  rw [Node.tokens_setLeading, Node.leading]
  cases Node.tokens node with
  | nil => rfl
  | cons first later => exact List.append_assoc ..

/-- The comments of a node are those after it, behind the others. -/
theorem commentsOf_eq_trailing (node : α) :
    commentsOf (Node.tokens node) =
      commentsOf (Node.tokens (Node.setTrailing node "")) ++ (Node.trailing node).comments := by
  rw [Node.tokens_setTrailing, Node.trailing]
  rcases List.eq_nil_or_concat (Node.tokens node) with empty | ⟨front, last, tokens_eq⟩
  · rw [empty]
    rfl
  · rw [tokens_eq, List.concat_eq_append, modifyLast_concat,
      List.getLast?_append_of_ne_nil _ (List.cons_ne_nil _ _)]
    simp [commentsOf, Token.comments, Token.withTrailing, Trivia.comments_empty]

end Ends

/-! ### Conditions -/

/-- Parentheses take over the comments at the ends of what they hold. -/
theorem commentsOf_parenthesized (expr : Expr) :
    commentsOf expr.parenthesized.tokens = commentsOf expr.tokens := by
  have inside := (commentsOf_eq_leading expr).trans
    (congrArg ((Node.leading expr).comments ++ ·) (commentsOf_eq_trailing (Node.setLeading expr "")))
  rw [Node.trailing_setLeading] at inside
  refine Eq.trans ?_ inside.symm
  rw [Expr.tokens_parenthesized, List.cons_append, commentsOf_cons, commentsOf_append]
  simp [commentsOf, Token.comments, Token.withLeading, Token.withTrailing, Token.ofPunctuation,
    Trivia.comments_empty, Node.tokens]

theorem commentsOf_ite_parenthesized (expr : Expr) (wraps : Bool) :
    commentsOf (if wraps then expr.parenthesized else expr).tokens = commentsOf expr.tokens := by
  cases wraps with
  | true => exact commentsOf_parenthesized expr
  | false => rfl

theorem Node.leading_parenthesized (expr : Expr) :
    Node.leading expr.parenthesized = Node.leading expr := rfl

theorem Node.trailing_parenthesized (expr : Expr) :
    Node.trailing expr.parenthesized = Node.trailing expr := by
  have last : (Node.tokens expr.parenthesized).getLast? =
      some ((Token.ofPunctuation ')').withTrailing (Node.trailing expr)) :=
    (congrArg List.getLast? expr.tokens_parenthesized).trans List.getLast?_concat
  rw [Node.trailing, last]
  rfl

theorem commentsOf_operation (operator : String) (left right : Expr) :
    commentsOf (Expr.sequence [left, right]
      [((Token.ofOperator operator).withLeading .space).withTrailing .space]).tokens =
        commentsOf left.tokens ++ commentsOf right.tokens := by
  simp [Expr.tokens, tokensOfOperands, Node.tokens, commentsOf_append, commentsOf_cons,
    Token.comments, Token.withLeading, Token.withTrailing, Trivia.comments_space]

/-- Between the operands of a condition there are no comments. -/
theorem commentsOf_combined (left right : Expr) (operator : String) :
    (commentsOf left.tokens ++ commentsOf right.tokens).Perm
      (commentsOf (combined left operator right).tokens ++
        ((Node.trailing left).comments ++ (Node.leading right).comments)) := by
  set first := if left.bindsLoosely then left.parenthesized else left with first_eq
  set second := if right.bindsLoosely || right.isMarked then right.parenthesized else right
    with second_eq
  have trailing_eq : Node.trailing first = Node.trailing left := by
    rw [first_eq]
    split
    · exact Node.trailing_parenthesized left
    · rfl
  have leading_eq : Node.leading second = Node.leading right := by
    rw [second_eq]
    split
    · exact Node.leading_parenthesized right
    · rfl
  have before := (commentsOf_ite_parenthesized left left.bindsLoosely).symm.trans
    (commentsOf_eq_trailing first)
  have after := (commentsOf_ite_parenthesized right (right.bindsLoosely || right.isMarked)).symm.trans
    (commentsOf_eq_leading second)
  have condition : commentsOf (combined left operator right).tokens =
      commentsOf (Node.tokens (Node.setTrailing first "")) ++
        commentsOf (Node.tokens (Node.setLeading second "")) :=
    commentsOf_operation operator (Node.setTrailing first "") (Node.setLeading second "")
  rw [before, after, condition, trailing_eq, leading_eq]
  grind

theorem commentsOf_negated (operand : Expr) :
    commentsOf (negated operand).tokens = commentsOf operand.tokens := by
  set wrapped := if operand.needsParens then operand.parenthesized else operand with wrapped_eq
  have tokens_eq : (negated operand).tokens =
      (Token.ofOperator "!").withLeading (Node.leading wrapped) ::
        Node.tokens (Node.setLeading wrapped "") := rfl
  rw [tokens_eq, commentsOf_cons,
    (commentsOf_ite_parenthesized operand operand.needsParens).symm.trans
      (commentsOf_eq_leading wrapped)]
  simp [Token.comments, Token.withLeading, Token.ofOperator, Trivia.comments_empty]

/-! ### Arguments -/

/-- The comments beside the comma of an argument. -/
def Argument.commaComments (argument : Argument) : List (List Char) :=
  commentsOf argument.comma.toList

/-- The comments of the values and the commas of arguments. -/
def argumentComments (arguments : List Argument) : List (List Char) :=
  arguments.flatMap fun argument => commentsOf argument.value.tokens ++ argument.commaComments

/-- The comments that a condition has no place for: those between its operands, and those behind an
operand that is compared with `nil`. -/
def Synthesis.lostComments : Synthesis → List Argument → List (List Char)
  | .compare _, left :: right :: _ =>
    (Node.trailing left.value).comments ++ left.commaComments ++ (Node.leading right.value).comments
  | .nilCheck _, first :: _ => (Node.trailing first.value).comments
  | _, _ => []

/-- The comments of a comma behind the last argument, if its value has no token to which they could
move. -/
def strandedComments (arguments : List Argument) : List (List Char) :=
  match arguments.getLast? with
  | some last => if last.value.tokens.isEmpty then last.commaComments else []
  | none => []

/-- Building a condition keeps the comments of the arguments, those aside that it has no place
for. -/
theorem perm_argumentComments_apply (synthesis : Synthesis) (arguments : List Argument) :
    (argumentComments arguments).Perm
      (argumentComments (synthesis.apply arguments) ++ synthesis.lostComments arguments) := by
  -- What a synthesis joins is counted comment by comment; without enough arguments it changes
  -- nothing.
  match synthesis, arguments with
  | .compare operator, left :: right :: later =>
    rw [List.perm_iff_count]
    intro comment
    have condition := (commentsOf_combined left.value right.value operator).count_eq comment
    simp only [argumentComments, Synthesis.apply, Synthesis.lostComments, List.flatMap_cons,
      Argument.commaComments, List.count_append] at condition ⊢
    omega
  | .nilCheck operator, first :: later =>
    rw [List.perm_iff_count]
    intro comment
    have condition := (commentsOf_combined first.value (.literal (.ofName "nil")) operator).count_eq
      comment
    have plain : commentsOf (Expr.literal (.ofName "nil")).tokens = [] ∧
        (Node.leading (Expr.literal (.ofName "nil"))).comments = [] := ⟨rfl, rfl⟩
    simp only [argumentComments, Synthesis.apply, Synthesis.lostComments, List.flatMap_cons,
      Argument.commaComments, List.count_append, plain, List.count_nil] at condition ⊢
    omega
  | .negate, first :: later =>
    simp [argumentComments, Synthesis.apply, Synthesis.lostComments, commentsOf_negated,
      Argument.commaComments]
  | .none, arguments => simp [Synthesis.apply, Synthesis.lostComments]
  | .negate, [] => simp [Synthesis.apply, Synthesis.lostComments]
  | .compare operator, [] => simp [Synthesis.apply, Synthesis.lostComments]
  | .compare operator, [only] => simp [Synthesis.apply, Synthesis.lostComments]
  | .nilCheck operator, [] => simp [Synthesis.apply, Synthesis.lostComments]

/-- The last token of a run can take more trivia behind its own. -/
theorem infix_withTrailing {front : List Token} {last : Token} {first second : Trivia}
    {comment : List Char}
    (member : comment ∈ commentsOf (front ++ [last]) ∨
      comment ∈ first.comments ∨ comment ∈ second.comments) :
    comment <:+: (Token.renderAll
      (front ++ [last.withTrailing (last.trailing ++ first ++ second)])).toList := by
  have isLast : last.withTrailing (last.trailing ++ first ++ second) ∈
      front ++ [last.withTrailing (last.trailing ++ first ++ second)] :=
    List.mem_append_right _ (List.mem_singleton_self _)
  have behind {trivia : Trivia} (part : trivia.toList <:+: (last.trailing ++ first ++ second).toList)
      (inside : comment ∈ trivia.comments) :
      comment <:+: (Token.renderAll
        (front ++ [last.withTrailing (last.trailing ++ first ++ second)])).toList :=
    infix_renderAll_of_mem isLast (.inr ((Trivia.of_mem_comments inside).1.trans part))
  simp only [String.toList_append] at behind
  rcases member with own | before | after
  · rw [commentsOf_append, List.mem_append] at own
    rcases own with earlier | around
    · apply infix_renderAll_of_mem_commentsOf
      rw [commentsOf_append]
      exact List.mem_append_left _ earlier
    · rw [commentsOf, List.flatMap_singleton, Token.comments, List.mem_append] at around
      rcases around with ahead | own
      · exact infix_renderAll_of_mem isLast (.inl (Trivia.of_mem_comments ahead).1)
      · refine behind ?_ own
        rw [List.append_assoc]
        exact List.infix_append' [] _ _
  · exact behind (List.infix_append _ _ _) before
  · exact behind (List.suffix_append _ _).isInfix after

/-- A value that has tokens takes over the comments beside its comma. -/
theorem infix_withoutComma {argument : Argument} {comment : List Char}
    (member : comment ∈ commentsOf argument.value.tokens ∨
      argument.value.tokens ≠ [] ∧ comment ∈ argument.commaComments) :
    comment <:+: (Token.renderAll argument.withoutComma.value.tokens).toList := by
  obtain ⟨label, value, comma⟩ := argument
  cases comma with
  | none =>
    rcases member with own | ⟨-, beside⟩
    · exact infix_renderAll_of_mem_commentsOf own
    · cases beside
  | some comma =>
    simp only [Argument.commaComments, commentsOf, Option.toList_some, List.flatMap_singleton,
      Token.comments, List.mem_append] at member
    simp only [Argument.withoutComma]
    split
    · rcases List.eq_nil_or_concat value.tokens with empty | ⟨front, last, tokens_eq⟩
      · simp [empty] at member
      -- The last token takes the trivia of the comma, and with them their comments.
      rw [List.concat_eq_append] at tokens_eq
      have trailing_eq : Node.trailing value = last.trailing := by
        rw [Node.trailing, show Node.tokens value = front ++ [last] from tokens_eq,
          List.getLast?_concat]
      have moved := Node.tokens_setTrailing value (last.trailing ++ comma.leading ++ comma.trailing)
      rw [show Node.tokens value = front ++ [last] from tokens_eq, modifyLast_concat] at moved
      rw [trailing_eq]
      change comment <:+: (Token.renderAll (Node.tokens (Node.setTrailing value _))).toList
      rw [moved]
      rw [tokens_eq] at member
      exact infix_withTrailing (member.imp_right And.right)
    · next plain =>
      -- The comma had no comments to hand on.
      simp only [Bool.or_eq_true, not_or, Bool.not_eq_true] at plain
      rcases member with own | ⟨-, before | after⟩
      · exact infix_renderAll_of_mem_commentsOf own
      · rw [(Trivia.of_mem_comments before).2] at plain
        cases plain.2
      · rw [(Trivia.of_mem_comments after).2] at plain
        cases plain.1

theorem tokensOfArguments_append (first second : List Argument) :
    tokensOfArguments (first ++ second) = tokensOfArguments first ++ tokensOfArguments second := by
  induction first with
  | nil => rfl
  | cons argument later ih => simp [tokensOfArguments, ih]

/-- The comments of arguments without labels are those of their values and commas. -/
theorem commentsOf_tokensOfArguments {arguments : List Argument}
    (unlabeled : ∀ argument ∈ arguments, argument.label = none) :
    commentsOf (tokensOfArguments arguments) = argumentComments arguments := by
  induction arguments with
  | nil => rfl
  | cons argument later ih =>
    rw [List.forall_mem_cons] at unlabeled
    obtain ⟨label, value, comma⟩ := argument
    obtain rfl : label = none := unlabeled.1
    rw [tokensOfArguments, commentsOf_append, ih unlabeled.2]
    have tokens_eq : (Argument.mk none value comma).tokens = value.tokens ++ comma.toList := by
      cases comma <;> rfl
    rw [tokens_eq, commentsOf_append]
    rfl

theorem tokens_withoutComma {argument : Argument} (unlabeled : argument.label = none) :
    argument.withoutComma.tokens = argument.withoutComma.value.tokens := by
  obtain ⟨label, value, comma⟩ := argument
  obtain rfl : label = none := unlabeled
  unfold Argument.withoutComma
  split
  · next absent =>
    obtain rfl : comma = none := absent
    exact List.append_nil _
  · exact List.append_nil _

/-- Without the comma behind the last argument, the arguments still hold their comments, the
stranded ones aside. -/
theorem exists_kept_stripComma {arguments : List Argument}
    (unlabeled : ∀ argument ∈ arguments, argument.label = none) :
    ∃ kept, (argumentComments arguments).Perm (kept ++ strandedComments arguments) ∧
      ∀ comment ∈ kept,
        comment <:+: (Token.renderAll (tokensOfArguments (stripComma arguments))).toList := by
  rcases List.eq_nil_or_concat arguments with rfl | ⟨front, last, rfl⟩
  · exact ⟨[], .refl _, nofun⟩
  rw [List.concat_eq_append] at unlabeled ⊢
  have ofFront : commentsOf (tokensOfArguments front) = argumentComments front :=
    commentsOf_tokensOfArguments fun _ member => unlabeled _ (List.mem_append_left _ member)
  have withLast : argumentComments (front ++ [last]) =
      argumentComments front ++ (commentsOf last.value.tokens ++ last.commaComments) := by
    simp [argumentComments]
  have stranded : strandedComments (front ++ [last]) =
      if last.value.tokens.isEmpty then last.commaComments else [] := by
    rw [strandedComments, List.getLast?_concat]
  have stripped : (Token.renderAll (tokensOfArguments (stripComma (front ++ [last])))).toList =
      (Token.renderAll (tokensOfArguments front)).toList ++
        (Token.renderAll last.withoutComma.value.tokens).toList := by
    rw [stripComma, modifyLast_concat, tokensOfArguments_append, Token.renderAll_append,
      String.toList_append, ← tokens_withoutComma (unlabeled last (by simp)), tokensOfArguments,
      tokensOfArguments, List.append_nil]
  have inFront {comment : List Char} (member : comment ∈ argumentComments front) :
      comment <:+: (Token.renderAll (tokensOfArguments front)).toList := by
    apply infix_renderAll_of_mem_commentsOf
    rwa [commentsOf_tokensOfArguments fun _ member => unlabeled _ (List.mem_append_left _ member)]
  rw [withLast, stranded, stripped]
  -- Without a token to carry them, the comments beside the comma are stranded.
  by_cases empty : last.value.tokens = []
  · refine ⟨argumentComments front, ?_, fun comment member => ?_⟩
    · simp [empty, commentsOf]
    · exact (inFront member).trans (List.prefix_append _ _).isInfix
  · refine ⟨argumentComments front ++ (commentsOf last.value.tokens ++ last.commaComments), ?_,
      fun comment member => ?_⟩
    · simp [empty]
    · rcases List.mem_append.1 member with earlier | atLast
      · exact (inFront earlier).trans (List.prefix_append _ _).isInfix
      · refine List.IsInfix.trans (infix_withoutComma ?_) (List.suffix_append _ _).isInfix
        rcases List.mem_append.1 atLast with own | beside
        · exact .inl own
        · exact .inr ⟨empty, beside⟩

/-! ### Assertions -/

/-- The new name of an assertion stands between the comments of the old one. -/
theorem Replacement.commentsOf_callee (replacement : Replacement) (token : Token) :
    commentsOf (replacement.callee (.identifier token)).tokens = token.comments := by
  cases replacement <;>
    simp [Replacement.callee, Expr.tokens, tokensOfExpr?, commentsOf, Node.leading, Node.trailing,
      Node.tokens, Token.comments, Token.withLeading, Token.withTrailing, Token.ofName, Token.ofPunctuation,
      Trivia.comments_empty]

/-- Which comments of an assertion survive. When a call with both parentheses to a name of the table
is migrated, every comment of the callee, of the parentheses, of the arguments without a label and of
the commas behind them is part of the text of the expectation, those aside that the condition has no
place for and those of a last comma behind a value without tokens. A comparison has no place for the
comments between its operands, and a test for `nil` has none for the comments behind its operand. -/
theorem comments_survive (rule : AssertionRule) (callee : Expr) (list : CallArguments)
    (closure : Option Closure) (named : callee.name?.bind assertionRule? = some rule)
    (closed : list.isClosed = true) :
    ∃ expectation kept,
      (Expr.call callee list closure).expectation? = some expectation ∧
      (commentsOf callee.tokens ++
          commentsOf (Node.tokens list.leftParen ++ Node.tokens list.rightParen) ++
          argumentComments (positional list.arguments)).Perm
        (kept ++ (rule.synthesis.lostComments (positional list.arguments) ++
          strandedComments (rule.synthesis.apply (positional list.arguments)))) ∧
      ∀ comment ∈ kept, comment <:+: (Node.render expectation).toList := by
  obtain ⟨name, calleeNamed, _⟩ := Option.bind_eq_some_iff.1 named
  obtain ⟨token, rfl⟩ : ∃ token, callee = .identifier token := by
    cases callee with
    | identifier token => exact ⟨token, rfl⟩
    | _ => cases calleeNamed
  obtain ⟨kept, whole, survive⟩ :=
    exists_kept_stripComma (label_apply rule.synthesis (@label_positional list.arguments))
  have applied := perm_argumentComments_apply rule.synthesis (positional list.arguments)
  refine ⟨migrateAssertion rule (.identifier token) list closure,
    token.comments ++ commentsOf (Node.tokens list.leftParen ++ Node.tokens list.rightParen) ++ kept,
    ?_, ?_, ?_⟩
  · simp only [Expr.expectation?, named]
    exact if_pos closed
  · -- Both permutations are compared comment by comment.
    rw [List.perm_iff_count] at whole applied ⊢
    intro comment
    specialize whole comment
    specialize applied comment
    have own : commentsOf (Expr.identifier token).tokens = token.comments :=
      List.flatMap_singleton ..
    simp only [List.count_append, own] at whole applied ⊢
    omega
  · intro comment member
    have tokens_eq : Node.tokens (migrateAssertion rule (.identifier token) list closure) =
        ((rule.replacement.callee (.identifier token)).tokens ++ Node.tokens list.leftParen) ++
          tokensOfArguments (stripComma (rule.synthesis.apply (positional list.arguments))) ++
            (Node.tokens list.rightParen ++ Node.tokens closure) := by
      have inOrder : Node.tokens (migrateAssertion rule (.identifier token) list closure) =
          (rule.replacement.callee (.identifier token)).tokens ++ (Node.tokens list.leftParen ++
            tokensOfArguments (stripComma (rule.synthesis.apply (positional list.arguments))) ++
              Node.tokens list.rightParen) ++ Node.tokens closure := by
        cases closure <;> rfl
      simp [inOrder]
    rw [Node.render, tokens_eq]
    -- A comment around the arguments stays with its token, one inside of them with its argument.
    rcases List.mem_append.1 member with around | inside
    · apply infix_renderAll_of_mem_commentsOf
      simp only [commentsOf_append, List.mem_append, Replacement.commentsOf_callee] at around ⊢
      tauto
    · exact (survive comment inside).trans (infix_renderAll_append _ _ _)

/-- In `XCTAssertTrue(a, /* b */ message: c)` the comment behind the comma moves to the value. -/
theorem comments_survive_labelled :
    let comma := (Token.ofPunctuation ',').withTrailing " /* b */ "
    let label : Label := { name := .ofName "message", colon := .ofPunctuation ':' }
    let list : CallArguments :=
      { leftParen := some (.ofPunctuation '(')
        arguments :=
          [{ label := none, value := .identifier (.ofName "a"), comma := some comma },
           { label := some label, value := .identifier (.ofName "c"), comma := none }]
        rightParen := some (.ofPunctuation ')') }
    ∃ expectation,
      (Expr.call (.identifier (.ofName "XCTAssertTrue")) list none).expectation? =
        some expectation ∧
      "/* b */".toList <:+: (Node.render expectation).toList := by
  intro comma label list
  obtain ⟨expectation, kept, found, whole, survive⟩ := comments_survive ⟨.expect, .none⟩
    (.identifier (.ofName "XCTAssertTrue")) list none (by decide +kernel) (by decide +kernel)
  refine ⟨expectation, found, survive _ ?_⟩
  have isThere : "/* b */".toList ∈ argumentComments (positional list.arguments) := by
    decide +kernel
  have nothingLost : strandedComments (Synthesis.none.apply (positional list.arguments)) = [] := by
    decide +kernel
  rw [nothingLost] at whole
  simpa [Synthesis.lostComments] using whole.mem_iff.1 (List.mem_append_right _ isThere)

/-- In `XCTAssertEqual(a, /* b */ c)` the comment behind the comma is lost: the operands become one
condition, and the comma goes with its trivia. -/
theorem comments_lost_between_operands :
    let comma := (Token.ofPunctuation ',').withTrailing " /* b */ "
    let list : CallArguments :=
      { leftParen := some (.ofPunctuation '(')
        arguments :=
          [{ label := none, value := .identifier (.ofName "a"), comma := some comma },
           { label := none, value := .identifier (.ofName "c"), comma := none }]
        rightParen := some (.ofPunctuation ')') }
    let call := Expr.call (.identifier (.ofName "XCTAssertEqual")) list none
    Node.render call = "XCTAssertEqual(a, /* b */ c)" ∧
      "/* b */".toList ∈ argumentComments (positional list.arguments) ∧
      call.expectation?.map Node.render = some "#expect(a == c)" ∧
      ¬ "/* b */".toList <:+: "#expect(a == c)".toList := by
  decide +kernel

end SuiteMigration
