import SuiteMigration.Proofs.Reading.Settlement

/-!
# Reading expressions

Each function that reads expressions keeps its tokens and settles, provided the functions it calls
do.

## Main results

* `Settled.expr_succ`, `Settled.unary_succ`, `Settled.suffixes_succ` and others - one step of fuel
  for each function
-/

namespace SuiteMigration

/-- A closure given to a call is written behind it. -/
theorem Expr.tokens_withClosure {base : Expr} (accepts : base.acceptsClosure = true)
    (closure : Closure) : (base.withClosure closure).tokens = base.tokens ++ closure.tokens := by
  cases base with
  | call callee arguments trailing =>
    cases trailing with
    | none => simp [withClosure, Expr.tokens, tokensOfClosure?]
    | some trailing => simp [acceptsClosure] at accepts
  | _ => simp [withClosure, Expr.tokens, tokensOfClosure?]

theorem Expr.tokens_of_isEmpty {expr : Expr} (isEmpty : expr.isEmpty = true) :
    expr.tokens = [] := by
  unfold Expr.isEmpty at isEmpty
  split at isEmpty
  · rfl
  · cases isEmpty

/-- A generic argument list has at least one token. -/
theorem Cursor.pos_of_genericRun {endOfFile : Token} {begun : Bool} {depth : Int}
    {previous : Option Token} {tokens : List Token} {length : Nat}
    (found : genericRun? endOfFile begun depth previous tokens = some length) : 0 < length := by
  unfold genericRun? at found
  grind [Option.map_eq_some_iff]

namespace Settled

open SuiteMigration.Parser

variable {n m : Nat} {cursor : Cursor}

theorem expr_succ (settled : Settled n m) (position : Position)
    (fueled : cursor.Fueled 4 (n + 1) (m + 1)) :
    Keeps (Parser.expr (n + 1) position) (Parser.expr (m + 1) position) Expr.tokens cursor := by
  rw [Parser.expr, Parser.expr]
  refine (settled.unary cursor position (fueled.here (by decide))).bind ?_
  rintro first next ⟨firstReads, firstTaken⟩
  -- An operand that is not empty has taken a token, which pays for the terms after it.
  refine .ite (fun _ => .pure firstReads) fun notEmpty => ?_
  have taken := firstTaken (Bool.not_eq_true _ ▸ notEmpty)
  refine (settled.terms next position 0 (fueled.advance taken (by decide))).bind ?_
  intro rest last restReads
  exact .pure (by simpa only [Expr.tokens_ofTerms] using firstReads.trans restReads)

theorem terms_succ (settled : Settled n m) (position : Position) (ternaries : Nat)
    (fueled : cursor.Fueled 1 (n + 1) (m + 1)) :
    Keeps (Parser.terms (n + 1) position ternaries) (Parser.terms (m + 1) position ternaries)
      tokensOfTerms cursor := by
  rw [Parser.terms, Parser.terms]
  refine (agree_binaryOperator fueled.proper ternaries).bind ?_
  rintro _ next (⟨rfl, rfl⟩ | ⟨operator, rfl, taken⟩)
  · exact .pure (.refl next)
  -- A cast is followed by a type, any other operator by an operand.
  refine .join (fun operand last => next.Reads operand.tokens last) (fun _ => ?_) (fun _ => ?_) ?_
  · exact .map (agree_run _ next)
  · exact (settled.unary next position (fueled.advance taken (by decide))).mono
      fun _ _ reads => reads.1
  · intro operand last operandReads
    have taken := taken.then operandReads
    refine (settled.terms last position _ (fueled.advance taken (by decide))).bind ?_
    intro later final laterReads
    exact .pure (taken.toReads.trans laterReads)

theorem unary_succ (settled : Settled n m) (position : Position)
    (fueled : cursor.Fueled 3 (n + 1) (m + 1)) :
    Agree (Parser.unary (n + 1) position) (Parser.unary (m + 1) position) cursor fun node next =>
      cursor.Reads node.tokens next ∧ (node.isEmpty = false → cursor.Takes node.tokens next) := by
  have proper := fueled.proper
  rw [Parser.unary, Parser.unary]
  refine .get (.ite (fun isTry => ?_) fun _ => .ite (fun isAwait => ?_) fun _ =>
    .ite (fun isPrefix => ?_) fun _ => .ite (fun isPath => ?_) fun _ => ?_)
  · refine (agree_bump_of_ne_nil (proper.pending_ne_nil_of_atKeyword isTry)).bind ?_
    intro keyword next taken
    refine (agree_bumpIf _ next).bind ?_
    intro mark last markReads
    have taken := taken.then markReads
    refine (settled.expr last position (fueled.advance taken (by decide))).bind ?_
    intro operand final operandReads
    have taken := taken.then operandReads
    exact .pure ⟨taken.toReads, fun _ => taken⟩
  · refine (agree_bump_of_ne_nil (proper.pending_ne_nil_of_atKeyword isAwait)).bind ?_
    intro keyword next taken
    refine (settled.expr next position (fueled.advance taken (by decide))).bind ?_
    intro operand final operandReads
    have taken := taken.then operandReads
    exact .pure ⟨taken.toReads, fun _ => taken⟩
  · -- An operator before an operand stays in the same function, one token further on.
    rw [Cursor.atOperator, Bool.and_eq_true] at isPrefix
    refine (agree_bump_of_ne_nil
      (proper.pending_ne_nil_of_isAt isPrefix.1 (by decide))).bind ?_
    intro operator next taken
    refine (settled.unary next position (fueled.advance taken (by decide))).bind ?_
    rintro operand final ⟨operandReads, _⟩
    have taken := taken.then operandReads
    exact .pure ⟨taken.toReads, fun _ => taken⟩
  · -- The path after a backslash goes on with suffixes even where its root is empty.
    refine (agree_bump_of_ne_nil (proper.pending_ne_nil_of_isAt isPath (by decide))).bind ?_
    intro operator next taken
    refine (settled.primary next position (fueled.advance taken (by decide))).bind ?_
    rintro root last ⟨rootReads, _⟩
    refine (settled.suffixes next last position root rootReads
      (fueled.advance (taken.then rootReads) (by decide))).bind ?_
    rintro operand final ⟨operandReads, _⟩
    have taken := taken.then operandReads
    exact .pure ⟨taken.toReads, fun _ => taken⟩
  · -- An empty root ends the operand, so that suffixes come only after a token.
    refine (settled.primary cursor position (fueled.here (by decide))).bind ?_
    rintro root next ⟨rootReads, rootTaken⟩
    refine .ite (fun _ => .pure ⟨rootReads, rootTaken⟩) fun notEmpty => ?_
    have taken := rootTaken (Bool.not_eq_true _ ▸ notEmpty)
    refine (settled.suffixes cursor next position root rootReads
      (fueled.advance taken (by decide))).mono ?_
    rintro node last ⟨reads, le⟩
    exact ⟨reads, fun _ => ⟨reads, Nat.lt_of_le_of_lt le taken.fewer⟩⟩

theorem primary_succ (settled : Settled n m) (position : Position)
    (fueled : cursor.Fueled 2 (n + 1) (m + 1)) :
    Agree (Parser.primary (n + 1) position) (Parser.primary (m + 1) position) cursor
      fun node next =>
        cursor.Reads node.tokens next ∧ (node.isEmpty = false → cursor.Takes node.tokens next) := by
  have proper := fueled.proper
  have nothing : Agree (pure Expr.empty) (pure Expr.empty) cursor fun node next =>
      cursor.Reads node.tokens next ∧ (node.isEmpty = false → cursor.Takes node.tokens next) :=
    .pure ⟨.refl cursor, by simp [Expr.isEmpty, Expr.empty]⟩
  rw [Parser.primary, Parser.primary]
  refine .ask ?_
  -- Only at the end is there no token, and every kind but that one reads one or gives nothing.
  by_cases atEnd : cursor.peek.kind = .endOfFile
  · rw [atEnd]
    exact nothing
  have rest := proper.pending_ne_nil atEnd
  have single (build : Token → Expr) (tokens : ∀ token, (build token).tokens = [token]) :
      Agree (build <$> bump) (build <$> bump) cursor fun node next =>
        cursor.Reads node.tokens next ∧ (node.isEmpty = false → cursor.Takes node.tokens next) :=
    .map ((agree_bump_of_ne_nil rest).mono fun token _ taken => by
      rw [tokens token]
      exact ⟨taken.toReads, fun _ => taken⟩)
  cases kind : cursor.peek.kind with
  | identifier =>
    refine .ite (fun _ => single _ fun _ => rfl) fun _ => .ite (fun _ => nothing) fun _ => ?_
    exact single _ fun _ => rfl
  | poundIdentifier => exact single _ fun _ => rfl
  | number | stringLiteral => exact single _ fun _ => rfl
  | leftParen =>
    refine .map ((settled.argumentList cursor _ rest (fueled.here (by decide))).mono ?_)
    intro list next taken
    exact ⟨taken.toReads, fun _ => taken⟩
  | leftBracket =>
    refine (settled.collection cursor rest (fueled.here (by decide))).mono ?_
    intro list next taken
    exact ⟨taken.toReads, fun _ => taken⟩
  | leftBrace =>
    refine .ite (fun _ => ?_) fun _ => nothing
    refine .map ((settled.closure cursor rest (fueled.here (by decide))).mono ?_)
    intro closure next taken
    exact ⟨taken.toReads, fun _ => taken⟩
  | period =>
    refine (agree_bump_of_ne_nil rest).bind ?_
    intro period next taken
    refine (agree_bumpIf _ next).bind ?_
    intro name last nameReads
    have taken := taken.then nameReads
    cases name with
    | none =>
      -- The name that is missing has no text, so the period is all that was taken.
      have taken : cursor.Takes [period, .missing .identifier] last :=
        ⟨taken.of_atoms (by simp), taken.fewer⟩
      exact .pure ⟨taken.toReads, fun _ => taken⟩
    | some name => exact .pure ⟨taken.toReads, fun _ => taken⟩
  | _ => exact nothing

theorem suffixes_succ (settled : Settled n m) {start : Cursor} (position : Position) (base : Expr)
    (before : start.Reads base.tokens cursor) (fueled : cursor.Fueled 2 (n + 1) (m + 1)) :
    Agree (Parser.suffixes (n + 1) position base) (Parser.suffixes (m + 1) position base) cursor
      fun node next => start.Reads node.tokens next ∧ next.left ≤ cursor.left := by
  have proper := fueled.proper
  -- Every suffix takes a token and is followed by further suffixes of what it makes.
  have continued {tokens : List Token} {next : Cursor} (taken : cursor.Takes tokens next)
      (longer : Expr) (same : longer.tokens = base.tokens ++ tokens) :
      Agree (Parser.suffixes n position longer) (Parser.suffixes m position longer) next
        fun node last => start.Reads node.tokens last ∧ last.left ≤ cursor.left := by
    have reads : start.Reads longer.tokens next := same ▸ before.trans taken.toReads
    refine (settled.suffixes start next position longer reads
      (fueled.advance taken (by decide))).mono ?_
    rintro node last ⟨nodeReads, le⟩
    exact ⟨nodeReads, Nat.le_trans le (Nat.le_of_lt taken.fewer)⟩
  rw [Parser.suffixes, Parser.suffixes]
  refine .get (.ite (fun isMember => ?_) fun _ => .ite (fun isCall => ?_) fun _ =>
    .ite (fun isIndex => ?_) fun _ => .ite (fun isClosure => ?_) fun _ =>
    .ite (fun isSuffix => ?_) fun _ => ?_)
  · rw [Cursor.atMember, Bool.and_eq_true] at isMember
    refine (agree_bump_of_ne_nil (proper.pending_ne_nil_of_isAt isMember.1 (by decide))).bind ?_
    intro period next taken
    refine (agree_bump next).bind ?_
    intro name last nameReads
    exact continued (taken.then nameReads) _ rfl
  · rw [Bool.and_eq_true] at isCall
    have rest := proper.pending_ne_nil_of_isAt isCall.1 (by decide)
    refine (settled.argumentList cursor _ rest (fueled.here (by decide))).bind ?_
    intro list next taken
    exact continued taken _ (by simp [Expr.tokens, tokensOfClosure?])
  · rw [Bool.and_eq_true] at isIndex
    have rest := proper.pending_ne_nil_of_isAt isIndex.1 (by decide)
    refine (settled.argumentList cursor _ rest (fueled.here (by decide))).bind ?_
    intro list next taken
    exact continued taken _ rfl
  · -- A trailing closure joins the call before it, if that one has none yet.
    simp only [Bool.and_eq_true] at isClosure
    have rest := proper.pending_ne_nil_of_isAt isClosure.1.1.1 (by decide)
    refine (settled.closure cursor rest (fueled.here (by decide))).bind ?_
    intro closure next taken
    exact continued taken _ (Expr.tokens_withClosure isClosure.2 closure)
  · rw [Cursor.atOperator, Bool.and_eq_true] at isSuffix
    refine (agree_bump_of_ne_nil (proper.pending_ne_nil_of_isAt isSuffix.1 (by decide))).bind ?_
    intro operator next taken
    exact continued taken _ rfl
  · -- What is left is a list of generic arguments, or no suffix at all.
    cases generic : cursor.genericArguments? with
    | none => exact .pure ⟨before, Nat.le.refl⟩
    | some length =>
      have rest : cursor.pending ≠ [] := by
        intro none
        simp [Cursor.genericArguments?, none, Cursor.genericRun?] at generic
      have pos : 0 < length := by
        simp only [Cursor.genericArguments?] at generic
        split at generic
        · exact Cursor.pos_of_genericRun generic
        · cases generic
      refine (agree_run_of_pos rest pos).bind ?_
      intro arguments next taken
      exact continued taken _ rfl

theorem argumentList_succ (settled : Settled n m) (closer : TokenKind) (rest : cursor.pending ≠ [])
    (fueled : cursor.Fueled 1 (n + 1) (m + 1)) :
    Agree (Parser.argumentList (n + 1) closer) (Parser.argumentList (m + 1) closer) cursor
      fun node next => cursor.Takes node.tokens next := by
  rw [Parser.argumentList, Parser.argumentList]
  refine (agree_bump_of_ne_nil rest).bind ?_
  intro opener next taken
  refine (settled.arguments next closer (fueled.advance taken (by decide))).bind ?_
  intro arguments last argumentsReads
  refine (agree_expect closer last).bind ?_
  intro closer final closerReads
  have taken := (taken.then argumentsReads).then closerReads
  exact .pure taken

theorem arguments_succ (settled : Settled n m) (closer : TokenKind)
    (fueled : cursor.Fueled 5 (n + 1) (m + 1)) :
    Keeps (Parser.arguments (n + 1) closer) (Parser.arguments (m + 1) closer) tokensOfArguments
      cursor := by
  rw [Parser.arguments, Parser.arguments]
  refine .ask (.ite (fun _ => .pure (.refl cursor)) fun _ => ?_)
  refine (agree_label cursor).bind ?_
  intro label next labelReads
  refine (settled.expr next .free (fueled.lower labelReads (by decide))).bind ?_
  intro value last valueReads
  refine (agree_absorbStray valueReads closer).bind ?_
  intro value last valueReads
  have both := labelReads.trans valueReads
  refine (agree_comma (both.proper fueled.proper)).bind ?_
  rintro comma final ⟨commaReads, commaTaken⟩
  refine .ite (fun nothing => ?_) fun _ => ?_
  · -- An argument without label, value and comma is dropped, and it had no token.
    simp only [Bool.and_eq_true, Option.isNone_iff_eq_none] at nothing
    obtain ⟨⟨rfl, isEmpty⟩, rfl⟩ := nothing
    rw [Expr.tokens_of_isEmpty isEmpty] at both
    exact .pure (both.trans commaReads)
  · refine .join (fun later next => final.Reads (tokensOfArguments later) next) (fun isSome => ?_)
      (fun _ => .pure (.refl final)) ?_
    · exact settled.arguments final closer
        (fueled.advance ((commaTaken isSome).after both) (by decide))
    · intro later next laterReads
      have all := (both.trans commaReads).trans laterReads
      exact .pure (by simpa [tokensOfArguments, Argument.tokens] using all)

theorem collection_succ (settled : Settled n m) (rest : cursor.pending ≠ [])
    (fueled : cursor.Fueled 1 (n + 1) (m + 1)) :
    Agree (Parser.collection (n + 1)) (Parser.collection (m + 1)) cursor fun node next =>
      cursor.Takes node.tokens next := by
  rw [Parser.collection, Parser.collection]
  refine (agree_bump_of_ne_nil rest).bind ?_
  intro opener next taken
  refine .ask (.ite (fun _ => ?_) fun _ => ?_)
  · -- The empty dictionary
    refine (agree_bump next).bind ?_
    intro colon last colonReads
    refine (agree_bump last).bind ?_
    intro closer final closerReads
    exact .pure ((taken.then colonReads).then closerReads)
  · refine (settled.elements next (fueled.advance taken (by decide))).bind ?_
    intro elements last elementsReads
    refine (agree_expect _ last).bind ?_
    intro closer final closerReads
    exact .pure ((taken.then elementsReads).then closerReads)

theorem elements_succ (settled : Settled n m) (fueled : cursor.Fueled 5 (n + 1) (m + 1)) :
    Keeps (Parser.elements (n + 1)) (Parser.elements (m + 1)) tokensOfElements cursor := by
  rw [Parser.elements, Parser.elements]
  refine .ask (.ite (fun _ => .pure (.refl cursor)) fun _ => ?_)
  refine (settled.expr cursor .free (fueled.here (by decide))).bind ?_
  intro first next firstReads
  have proper := firstReads.proper fueled.proper
  refine (agree_bumpIf_of_ne_nil
    fun colon => proper.pending_ne_nil_of_isAt colon (by decide)).bind ?_
  rintro colon last ⟨colonReads, colonTaken⟩
  cases colon with
  | some colon =>
    -- The colon pays for the value, whatever the key was.
    have taken := (colonTaken rfl).after firstReads
    refine (settled.expr last .free (fueled.advance taken (by decide))).bind ?_
    intro value last valueReads
    refine (agree_absorbStray valueReads _).bind ?_
    intro value last valueReads
    have taken := taken.then valueReads
    refine (agree_comma (taken.proper fueled.proper)).bind ?_
    rintro comma final ⟨commaReads, commaTaken⟩
    refine .join (fun later next => final.Reads (tokensOfElements later) next) (fun isSome => ?_)
      (fun _ => .pure (.refl final)) ?_
    · exact settled.elements final (fueled.advance (taken.then commaReads) (by decide))
    · intro later next laterReads
      have all := (taken.toReads.trans commaReads).trans laterReads
      exact .pure (by simpa [tokensOfElements, CollectionElement.tokens] using all)
  | none =>
    have valueReads : cursor.Reads first.tokens last := by simpa using firstReads.trans colonReads
    refine (agree_absorbStray valueReads _).bind ?_
    intro value last valueReads
    refine (agree_comma (valueReads.proper fueled.proper)).bind ?_
    rintro comma final ⟨commaReads, commaTaken⟩
    refine .ite (fun nothing => ?_) fun _ => ?_
    · -- An element without value and comma is dropped like an argument.
      rw [Bool.and_eq_true, Option.isNone_iff_eq_none] at nothing
      obtain ⟨isEmpty, rfl⟩ := nothing
      rw [Expr.tokens_of_isEmpty isEmpty] at valueReads
      exact .pure (valueReads.trans commaReads)
    · refine .join (fun later next => final.Reads (tokensOfElements later) next) (fun isSome => ?_)
        (fun _ => .pure (.refl final)) ?_
      · exact settled.elements final
          (fueled.advance ((commaTaken isSome).after valueReads) (by decide))
      · intro later next laterReads
        have all := (valueReads.trans commaReads).trans laterReads
        exact .pure (by simpa [tokensOfElements, CollectionElement.tokens] using all)

theorem closure_succ (settled : Settled n m) (rest : cursor.pending ≠ [])
    (fueled : cursor.Fueled 1 (n + 1) (m + 1)) :
    Agree (Parser.closure (n + 1)) (Parser.closure (m + 1)) cursor fun node next =>
      cursor.Takes node.tokens next := by
  rw [Parser.closure, Parser.closure]
  refine (agree_bump_of_ne_nil rest).bind ?_
  intro opener next taken
  refine (agree_closureSignature next).bind ?_
  intro signature last signatureReads
  have taken := taken.then signatureReads
  refine (settled.statements last (fueled.advance taken (by decide))).bind ?_
  intro statements last statementsReads
  refine (agree_expect _ last).bind ?_
  intro closer final closerReads
  exact .pure ((taken.then statementsReads).then closerReads)

end Settled

end SuiteMigration
