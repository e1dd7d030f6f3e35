import Mathlib.Tactic.Common
import SuiteMigration.Proofs.Expectation.Conditions
import SuiteMigration.Proofs.Reading.Continuation

/-!
# An argument in the text of a condition

An argument of a source is written into the text of a condition, and the text is read again. The words
of the argument are there again, with the same trivia between them, in parentheses or not. So what is
left of the source at the argument and what is left of the text are abreast, and the argument is read
from the text as it was read from the source.

## Main definitions

* `Expr.IsArgumentAt` - the grammar reads the expression between two places of a source as an argument
* `closesGroups`, `closesAngles` - what the tokens open is closed in them

## Main results

* `exists_of_spelling_parentheses` - how the text of an expression in parentheses is read
* `Expr.IsArgumentAt.reads_again` - the argument is read again, with the same operators
* `Expr.IsArgumentAt.reads_parenthesized` - in parentheses it is read again as a tuple
-/

namespace SuiteMigration

open Lexeme

/-! ### Words and the gaps before them -/

section Spelling

variable {gap gap' : List Char} {token : Token} {tokens tokens' front later back : List Token}

/-- A list of words begins with the word that it should begin with. -/
theorem exists_of_spelling_cons (word : token.text ≠ "") (words' : Whole tokens')
    (same : spelling gap' tokens' = spelling gap (token :: later)) :
    ∃ token' later', tokens' = token' :: later' ∧ token.Like token' ∧
      gap ++ token.leading.toList = gap' ++ token'.leading.toList ∧
      spelling token'.trailing.toList later' = spelling token.trailing.toList later := by
  rw [spelling, if_neg word] at same
  cases tokens' with
  | nil => cases same
  | cons token' later' =>
    rw [spelling, if_neg (words' token' List.mem_cons_self)] at same
    obtain ⟨first, rest⟩ := List.cons.inj same
    obtain ⟨gaps, kinds, texts⟩ := by simpa only [Prod.mk.injEq] using first
    exact ⟨token', later', rfl, ⟨kinds.symm, texts.symm⟩, gaps.symm, rest⟩

theorem eq_nil_of_spelling (words' : Whole tokens') (same : spelling gap' tokens' = []) :
    tokens' = [] := by
  cases tokens' with
  | nil => rfl
  | cons token' later' =>
    rw [spelling, if_neg (words' token' List.mem_cons_self)] at same
    cases same

/-- A list of words begins with the words that it should begin with. -/
theorem exists_of_spelling_append (words : Whole front) (words' : Whole tokens')
    (same : spelling gap' tokens' = spelling gap (front ++ back)) :
    ∃ front' back', tokens' = front' ++ back' ∧ spelling gap' front' = spelling gap front ∧
      spelling (gapAfter gap' front') back' = spelling (gapAfter gap front) back := by
  induction front generalizing gap gap' tokens' with
  | nil => exact ⟨[], tokens', rfl, rfl, same⟩
  | cons token front ih =>
    rw [Whole, List.forall_mem_cons] at words
    obtain ⟨token', later', rfl, like, gaps, rest⟩ := exists_of_spelling_cons words.1 words' same
    rw [Whole, List.forall_mem_cons] at words'
    obtain ⟨front', back', rfl, first, second⟩ := ih words.2 words'.2 rest
    refine ⟨token' :: front', back', rfl, ?_, ?_⟩
    · rw [spelling, spelling, if_neg words.1, if_neg words'.1, like.kind, like.text, gaps, first]
    · rwa [gapAfter, gapAfter, if_neg words.1, if_neg words'.1]

theorem spelling_modifyLast (words : Whole tokens) (trailing : Trivia) :
    spelling gap (modifyLast (·.withTrailing trailing) tokens) = spelling gap tokens := by
  rcases List.eq_nil_or_concat tokens with rfl | ⟨front, last, rfl⟩
  · rfl
  · rw [List.concat_eq_append] at *
    have word : last.text ≠ "" := words last (by simp)
    simp [modifyLast_concat, spelling_append, spelling, Token.withTrailing, word]

theorem gapAfter_of_getLast? (words : Whole tokens) {last : Token}
    (isLast : tokens.getLast? = some last) : gapAfter gap tokens = last.trailing.toList := by
  obtain ⟨front, rfl⟩ := List.getLast?_eq_some_iff.1 isLast
  rw [gapAfter_append, gapAfter, if_neg (words last (by simp))]
  rfl

/-- Runs of words with the same gaps between them have the same words where they stand. -/
theorem Echoes.of_spelling {passage : Passage} {before before' : Token} (like : before.Like before')
    (words : Whole tokens) (words' : Whole tokens')
    (same : spelling before'.trailing.toList tokens' = spelling before.trailing.toList tokens)
    (parts : ∀ last last', (before :: tokens).getLast? = some last →
      (before' :: tokens').getLast? = some last' → last.Like last' → passage.Parts last last') :
    Echoes passage before tokens before' tokens' := by
  induction tokens generalizing before before' tokens' with
  | nil =>
    obtain rfl := eq_nil_of_spelling words' same
    exact .nil (parts before before' rfl rfl like)
  | cons token later ih =>
    rw [Whole, List.forall_mem_cons] at words
    obtain ⟨token', later', rfl, like', gaps, rest⟩ := exists_of_spelling_cons words.1 words' same
    rw [Whole, List.forall_mem_cons] at words'
    refine .cons like' ?_ (ih like' words.2 words'.2 rest fun last last' isLast isLast' => ?_)
    · rw [← String.toList_inj, String.toList_append, String.toList_append, gaps]
    · exact parts last last' (by rwa [List.getLast?_cons_cons]) (by rwa [List.getLast?_cons_cons])

/-- The words of a text that is read as it should be are those that it was written from. -/
theorem map_text_of_spelling (words : Whole tokens) (words' : Whole tokens')
    (same : spelling gap' tokens' = spelling gap tokens) :
    tokens'.map Token.text = tokens.map Token.text := by
  have filtered {tokens : List Token} (words : Whole tokens) :
      (tokens.filter fun token => token.text != "") = tokens :=
    List.filter_eq_self.2 fun token member => by simpa using words token member
  have both := congrArg (List.map Prod.snd) same
  rw [map_snd_spelling, map_snd_spelling, filtered words, filtered words'] at both
  have texts := congrArg (List.map Prod.snd) both
  rwa [List.map_map, List.map_map] at texts

end Spelling

/-- Tokens touch if there is nothing between them. -/
theorem adjacent_iff {before token : Token} : adjacent (some before) token = true ↔
    before.trailing.toList ++ token.leading.toList = [] := by
  simp [adjacent, and_comm]

theorem adjacent_eq_false_iff {before token : Token} : adjacent (some before) token = false ↔
    before.trailing.toList ++ token.leading.toList ≠ [] := by
  rw [← Bool.not_eq_true, adjacent_iff]

/-! ### Tokens without the trivia at their ends -/

namespace Token

theorem IsMark.word {token : Token} (mark : token.IsMark) : token.text ≠ "" := by
  intro none
  exact mark.text_ne (by rw [none]; rfl)

variable {token : Token} {tokens : List Token}

theorem whole_modifyFirst (words : Whole tokens) (leading : Trivia) :
    Whole (modifyFirst (·.withLeading leading) tokens) := by
  cases tokens with
  | nil => exact words
  | cons first later =>
    rw [Whole, List.forall_mem_cons] at words
    exact List.forall_mem_cons.2 words

theorem whole_modifyLast (words : Whole tokens) (trailing : Trivia) :
    Whole (modifyLast (·.withTrailing trailing) tokens) := by
  rcases List.eq_nil_or_concat tokens with rfl | ⟨front, last, rfl⟩
  · exact words
  · rw [List.concat_eq_append] at *
    rw [modifyLast_concat]
    rw [Whole, List.forall_mem_append, List.forall_mem_singleton] at words ⊢
    exact words

theorem exists_atoms_withLeading (word : token.text ≠ "") :
    ∃ first later, token.atoms = first :: later ∧ first.kind = token.kind ∧
      ∀ leading, (token.withLeading leading).atoms = first.withLeading leading :: later := by
  have width (leading : Trivia) : (token.withLeading leading).render ≠ "" := render_ne_empty word
  unfold atoms
  rw [if_neg (render_ne_empty word)]
  by_cases fused : token.kind = .identifier ∧ (token.text = "as?" ∨ token.text = "as!")
  · refine ⟨_, _, if_pos fused, rfl, fun leading => ?_⟩
    rw [if_neg (width leading)]
    exact if_pos fused
  · refine ⟨_, _, if_neg fused, rfl, fun leading => ?_⟩
    rw [if_neg (width leading)]
    exact if_neg fused

theorem atomsOf_modifyFirst (words : Whole tokens) (leading : Trivia) :
    atomsOf (modifyFirst (·.withLeading leading) tokens) =
      modifyFirst (·.withLeading leading) (atomsOf tokens) := by
  cases tokens with
  | nil => rfl
  | cons token later =>
    obtain ⟨first, rest, own, -, moved⟩ := exists_atoms_withLeading (words token List.mem_cons_self)
    rw [modifyFirst, atomsOf_cons, atomsOf_cons, own, moved]
    rfl

/-- The first token of a tree has the class of the first one that the tree stands for. -/
theorem kind_of_atomsOf (words : Whole tokens) {lead : Token} {later : List Token}
    (atoms : atomsOf tokens = lead :: later) :
    ∃ first rest, tokens = first :: rest ∧ first.kind = lead.kind := by
  cases tokens with
  | nil => cases atoms
  | cons token rest =>
    obtain ⟨first, others, own, kind, -⟩ := exists_atoms_withLeading (words token List.mem_cons_self)
    rw [atomsOf_cons, own, List.cons_append] at atoms
    exact ⟨token, rest, rfl, kind ▸ congrArg Token.kind (List.cons.inj atoms).1⟩

theorem map_text_modifyFirst (words : Whole tokens) (leading : Trivia) :
    (atomsOf (modifyFirst (·.withLeading leading) tokens)).map text = (atomsOf tokens).map text := by
  rw [atomsOf_modifyFirst words]
  cases atomsOf tokens <;> rfl

theorem atomsOf_modifyLast (words : Whole tokens) (trailing : Trivia) :
    atomsOf (modifyLast (·.withTrailing trailing) tokens) =
      modifyLast (·.withTrailing trailing) (atomsOf tokens) := by
  rcases List.eq_nil_or_concat tokens with rfl | ⟨front, token, rfl⟩
  · rfl
  · rw [List.concat_eq_append] at *
    obtain ⟨inner, last, own, -, moved⟩ := exists_atoms_withTrailing (words token (by simp))
    rw [modifyLast_concat, atomsOf_append, atomsOf_append, atomsOf_cons, atomsOf_cons, own, moved,
      atomsOf_nil, List.append_nil, List.append_nil, ← List.append_assoc, ← List.append_assoc,
      modifyLast_concat]

end Token

theorem Expr.whole_wrapped (expr : Expr) (whole : Whole expr.tokens) (wraps : Bool) :
    Whole (expr.wrapped wraps).tokens := by
  cases wraps with
  | false => exact whole
  | true =>
    have inner := Token.whole_modifyLast (Token.whole_modifyFirst whole "") ""
    show Whole expr.parenthesized.tokens
    rw [expr.tokens_parenthesized, tokens_setLeading_setTrailing, List.cons_append]
    exact List.forall_mem_cons.2 ⟨(isMark_opener _).word, List.forall_mem_append.2
      ⟨inner, List.forall_mem_singleton.2 (isMark_closer _).word⟩⟩

/-- An expression in parentheses is read as a parenthesis, the words of the expression with the same
gaps between them, and another parenthesis. -/
theorem exists_of_spelling_parentheses {expr : Expr} {leading trailing : Trivia}
    {gap gap' : List Char} {lead : Token} {later tokens' back : List Token} (whole : Whole expr.tokens)
    (tokens : Token.atomsOf expr.tokens = lead :: later) (words : Whole (lead :: later))
    (words' : Whole tokens') (same : spelling gap' tokens' =
      spelling gap (Token.atomsOf (parentheses leading trailing expr) ++ back)) :
    ∃ opener lead' later' closer back', tokens' = opener :: lead' :: (later' ++ closer :: back') ∧
      opener.kind = .leftParen ∧ gap ++ leading.toList = gap' ++ opener.leading.toList ∧
      lead.Like lead' ∧
      spelling lead'.trailing.toList later' = spelling lead.trailing.toList later ∧
      closer.kind = .rightParen ∧ closer.text = ")" ∧
      spelling closer.trailing.toList back' = spelling trailing.toList back := by
  rw [parentheses, Token.atomsOf_cons, (isMark_opener leading).atoms, Token.atomsOf_append,
    tokens_setLeading_setTrailing, Token.atomsOf_modifyLast (Token.whole_modifyFirst whole ""),
    Token.atomsOf_modifyFirst whole, tokens,
    Token.atomsOf_cons, (isMark_closer trailing).atoms, Token.atomsOf_nil, List.append_nil,
    List.append_assoc, List.append_assoc, List.singleton_append, List.singleton_append] at same
  obtain ⟨opener, inner', rfl, isOpener, gaps, same⟩ := exists_of_spelling_cons
    (isMark_opener leading).word words' same
  rw [Whole, List.forall_mem_cons] at words'
  obtain ⟨-, words'⟩ := words'
  have bare := Token.whole_modifyFirst words ""
  obtain ⟨front', behind', rfl, front, behind⟩ := exists_of_spelling_append
    (Token.whole_modifyLast bare "") words' same
  rw [List.forall_mem_append] at words'
  rw [spelling_modifyLast bare] at front
  rw [Whole, List.forall_mem_cons] at words
  obtain ⟨lead', later', rfl, isLead, -, later_eq⟩ := exists_of_spelling_cons
    (show (lead.withLeading "").text ≠ "" from words.1) words'.1 front
  obtain ⟨closer, back', rfl, isCloser, -, back_eq⟩ := exists_of_spelling_cons
    (isMark_closer trailing).word words'.2 behind
  exact ⟨opener, lead', later', closer, back', rfl, isOpener.kind.symm, gaps,
    ⟨isLead.kind, isLead.text⟩, later_eq, isCloser.kind.symm, isCloser.text.symm, back_eq⟩

/-! ### Arguments in a source -/

deriving instance DecidableEq for Cursor

/-- Every delimiter that the tokens open is closed in them. -/
def closesGroups : List Token → Bool
  | [] => true
  | token :: later => (!token.kind.isOpening || (closing? 1 later).isSome) && closesGroups later

theorem closing?_of_closesGroups {tokens later : List Token} {opener : Token}
    (closed : closesGroups tokens = true) (behind : opener :: later <:+ tokens)
    (opening : opener.kind.isOpening = true) : (closing? 1 later).isSome = true := by
  induction tokens with
  | nil => cases List.suffix_nil.1 behind
  | cons token rest ih =>
    rw [closesGroups, Bool.and_eq_true] at closed
    rcases List.suffix_cons_iff.1 behind with same | behind
    · obtain ⟨rfl, rfl⟩ := List.cons.inj same
      simpa [opening] using closed.1
    · exact ih closed.2 behind

/-- A generic argument list that the tokens begin does not go on behind them. -/
def closesAngles : List Token → Bool
  | before :: token :: later =>
    (!(token.opensAngle && adjacent (some before) token) ||
      !Cursor.genericOpen false 0 none (token :: later)) && closesAngles (token :: later)
  | _ => true

theorem genericOpen_of_closesAngles {tokens later : List Token} {before token : Token}
    (closed : closesAngles tokens = true) (behind : before :: token :: later <:+ tokens)
    (opens : token.opensAngle = true) (touches : adjacent (some before) token = true) :
    Cursor.genericOpen false 0 none (token :: later) = false := by
  induction tokens with
  | nil => cases List.suffix_nil.1 behind
  | cons first rest ih =>
    rcases List.suffix_cons_iff.1 behind with same | behind
    · obtain ⟨rfl, rfl⟩ := List.cons.inj same
      rw [closesAngles, Bool.and_eq_true] at closed
      simpa [opens, touches] using closed.1
    · cases rest with
      | nil => cases List.suffix_nil.1 behind
      | cons second others =>
        rw [closesAngles, Bool.and_eq_true] at closed
        exact ih closed.2 behind

/-- The grammar reads the expression between two places of a source as an argument: it stands behind
the parenthesis, the comma or the label before it and goes up to the comma or the parenthesis after
it. Something is read, nothing is left over, and no token and no delimiter is missing. -/
structure Expr.IsArgumentAt (expr : Expr) (source : String) (first last : Nat) : Prop where
  read : Parser.expr (fuelFor (tokenize source)) .free ((tokenize source).cursorAt first) =
    some (expr, (tokenize source).cursorAt last)
  behind : ((tokenize source).cursorAt first).previous.any (Cursor.opensLeft ·.kind) = true
  unlabelled : ((tokenize source).cursorAt first).atLabel = false
  ahead : ((tokenize source).cursorAt last).isAt .comma = true ∨
    ((tokenize source).cursorAt last).isAt .rightParen = true
  nonempty : expr.isEmpty = false
  whole : Whole expr.tokens
  closed : closesGroups (Token.atomsOf expr.tokens) = true

namespace Expr.IsArgumentAt

variable {expr : Expr} {source : String} {first last : Nat}

/-- The fuel for a source is enough at each of its places. -/
theorem enough_fuel (source : String) (index : Nat) :
    24 * ((tokenize source).cursorAt index).left + 4 ≤ fuelFor (tokenize source) := by
  rw [TokenStream.left_cursorAt, fuelFor]
  omega

section

variable (argument : expr.IsArgumentAt source first last)

include argument

/-- With more fuel the argument is read in the same way. -/
theorem reads {fuel : Nat} (enough : fuelFor (tokenize source) ≤ fuel) :
    Parser.expr fuel .free ((tokenize source).cursorAt first) =
        some (expr, (tokenize source).cursorAt last) ∧
      ((tokenize source).cursorAt first).Reads expr.tokens ((tokenize source).cursorAt last) := by
  have suffices_ := enough_fuel source first
  exact ((settled (fuelFor (tokenize source)) fuel).expr ((tokenize source).cursorAt first) .free
    ⟨rfl, suffices_, Nat.le_trans suffices_ enough⟩).transfer argument.read

/-- The argument begins with some token, and an expression can begin with it. -/
theorem starts : ((tokenize source).cursorAt last).left < ((tokenize source).cursorAt first).left ∧
    Parser.startsExpression ((tokenize source).cursorAt first).peek.kind = true := by
  obtain ⟨operand, rest, middle, readFirst, some, readRest, -⟩ :=
    Parser.expr_eq_some (argument.reads (Nat.le_succ _)).1 argument.nonempty
  have enough := Nat.le_trans (Nat.le_succ _) (enough_fuel source first)
  obtain ⟨-, -, takes⟩ := ((settled (fuelFor (tokenize source)) _).unary
    ((tokenize source).cursorAt first) .free ⟨rfl, enough, enough⟩).transfer readFirst
  have later := ((Parser.allForward _).terms .free 0 _ _ _ readRest).suffix.length_le
  exact ⟨Nat.lt_of_le_of_lt later (takes some).fewer, Parser.starts_of_unary readFirst some⟩

/-- The argument stands for the tokens between the two places, and there are some. -/
theorem taken : ∃ lead later, Token.atomsOf expr.tokens = lead :: later ∧
    ((tokenize source).cursorAt first).pending =
      lead :: later ++ ((tokenize source).cursorAt last).pending := by
  have own (index : Nat) : Token.atomsOf ((tokenize source).cursorAt index).pending =
      ((tokenize source).cursorAt index).pending := by
    refine Token.atomsOf_eq_self fun token member => ?_
    obtain ⟨before, later, split⟩ := List.append_of_mem (List.mem_of_mem_drop member)
    exact (severed_tokenize split).atoms
  have atoms := (argument.reads (Nat.le_refl _)).2.atoms
  rw [own, own] at atoms
  have fewer := argument.starts.1
  cases tokens : Token.atomsOf expr.tokens with
  | nil =>
    rw [tokens, List.nil_append] at atoms
    rw [Cursor.left, Cursor.left, atoms] at fewer
    exact absurd fewer (Nat.lt_irrefl _)
  | cons lead later => exact ⟨lead, later, rfl, tokens ▸ atoms⟩

/-- The comma or the parenthesis behind the argument. -/
theorem exists_behind : ∃ mark rest, ((tokenize source).cursorAt last).pending = mark :: rest ∧
    mark ∈ (tokenize source).tokens ∧ (mark.kind = .comma ∨ mark.kind = .rightParen) := by
  have ahead := argument.ahead
  simp only [Cursor.isAt, beq_iff_eq] at ahead
  cases pending : ((tokenize source).cursorAt last).pending with
  | nil =>
    rw [Cursor.peek_of_pending_eq_nil pending] at ahead
    rcases ahead with kind | kind <;> cases kind
  | cons mark rest =>
    rw [Cursor.peek, pending] at ahead
    exact ⟨mark, rest, rfl, List.mem_of_mem_drop (pending ▸ List.mem_cons_self), ahead⟩

variable (given : Node.render (SourceFile.parse source) = source)

include given

/-- The argument is legible where it stands, and so is what is behind it. -/
theorem legible : ∃ rest, Legible ((tokenize source).tokens.take first ++
    (Token.atomsOf expr.tokens ++ ((tokenize source).cursorAt last).pending)) rest ∧
    (tokenize source).tokens = (tokenize source).tokens.take first ++
      (Token.atomsOf expr.tokens ++ ((tokenize source).cursorAt last).pending) := by
  have rendered : Token.renderAll (tokenize source).toList = source :=
    (SourceFile.render_ofTokens rfl).symm.trans given
  obtain ⟨lead, later, tokens, pending⟩ := argument.taken
  have split : (tokenize source).tokens = (tokenize source).tokens.take first ++
      (Token.atomsOf expr.tokens ++ ((tokenize source).cursorAt last).pending) := by
    rw [tokens, ← pending]
    exact (List.take_append_drop first _).symm
  exact ⟨_, split ▸ (legible_tokenize rendered).1, split⟩

/-- The argument is an operand, if the source is given back. -/
theorem operand (lone : ∀ token ∈ (tokenize source).tokens, Piece.isLone token.text.toList = false) :
    ∃ old, old ≠ [] ∧ Operand expr.tokens old := by
  obtain ⟨mark, later, pending, isToken, -⟩ := argument.exists_behind
  obtain ⟨rest, legible, split⟩ := argument.legible given
  rw [pending, legible_append, legible_append] at legible
  refine ⟨_, ?_, fun token member => ?_, legible.2.1⟩
  · exact List.append_ne_nil_of_left_ne_nil
      (renderAll_ne_nil (text_ne_of_mem_tokenize isToken) later) _
  · have isToken : token ∈ (tokenize source).tokens := by
      rw [split]
      exact List.mem_append_right _ (List.mem_append_left _ member)
    exact ⟨text_ne_of_mem_tokenize isToken, lone token isToken⟩

theorem endsOperand : ((tokenize source).cursorAt last).peek.EndsOperand := by
  obtain ⟨mark, later, pending, isToken, kinds⟩ := argument.exists_behind
  obtain ⟨rest, legible, -⟩ := argument.legible given
  rw [pending, legible_append, legible_append] at legible
  have leads := legible.2.2.1.word (text_ne_of_mem_tokenize isToken)
  rw [Cursor.peek, pending, List.headD_cons]
  have text {c : Char} (sign : TokenKind.ofPunctuation? c = some mark.kind) :
      mark.text = String.ofList [c] := by
    rw [← Piece.text_of_punctuation sign leads, String.ofList_toList]
  rcases kinds with kind | kind
  · have same : mark.text = "," := text (c := ',') (by rw [kind]; rfl)
    rw [Token.EndsOperand, kind, same]
    decide
  · have same : mark.text = ")" := text (c := ')') (by rw [kind]; rfl)
    rw [Token.EndsOperand, kind, same]
    decide

end

end Expr.IsArgumentAt

/-! ### The argument in another stream -/

/-- The way through an argument, up to some place of another stream. -/
def Expr.passage (expr : Expr) (source : String) (last : Nat) (stop' : Cursor) : Passage where
  way := Token.atomsOf expr.tokens
  stop := (tokenize source).cursorAt last
  stop' := stop'

namespace Expr.IsArgumentAt

variable {expr : Expr} {source : String} {first last : Nat} {stop' : Cursor}
  (argument : expr.IsArgumentAt source first last)
  (given : Node.render (SourceFile.parse source) = source)

include argument given

theorem ends (stop' : Cursor) (behind : stop'.peek.EndsOperand ∨ stop'.BetweenBlanks)
    (noComma : stop'.isAt .comma = false) (proper' : stop'.Proper)
    (generics : closesAngles (Token.atomsOf expr.tokens) = true ∨ ∀ begun depth previous,
      Cursor.genericRun? stop'.endOfFile begun depth previous stop'.pending = none) :
    (expr.passage source last stop').Ends where
  proper := rfl
  proper' := proper'
  rest := by
    obtain ⟨mark, rest, pending, -⟩ := argument.exists_behind
    exact pending ▸ List.cons_ne_nil mark rest
  kind := argument.ahead.imp beq_iff_eq.1 beq_iff_eq.1
  kind' := by
    rcases behind with closer | between
    · have all : ∀ entry ∈ operandEnds, entry.1 ≠ .comma →
          entry.1 = .rightParen ∨ entry.1 = .endOfFile := by decide
      exact (all _ closer (beq_eq_false_iff_ne.1 noComma)).imp_right .inl
    · exact .inr (.inr between.kind)
  word := (argument.endsOperand given).word
  word' := behind.elim (·.word) (·.word)
  right := fun operator => by
    rcases behind with closer | between
    · exact Bool.noConfusion (operator.symm.trans closer.not_operator)
    · exact between.right
  enclosed := fun opener later behind opening =>
    closing?_of_closesGroups argument.closed behind opening
  generics := generics.imp_left fun closed _ _ _ behind opens touches =>
    genericOpen_of_closesAngles closed behind opens touches

theorem parts {token token' : Token} (like : token.Like token')
    (behind : stop'.peek.EndsOperand ∨ stop'.BetweenBlanks ∧ stop'.previous = some token' ∧
      token.text ∉ ["init", "operator"]) : (expr.passage source last stop').Parts token token' where
  apart := fun operator => by
    rcases behind with closer | ⟨between, previous, -⟩
    · exact Bool.noConfusion (operator.symm.trans closer.not_operator)
    · have left := between.left
      rwa [Cursor.atAdjacent, previous] at left
  declares := by
    have own := (argument.endsOperand given).declares token
    rcases behind with closer | ⟨between, -, word⟩
    · exact own.trans ((closer.declares token').symm ▸ by rw [like.kind, like.text])
    · rw [like.text] at word
      exact own.trans ((between.declares word).symm ▸ by rw [like.kind, like.text])

omit given in
theorem words : Whole (Token.atomsOf expr.tokens) := by
  obtain ⟨lead, later, tokens, pending⟩ := argument.taken
  intro token member
  have ahead : token ∈ ((tokenize source).cursorAt first).pending := by
    rw [pending, ← tokens]
    exact List.mem_append_left _ member
  exact text_ne_of_mem_tokenize (List.mem_of_mem_drop ahead)

omit given in
/-- Without the trivia in front of it the argument stands for the same tokens. -/
theorem atomsOf_setLeading {lead : Token} {later : List Token}
    (tokens : Token.atomsOf expr.tokens = lead :: later) :
    Token.atomsOf (Node.setLeading expr "").tokens = lead.withLeading "" :: later := by
  rw [show (Node.setLeading expr "").tokens = modifyFirst (·.withLeading "") expr.tokens from
    Node.tokens_setLeading expr "", Token.atomsOf_modifyFirst argument.whole, tokens]
  rfl

/-- The argument and its words in another stream can be read abreast. -/
theorem level (cursor' stop' : Cursor) {lead lead' : Token} {later later' : List Token}
    (tokens : Token.atomsOf expr.tokens = lead :: later)
    (pending' : cursor'.pending = lead' :: (later' ++ stop'.pending))
    (endOfFile' : cursor'.endOfFile = stop'.endOfFile)
    (bound : lead.kind = .operator → cursor'.leftBound = false)
    (like : lead.Like lead') (words' : Whole later')
    (same : spelling lead'.trailing.toList later' = spelling lead.trailing.toList later)
    (behind : stop'.peek.EndsOperand ∨ stop'.BetweenBlanks ∧
      stop'.previous = (lead' :: later').getLast? ∧
      ∀ token ∈ (lead :: later).getLast?, token.text ∉ ["init", "operator"]) :
    Level (expr.passage source last stop') ((tokenize source).cursorAt first) cursor' := by
  obtain ⟨lead₀, later₀, tokens₀, pending⟩ := argument.taken
  obtain ⟨rfl, rfl⟩ := List.cons.inj (tokens.symm.trans tokens₀)
  have way : (expr.passage source last stop').way = lead :: later := tokens
  have words := argument.words
  rw [tokens, Whole, List.forall_mem_cons] at words
  have echoes : Echoes (expr.passage source last stop') lead later lead' later' := by
    refine .of_spelling like words.2 words' same fun token token' isLast isLast' like => ?_
    refine argument.parts given like (behind.imp_right fun operator => ?_)
    exact ⟨operator.1, operator.2.1.trans isLast', operator.2.2 token isLast⟩
  have abreast := Abreast.mk (way ▸ List.suffix_rfl) like echoes
  refine .start pending pending' (way ▸ List.mem_cons_self) like ?_ fun operator => ?_
  · rw [endOfFile']
    exact abreast
  · rw [bound operator, Cursor.leftBound, argument.behind, Bool.not_true, Bool.and_false]

end Expr.IsArgumentAt

/-! ### Reading the argument again -/

/-- No operators stand at the top of an operand without a mark. -/
theorem Parser.operators_of_unmarked {fuel : Nat} {position : Position} {cursor next : Cursor}
    {expr : Expr} (given : Parser.unary fuel position cursor = some (expr, next))
    (unmarked : expr.isMarked = false) : expr.operators = [] := by
  cases fuel with
  | zero => cases given
  | succ fuel =>
    rcases unary_eq_some given with ⟨-, _, _, _, rfl, -⟩ | ⟨-, _, rfl, -⟩ | ⟨-, _, rfl, -⟩ |
      ⟨-, _, rfl, -⟩ | isPostfix
    · cases unmarked
    · cases unmarked
    · rfl
    · rfl
    · exact (Expr.operators_of_isPostfix isPostfix).1

namespace Expr.IsArgumentAt

variable {expr : Expr} {source : String} {first last fuel : Nat} {cursor' stop' : Cursor}

/-- In front of what ends an operand the argument is read again, with the same operators at the top if
it is not marked. -/
theorem reads_again (argument : expr.IsArgumentAt source first last)
    (enough : fuelFor (tokenize source) ≤ fuel + 1)
    (level : Level (expr.passage source last stop') ((tokenize source).cursorAt first) cursor')
    (ends : (expr.passage source last stop').Ends) (closer : stop'.peek.EndsOperand) :
    ∃ operand rest middle next, operand.isEmpty = false ∧
      (expr.isMarked = false → (rest.map fun term => term.operator.text) = expr.operators) ∧
      Parser.unary fuel .free cursor' = some (operand, middle) ∧
      Parser.terms fuel .free 0 middle = some (rest, next) ∧
      next.pending = stop'.pending ∧ next.endOfFile = stop'.endOfFile := by
  obtain ⟨operand, rest, middle, readOperand, nonempty, readRest, isExpr⟩ :=
    Parser.expr_eq_some (argument.reads enough).1 argument.nonempty
  have wholeParts : Whole (operand.tokens ++ tokensOfTerms rest) := by
    rw [← Expr.tokens_ofTerms, ← isExpr]
    exact argument.whole
  rw [Whole, List.forall_mem_append] at wholeParts
  have passes := (Parser.allForward fuel).terms .free 0 _ _ _ readRest
  have reach := Parser.allReach ends fuel
  have quiet : (expr.passage source last stop').Quiet := closer.not_operator
  obtain ⟨operand', middle', readOperand', same, moved⟩ := reach.unary .free level readOperand
    wholeParts.1 passes.suffix.length_le (.inl (.inr quiet))
  obtain ⟨rest', next', readRest', texts, abreast⟩ := reach.terms .free 0
    (moved.resolve_right fun none => by simp [nonempty] at none) readRest wholeParts.2 (Nat.le_refl _)
    (.inr quiet)
  obtain ⟨pending, endOfFile⟩ := abreast.at_stop (Nat.lt_irrefl _)
  refine ⟨operand', rest', middle', next', same.isEmpty ▸ nonempty, fun unmarked => ?_, readOperand',
    readRest', pending, endOfFile⟩
  rw [← texts]
  cases rest with
  | nil =>
    rw [isExpr] at unmarked ⊢
    exact (Parser.operators_of_unmarked readOperand unmarked).symm
  | cons term later => rw [isExpr, Expr.operators_ofTerms _ (List.cons_ne_nil _ _)]

/-- In parentheses the argument is read again as a tuple. -/
theorem reads_parenthesized (argument : expr.IsArgumentAt source first last)
    (given : Node.render (SourceFile.parse source) = source)
    (enough : fuelFor (tokenize source) ≤ fuel + 1) (cursor' : Cursor) {opener lead lead' closer : Token}
    {later later' back' : List Token} (tokens : Token.atomsOf expr.tokens = lead :: later)
    (pending' : cursor'.pending = opener :: lead' :: (later' ++ closer :: back'))
    (proper' : cursor'.Proper) (opens : opener.kind = .leftParen) (like : lead.Like lead')
    (words' : Whole later')
    (same : spelling lead'.trailing.toList later' = spelling lead.trailing.toList later)
    (closes : closer.kind = .rightParen) (closerText : closer.text = ")")
    (ending : (Cursor.mk (some closer) back' cursor'.endOfFile).peek.kind = .endOfFile ∨
      (Cursor.mk (some closer) back' cursor'.endOfFile).BetweenBlanks)
    (generics : closesAngles (Token.atomsOf expr.tokens) = true ∨ ∀ begun depth previous,
      Cursor.genericRun? cursor'.endOfFile begun depth previous back' = none) :
    ∃ list, Parser.unary (fuel + 5) .free cursor' =
      some (.tuple list, ⟨some closer, back', cursor'.endOfFile⟩) := by
  have isNext : cursor'.bump =
      (opener, ⟨some opener, lead' :: (later' ++ closer :: back'), cursor'.endOfFile⟩) :=
    Cursor.bump_of_pending pending'
  -- The closing parenthesis ends the operand as the end of the argument list did in the source.
  have atCloser : (Cursor.mk none (closer :: back') cursor'.endOfFile).peek.EndsOperand := by
    show (closer.kind, closer.text) ∈ operandEnds
    rw [closes, closerText]
    decide
  have ends := argument.ends given ⟨none, closer :: back', cursor'.endOfFile⟩ (.inl atCloser)
    (by rw [Cursor.isAt, Cursor.peek, List.headD_cons, closes]; rfl) proper'
    (generics.imp_right (Cursor.genericRun?_rightParen closes))
  have bound : cursor'.bump.2.leftBound = false := by
    rw [isNext, Cursor.leftBound, Option.any_some, opens, Cursor.opensLeft, Bool.not_true,
      Bool.and_false]
  have level := argument.level given cursor'.bump.2
    ⟨none, closer :: back', cursor'.endOfFile⟩ tokens (by rw [isNext]) (by rw [isNext])
    (fun _ => bound) like words' same (.inl atCloser)
  obtain ⟨operand', rest', middle', next', nonempty', -, readOperand', readRest', pending,
    endOfFile⟩ := argument.reads_again enough level ends atCloser
  have readValue : Parser.expr (fuel + 1) .free cursor'.bump.2 =
      some (.ofTerms operand' rest', next') := by
    rw [Parser.expr, Parser.bind_apply readOperand', nonempty', if_neg Bool.false_ne_true,
      Parser.bind_apply readRest']
    rfl
  have inside : (expr.passage source last ⟨none, closer :: back', cursor'.endOfFile⟩).Inside
      ((tokenize source).cursorAt first) := argument.starts.1
  have isBehind : next'.bump = (closer, ⟨some closer, back', cursor'.endOfFile⟩) := by
    rw [Cursor.bump_of_pending pending, endOfFile]
  -- The parentheses hold one value without a label: what the argument was, read again.
  have read := Parser.unary_parenthesized proper'
    (by rw [Cursor.isAt, Cursor.peek, pending', List.headD_cons, opens]; rfl)
    ((level.peek_like inside).kind ▸ argument.starts.2)
    ((level.atLabel_eq ends inside) ▸ argument.unlabelled) readValue
    (by unfold Expr.ofTerms; split <;> first | exact nonempty' | rfl)
    (by rw [Cursor.isAt, Cursor.peek, pending, List.headD_cons, closes]; rfl)
    (by rw [isBehind]; exact ending)
  rw [isBehind] at read
  exact ⟨_, read⟩

end Expr.IsArgumentAt

/-! ### The operands of a condition -/

/-- The expression begins with an operator. -/
def Expr.startsWithOperator (expr : Expr) : Bool :=
  expr.tokens.head?.any (·.kind == .operator)

namespace Expr.IsArgumentAt

variable {expr : Expr} {source : String} {first last : Nat}

/-- The argument begins with the kind of token that the tokens it stands for begin with. -/
theorem startsWithOperator (argument : expr.IsArgumentAt source first last) {lead : Token}
    {later : List Token} (tokens : Token.atomsOf expr.tokens = lead :: later) :
    expr.startsWithOperator = (lead.kind == .operator) := by
  obtain ⟨token, rest, split, kind⟩ := Token.kind_of_atomsOf argument.whole tokens
  rw [Expr.startsWithOperator, split, List.head?_cons, Option.any_some, kind]

variable {sign endOfFile : Token} {front back : List Token} {gap : List Char} {wraps : Bool}

/-- Behind a sign and in front of the end of a text the argument is read again, in parentheses or not.
Then it has its own operators at the top, or none. -/
theorem reads_behind (argument : expr.IsArgumentAt source first last)
    (given : Node.render (SourceFile.parse source) = source) (least : Nat)
    (proper' : endOfFile.kind = .endOfFile) (empty : endOfFile.text = "") (words' : Whole back)
    (spelled : spelling sign.trailing.toList back =
      spelling gap (Token.atomsOf (Node.setLeading (expr.wrapped wraps) "").tokens))
    (apart : wraps = false → expr.startsWithOperator = true → gap ≠ [])
    (unmarked : wraps = false → expr.isMarked = false) :
    ∃ lead later, back = lead :: later ∧ sign.trailing.toList ++ lead.leading.toList = gap ∧
      Parser.startsExpression lead.kind = true ∧ ∃ fuel operand middle rest next, least ≤ fuel ∧
        Parser.unary fuel .free ⟨some sign, back, endOfFile⟩ = some (operand, middle) ∧
        Parser.terms fuel .free 0 middle = some (rest, next) ∧
        (rest.map fun term => term.operator.text) = (expr.wrapped wraps).operators ∧
        next.pending = [] ∧ next.endOfFile = endOfFile := by
  obtain ⟨lead, later, tokens, pending⟩ := argument.taken
  have words := argument.words
  rw [tokens] at words
  have starts := argument.starts.2
  rw [Cursor.peek, pending, List.cons_append, List.headD_cons] at starts
  have enough : fuelFor (tokenize source) ≤ fuelFor (tokenize source) + least + 1 := by omega
  cases wraps with
  | true =>
    -- In parentheses the argument is one operand, and the text ends behind it.
    rw [expr.tokens_wrapped_behind, ← List.append_nil (Token.atomsOf _)] at spelled
    obtain ⟨opener, lead', later', closer, back', rfl, opens, touching, like, same, closes, closerText,
      backSpelled⟩ := exists_of_spelling_parentheses argument.whole tokens words words' spelled
    obtain ⟨-, -, words'⟩ := by simpa only [Whole, List.forall_mem_cons] using words'
    rw [List.forall_mem_append, List.forall_mem_cons] at words'
    obtain rfl := eq_nil_of_spelling words'.2.2 backSpelled
    obtain ⟨list, read⟩ := argument.reads_parenthesized given enough
      ⟨some sign, opener :: lead' :: (later' ++ [closer]), endOfFile⟩ tokens rfl proper' opens like
      words'.1 same closes closerText (.inl proper') (.inr fun _ _ _ => rfl)
    have ended : (Cursor.mk (some closer) [] endOfFile).peek.kind = .endOfFile := proper'
    refine ⟨_, _, rfl, ?_, by rw [opens]; rfl, _, _, _, [], _, by omega, read,
      Parser.terms_at_end ended 0, rfl, rfl, rfl⟩
    simpa using touching.symm
  | false =>
    -- Without parentheses the argument is read as it was, from its first token to the end of the
    -- text.
    rw [show expr.wrapped false = expr from rfl, argument.atomsOf_setLeading tokens] at spelled
    have word : (lead.withLeading "").text ≠ "" := words lead List.mem_cons_self
    obtain ⟨lead', later', rfl, like, touching, same⟩ := exists_of_spelling_cons word words' spelled
    have touching : gap = sign.trailing.toList ++ lead'.leading.toList := by
      rw [← touching]
      exact (List.append_nil gap).symm
    rw [Whole, List.forall_mem_cons] at words'
    have atEnd : endOfFile.EndsOperand := by
      rw [Token.EndsOperand, proper', empty]
      decide
    -- An operator at its start must not touch the sign, or both would be one word.
    have bound : lead.kind = .operator →
        (Cursor.mk (some sign) (lead' :: later') endOfFile).leftBound = false := by
      intro operator
      have gapped := apart rfl ((argument.startsWithOperator tokens).trans (beq_iff_eq.2 operator))
      rw [touching] at gapped
      rw [Cursor.leftBound, Cursor.atAdjacent, Cursor.peek, List.headD_cons,
        adjacent_eq_false_iff.2 gapped, Bool.false_and]
    have ends := argument.ends given ⟨none, [], endOfFile⟩ (.inl atEnd)
      (by rw [Cursor.isAt, Cursor.peek, List.headD_nil, proper']; rfl) proper' (.inr fun _ _ _ => rfl)
    have level := argument.level given ⟨some sign, lead' :: later', endOfFile⟩
      ⟨none, [], endOfFile⟩ tokens (by rw [List.append_nil]) rfl
      bound ⟨like.kind, like.text⟩ words'.2 same (.inl atEnd)
    obtain ⟨operand, rest, middle, next, -, texts, read, readRest, ended, ending⟩ :=
      argument.reads_again enough level ends atEnd
    refine ⟨_, _, rfl, ?_, like.kind ▸ starts, _, _, _, _, _, by omega, read, readRest,
      texts (unmarked rfl), ended, ending⟩
    exact touching.symm

section Ahead

variable (argument : expr.IsArgumentAt source first last)
  (given : Node.render (SourceFile.parse source) = source)
  {more : List OperatorTerm} {final : Cursor} {fuel : Nat} (proper' : endOfFile.kind = .endOfFile)
  (words' : Whole front)
  (between : (Cursor.mk front.getLast? (sign :: back) endOfFile).BetweenBlanks)
  (generics : closesAngles (Token.atomsOf expr.tokens) = true ∨ ∀ begun depth previous,
    Cursor.genericRun? endOfFile begun depth previous (sign :: back) = none)
  (onward : ∀ {fuel : Nat} (ternaries : Nat) {cursor : Cursor}, cursor.pending = sign :: back →
    cursor.endOfFile = endOfFile → cursor.role = .between → 24 * cursor.left + 1 ≤ fuel →
    Parser.terms fuel .free ternaries cursor = some (more, final))
  (nonempty : more ≠ []) (enough : fuelFor (tokenize source) ≤ fuel)
  (long : 24 * (front ++ sign :: back).length + 4 ≤ fuel)

include argument given proper' words' between generics onward nonempty enough long

/-- In front of an operator between blanks the argument is read again in parentheses, and then the
operator with what is behind it. -/
theorem reads_wrapped_ahead (spelled : spelling gap front =
      spelling gap (Token.atomsOf (Node.setTrailing (expr.wrapped true) "").tokens)) :
    ∃ answer, Parser.expr (fuel + 6) .free ⟨none, front ++ sign :: back, endOfFile⟩ =
        some (answer, final) ∧
      answer.operators = more.map fun term => term.operator.text := by
  obtain ⟨lead, later, tokens, pending⟩ := argument.taken
  have words := argument.words
  rw [tokens] at words
  rw [expr.tokens_wrapped_ahead, ← List.append_nil (Token.atomsOf _)] at spelled
  obtain ⟨opener, lead', later', closer, back', rfl, opens, -, like, same, closes, closerText,
    backSpelled⟩ := exists_of_spelling_parentheses argument.whole tokens words words' spelled
  obtain ⟨-, -, words'⟩ := by simpa only [Whole, List.forall_mem_cons] using words'
  rw [List.forall_mem_append, List.forall_mem_cons] at words'
  obtain rfl := eq_nil_of_spelling words'.2.2 backSpelled
  rw [show (opener :: lead' :: (later' ++ [closer])).getLast? = some closer from
    List.getLast?_concat (l := opener :: lead' :: later')] at between
  obtain ⟨list, read⟩ := argument.reads_parenthesized given (Nat.le_succ_of_le enough)
    ⟨none, opener :: lead' :: (later' ++ closer :: sign :: back), endOfFile⟩ tokens rfl proper' opens
    like words'.1 same closes closerText (.inr between) generics
  have readMore : Parser.terms (fuel + 5) .free 0 ⟨some closer, sign :: back, endOfFile⟩ =
      some (more, final) := by
    refine onward 0 rfl rfl between.role ?_
    rw [List.length_append] at long
    simp only [Cursor.left]
    omega
  refine ⟨.ofTerms (.tuple list) more, ?_, Expr.operators_ofTerms _ nonempty⟩
  have joined : opener :: lead' :: (later' ++ [closer]) ++ sign :: back =
      opener :: lead' :: (later' ++ closer :: sign :: back) := by simp
  have some : (Expr.tuple list).isEmpty = false := rfl
  rw [joined, Parser.expr, Parser.bind_apply read, some, if_neg Bool.false_ne_true,
    Parser.bind_apply readMore]
  rfl

/-- In front of an operator between blanks the argument is read again without parentheses, and then
the operator with what is behind it. Where the argument leaves room, these are operators at the top,
behind its own ones. -/
theorem reads_bare_ahead
    (spelled : spelling gap front =
      spelling gap (Token.atomsOf (Node.setTrailing (expr.wrapped false) "").tokens))
    (word : ∀ token ∈ (Token.atomsOf expr.tokens).getLast?, token.text ∉ ["init", "operator"])
    (ended : final.peek.kind = .endOfFile) :
    ∃ answer, Parser.expr fuel .free ⟨none, front ++ sign :: back, endOfFile⟩ =
        some (answer, final) ∧
      answer.operators = expr.operators ++
        if expr.leavesRoom then more.map fun term => term.operator.text else [] := by
  obtain ⟨lead, later, tokens, pending⟩ := argument.taken
  have words := argument.words
  rw [tokens] at words
  have bare : (Node.setTrailing (expr.wrapped false) "").tokens =
      modifyLast (·.withTrailing "") expr.tokens := Node.tokens_setTrailing expr ""
  rw [bare, Token.atomsOf_modifyLast argument.whole, spelling_modifyLast argument.words, tokens]
    at spelled
  obtain ⟨lead', later', rfl, like, -, same⟩ :=
    exists_of_spelling_cons (words lead List.mem_cons_self) words' spelled
  rw [Whole, List.forall_mem_cons] at words'
  have ends := argument.ends given ⟨(lead' :: later').getLast?, sign :: back, endOfFile⟩
    (.inr between) (by rw [Cursor.isAt, between.kind]; rfl) proper' generics
  have level := argument.level given ⟨none, lead' :: later' ++ sign :: back, endOfFile⟩
    ⟨(lead' :: later').getLast?, sign :: back, endOfFile⟩ tokens rfl rfl (fun _ => rfl) like words'.2
    same (.inr ⟨between, rfl, fun token isLast => word token (tokens ▸ isLast)⟩)
  have continues : (expr.passage source last
      ⟨(lead' :: later').getLast?, sign :: back, endOfFile⟩).Continues more final := by
    refine ⟨fun ternaries _ _ abreast outside enough => ?_, nonempty, ended⟩
    obtain ⟨pending', endOfFile'⟩ := abreast.at_stop outside
    refine onward ternaries pending' endOfFile' ?_ enough
    refine (Level.later abreast).role_of_stop ends outside ?_
    rw [Cursor.isAt, (abreast.peek_stop outside).2]
    exact beq_iff_eq.2 between.kind
  obtain ⟨answer, read, -, operators⟩ := (Parser.allContinue ends continues fuel).expr level
    (argument.reads enough).1 argument.nonempty argument.whole rfl
    (by simp only [Cursor.left]; omega)
  exact ⟨answer, read, operators⟩

omit enough long

/-- In front of an operator between blanks the argument is read again, in parentheses or not, and
then the operator with what is behind it. Where the argument leaves room, these are operators at the
top, behind its own ones, if it is not in parentheses. -/
theorem reads_ahead (least : Nat)
    (spelled : spelling gap front =
      spelling gap (Token.atomsOf (Node.setTrailing (expr.wrapped wraps) "").tokens))
    (word : ∀ token ∈ (Token.atomsOf expr.tokens).getLast?, token.text ∉ ["init", "operator"])
    (ended : final.peek.kind = .endOfFile) :
    ∃ fuel answer, least ≤ fuel ∧
      Parser.expr fuel .free ⟨none, front ++ sign :: back, endOfFile⟩ = some (answer, final) ∧
      answer.operators = (expr.wrapped wraps).operators ++
        if (expr.wrapped wraps).leavesRoom then more.map fun term => term.operator.text else [] := by
  obtain ⟨fuel, isFuel⟩ : ∃ fuel, fuel = fuelFor (tokenize source) + least +
      24 * (front ++ sign :: back).length + 4 := ⟨_, rfl⟩
  have enough : fuelFor (tokenize source) ≤ fuel := by omega
  have long : 24 * (front ++ sign :: back).length + 4 ≤ fuel := by omega
  cases wraps with
  | true =>
    obtain ⟨answer, read, operators⟩ := argument.reads_wrapped_ahead given proper' words' between
      generics onward nonempty enough long spelled
    exact ⟨fuel + 6, answer, by omega, read, operators⟩
  | false =>
    obtain ⟨answer, read, operators⟩ := argument.reads_bare_ahead given proper' words' between
      generics onward nonempty enough long spelled word ended
    exact ⟨fuel, answer, by omega, read, operators⟩

end Ahead

end Expr.IsArgumentAt

/-! ### Texts of conditions -/

/-- What is read from the whole text is its expression, with all its tokens. -/
theorem Expr.parse_eq {text : String} {fuel : Nat} {expr : Expr} {next : Cursor}
    (enough : fuelFor (tokenize text) ≤ fuel)
    (read : Parser.expr fuel .free (.start (tokenize text)) = some (expr, next))
    (ended : next.pending = []) :
    Expr.parse text = expr ∧ Token.atomsOf expr.tokens = (tokenize text).tokens := by
  have suffices_ : 24 * (Cursor.start (tokenize text)).left + 4 ≤ fuelFor (tokenize text) := by
    show 24 * (tokenize text).tokens.length + 4 ≤ 24 * ((tokenize text).tokens.length + 2)
    omega
  obtain ⟨own, reads⟩ := ((settled fuel (fuelFor (tokenize text))).expr (.start (tokenize text)) .free
    ⟨rfl, Nat.le_trans suffices_ enough, suffices_⟩).transfer read
  constructor
  · rw [Expr.parse, Expr.ofTokens, own]
    simp [Cursor.atEnd, ended]
  · have atoms := reads.atoms
    rw [ended, Token.atomsOf_nil, List.append_nil] at atoms
    rw [← atoms]
    exact atomsOf_tokens_tokenize text

/-- The text of an operand is read as its words, with the same gaps between them. -/
theorem Operand.spelling {tokens : List Token} (operand : Operand tokens []) :
    SuiteMigration.spelling [] (tokenize (Token.renderAll tokens)).tokens =
      SuiteMigration.spelling [] (Token.atomsOf tokens) := by
  have read := (spelling_tokenize_of_legible operand.legible).1
  rwa [Token.renderAll_atomsOf] at read

theorem Operand.words {tokens : List Token} {rest : List Char} (operand : Operand tokens rest) :
    Whole (Token.atomsOf tokens) :=
  fun token member => (operand.sturdy token member).1

theorem whole_tokenize (text : String) : Whole (tokenize text).tokens :=
  fun _ member => text_ne_of_mem_tokenize member

end SuiteMigration
