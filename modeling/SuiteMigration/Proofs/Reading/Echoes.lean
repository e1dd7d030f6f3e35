import Mathlib.Tactic.Common
import SuiteMigration.Proofs.Reading.Progress
import SuiteMigration.Proofs.Reading.Safety

/-!
# The same words in two places

The words of an argument can be read where they stand in a source, and again in another stream. Two
cursors are abreast if the words ahead of them, up to where the argument ends, are the same with the
same trivia between them, and so are the last tokens before them. Behind the argument the streams
differ: the first one goes on with a comma or a closing parenthesis, and the second one with a closing
parenthesis, an operator with blanks around it, or nothing. Questions about the next tokens have the
same answer at both cursors all the same.

## Main definitions

* `Token.Like`, `Echoes` - tokens with the same words, and runs of them with the same trivia between
* `Passage`, `Passage.Ends` - the way through both streams, and what comes after it
* `Abreast` - two cursors at the same place of the way
* `Level` - the same for cursors that may be at its start, whatever stands before them
* `Passage.Braced` - a closing delimiter of the way is still ahead

## Main results

* `Abreast.skip` - after as many tokens cursors are abreast again
* `Level.second_cases` - what the token after the next one is
* `Level.atOperator_eq` - an operator has the same place in both streams
-/

namespace SuiteMigration

/-! ### Tokens with the same words -/

/-- The tokens have the same class and the same text. -/
structure Token.Like (token token' : Token) : Prop where
  kind : token.kind = token'.kind
  text : token.text = token'.text

namespace Token.Like

variable {token token' : Token}

theorem refl (token : Token) : token.Like token :=
  ⟨rfl, rfl⟩

theorem isKeyword (like : token.Like token') (keyword : String) :
    token.isKeyword keyword = token'.isKeyword keyword := by
  rw [Token.isKeyword, Token.isKeyword, like.kind, like.text]

theorem isOperator (like : token.Like token') (operator : String) :
    token.isOperator operator = token'.isOperator operator := by
  rw [Token.isOperator, Token.isOperator, like.kind, like.text]

theorem isReserved (like : token.Like token') : token.isReserved = token'.isReserved := by
  rw [Token.isReserved, Token.isReserved, like.kind, like.text]

theorem isOptionalMark (like : token.Like token') :
    token.isOptionalMark = token'.isOptionalMark := by
  rw [Token.isOptionalMark, Token.isOptionalMark, like.isOperator, like.isOperator]

theorem startsWith (like : token.Like token') (start : String) :
    token.startsWith start = token'.startsWith start := by
  rw [Token.startsWith, Token.startsWith, like.text]

theorem opensAngle (like : token.Like token') : token.opensAngle = token'.opensAngle := by
  rw [Token.opensAngle, Token.opensAngle, like.kind, like.startsWith]

theorem consistsOf (like : token.Like token') (characters : String) :
    token.consistsOf characters = token'.consistsOf characters := by
  rw [Token.consistsOf, Token.consistsOf, like.text]

theorem angleDepth (like : token.Like token') : token.angleDepth = token'.angleDepth := by
  rw [Token.angleDepth, Token.angleDepth, like.kind, like.text]

theorem delimiterDepth (like : token.Like token') :
    token.delimiterDepth = token'.delimiterDepth := by
  rw [Token.delimiterDepth, Token.delimiterDepth, like.kind]

theorem typeDepth (like : token.Like token') : token.typeDepth = token'.typeDepth := by
  rw [Token.typeDepth, Token.typeDepth, like.angleDepth, like.delimiterDepth]

/-- Two pairs of like tokens begin a declaration together or not at all. -/
theorem isDeclarationKeyword {next next' : Token} (like : token.Like token')
    (after : next.Like next') :
    isDeclarationKeyword token next = isDeclarationKeyword token' next' := by
  rw [SuiteMigration.isDeclarationKeyword, SuiteMigration.isDeclarationKeyword, like.kind, like.text,
    after.kind, after.isOptionalMark, after.startsWith]

end Token.Like

/-- The way through two streams: the tokens in the first one, and where each stream goes on. -/
structure Passage where
  way : List Token
  stop : Cursor
  stop' : Cursor

/-- Where the way ends, its last tokens do not touch an operator, and they begin a declaration both
or not at all. -/
structure Passage.Parts (passage : Passage) (last last' : Token) : Prop where
  apart : passage.stop'.isAt .operator = true → adjacent (some last') passage.stop'.peek = false
  declares : isDeclarationKeyword last passage.stop.peek =
    isDeclarationKeyword last' passage.stop'.peek

/-- Two runs of tokens up to the end of the way, each with the token before it, have the same words
and the same trivia between them. -/
inductive Echoes (passage : Passage) : Token → List Token → Token → List Token → Prop
  | nil {last last' : Token} : passage.Parts last last' → Echoes passage last [] last' []
  | cons {before before' token token' : Token} {later later' : List Token} : token.Like token' →
      before.trailing ++ token.leading = before'.trailing ++ token'.leading →
      Echoes passage token later token' later' →
      Echoes passage before (token :: later) before' (token' :: later')

/-- Two cursors are at the same place of the way, behind some token of it. -/
inductive Abreast (passage : Passage) : Cursor → Cursor → Prop
  | mk {before before' : Token} {tokens tokens' : List Token} :
      before :: tokens <:+ passage.way → before.Like before' →
      Echoes passage before tokens before' tokens' →
      Abreast passage ⟨some before, tokens ++ passage.stop.pending, passage.stop.endOfFile⟩
        ⟨some before', tokens' ++ passage.stop'.pending, passage.stop'.endOfFile⟩

/-- A generic argument list that is begun in some tokens may go on behind them. -/
def Cursor.genericOpen (begun : Bool) (depth : Int) (previous : Option Token) : List Token → Bool
  | [] => true
  | token :: later =>
    if begun && lineBreakBetween previous token then false
    else if token.kind == .operator then
      token.consistsOf "<>?!&" && decide (0 < depth + token.angleDepth) &&
        genericOpen true (depth + token.angleDepth) (some token) later
    else isGenericArgument token.kind && genericOpen true depth (some token) later

/-- The first stream goes on with a comma or a closing parenthesis. The second one goes on with a
closing parenthesis or an operator, or ends. What is opened on the way is closed on it, generic
arguments included. -/
structure Passage.Ends (passage : Passage) : Prop where
  proper : passage.stop.Proper
  proper' : passage.stop'.Proper
  rest : passage.stop.pending ≠ []
  kind : passage.stop.peek.kind = .comma ∨ passage.stop.peek.kind = .rightParen
  kind' : passage.stop'.peek.kind = .rightParen ∨ passage.stop'.peek.kind = .endOfFile ∨
    passage.stop'.peek.kind = .operator
  word : modifierWords.contains passage.stop.peek.text = false
  word' : modifierWords.contains passage.stop'.peek.text = false
  right : passage.stop'.isAt .operator = true →
    adjacent (some passage.stop'.peek) passage.stop'.second = false
  enclosed : ∀ opener later, opener :: later <:+ passage.way → opener.kind.isOpening = true →
    (closing? 1 later).isSome
  generics : (∀ before token later, before :: token :: later <:+ passage.way →
      token.opensAngle = true → adjacent (some before) token = true →
      Cursor.genericOpen false 0 none (token :: later) = false) ∨
    ∀ begun depth previous,
      Cursor.genericRun? passage.stop'.endOfFile begun depth previous passage.stop'.pending = none

variable {passage : Passage} {before before' token token' : Token} {tokens tokens' : List Token}
  {cursor cursor' next : Cursor}

namespace Passage

/-- The cursor is before a token of the way. -/
abbrev Inside (passage : Passage) (cursor : Cursor) : Prop :=
  passage.stop.left < cursor.left

/-- The cursor is before a closing delimiter of the way, or further ahead of one. -/
def Braced (passage : Passage) (cursor : Cursor) : Prop :=
  ∃ front brace rest, cursor.pending = front ++ brace :: rest ∧ brace.kind.isClosing = true ∧
    passage.stop.left ≤ rest.length

/-- A reading between the braces of a passage is inside of it. -/
theorem Braced.inside (braced : passage.Braced cursor) : passage.Inside cursor := by
  obtain ⟨front, brace, rest, pending, -, enough⟩ := braced
  have whole : cursor.left = front.length + (rest.length + 1) := by
    rw [Cursor.left, pending, List.length_append, List.length_cons]
  rw [Inside, whole]
  omega

/-- What was between braces after a step was so before it. -/
theorem Braced.back (braced : passage.Braced next) (passes : cursor.Passes next) :
    passage.Braced cursor := by
  obtain ⟨front, brace, rest, pending, kind, enough⟩ := braced
  obtain ⟨passed, split⟩ := passes.suffix
  exact ⟨passed ++ front, brace, rest, by rw [← split, pending, List.append_assoc], kind, enough⟩

end Passage

/-- A passage and its echo have as many tokens. -/
theorem Echoes.length (echoes : Echoes passage before tokens before' tokens') :
    tokens.length = tokens'.length := by
  induction echoes with
  | nil => rfl
  | cons _ _ _ ih => rw [List.length_cons, List.length_cons, ih]

/-- Whether a line breaks between two tokens depends on the trivia between them. -/
theorem lineBreakBetween_congr
    (gap : before.trailing ++ token.leading = before'.trailing ++ token'.leading) :
    lineBreakBetween (some before) token = lineBreakBetween (some before') token' := by
  have joined (before token : Token) : lineBreakBetween (some before) token =
      Trivia.containsNewline (before.trailing ++ token.leading) := by
    simp [lineBreakBetween, Trivia.containsNewline, Bool.or_comm]
  rw [joined, joined, gap]

/-- Whether two tokens touch depends on the trivia between them. -/
theorem adjacent_congr
    (gap : before.trailing ++ token.leading = before'.trailing ++ token'.leading) :
    adjacent (some before) token = adjacent (some before') token' := by
  have joined (before token : Token) :
      adjacent (some before) token = (before.trailing ++ token.leading).isEmpty := by
    rw [Bool.eq_iff_iff]
    simp [adjacent, and_comm]
  rw [joined, joined, gap]

/-! ### Going on -/

theorem Cursor.skip_zero (cursor : Cursor) : cursor.skip 0 = cursor := rfl

theorem Cursor.skip_succ {later : List Token} (pending : cursor.pending = token :: later)
    (count : Nat) : cursor.skip (count + 1) =
      { cursor with previous := some token, pending := later : Cursor }.skip count := by
  simp only [skip, take, pending, List.take_succ_cons, List.drop_succ_cons, List.getLast?_cons,
    Option.some_or]
  cases (later.take count).getLast? <;> rfl

theorem Cursor.bump_of_pending {later : List Token} (pending : cursor.pending = token :: later) :
    cursor.bump = (token, { cursor with previous := some token, pending := later }) := by
  rw [bump, pending]

namespace Abreast

section

variable (abreast : Abreast passage cursor cursor')

include abreast

/-- The cursors are before tokens with the same words, or both at the end of the way. -/
theorem cases :
    (∃ token later token' later', passage.Inside cursor ∧ token ∈ passage.way ∧
      cursor.pending = token :: later ∧ cursor'.pending = token' :: later' ∧ token.Like token' ∧
      Abreast passage { cursor with previous := some token, pending := later }
        { cursor' with previous := some token', pending := later' } ∧
      lineBreakBetween cursor.previous token = lineBreakBetween cursor'.previous token' ∧
      adjacent cursor.previous token = adjacent cursor'.previous token') ∨
    cursor.pending = passage.stop.pending ∧ cursor'.pending = passage.stop'.pending ∧
      ∃ last last', cursor.previous = some last ∧ cursor'.previous = some last' ∧
        passage.Parts last last' := by
  cases abreast with
  | mk on like echoes =>
    cases echoes with
    | nil parts => exact .inr ⟨rfl, rfl, _, _, rfl, rfl, parts⟩
    | cons like' gap later =>
      have on' := (List.suffix_cons _ _).trans on
      refine .inl ⟨_, _, _, _, ?_, on'.mem List.mem_cons_self, rfl, rfl, like', .mk on' like' later,
        lineBreakBetween_congr gap, adjacent_congr gap⟩
      rw [Passage.Inside, Cursor.left, Cursor.left, List.length_append, List.length_cons]
      omega

theorem endOfFile : cursor.endOfFile = passage.stop.endOfFile := by
  cases abreast
  rfl

theorem endOfFile' : cursor'.endOfFile = passage.stop'.endOfFile := by
  cases abreast
  rfl

/-- Both readings are proper. -/
theorem proper (ends : passage.Ends) : cursor.Proper ∧ cursor'.Proper := by
  rw [Cursor.Proper, Cursor.Proper, abreast.endOfFile, abreast.endOfFile']
  exact ⟨ends.proper, ends.proper'⟩

/-- As much is left of the way in both streams. -/
theorem left_eq : cursor.left + passage.stop'.left = cursor'.left + passage.stop.left := by
  cases abreast with
  | mk _ _ echoes =>
    simp only [Cursor.left, List.length_append, echoes.length]
    omega

/-- The stop of a passage is ahead of every reading in it. -/
theorem stop_le : passage.stop.left ≤ cursor.left := by
  cases abreast with
  | mk _ _ _ =>
    simp only [Cursor.left, List.length_append]
    omega

/-- The tokens read last are alike. -/
theorem previous :
    ∃ last last', cursor.previous = some last ∧ cursor'.previous = some last' ∧ last.Like last' := by
  cases abreast with
  | mk _ like _ => exact ⟨_, _, rfl, rfl, like⟩

/-- Before the end of the way the cursors are before tokens with the same words. -/
theorem inside (inside : passage.Inside cursor) :
    ∃ token later token' later', token ∈ passage.way ∧ cursor.pending = token :: later ∧
      cursor'.pending = token' :: later' ∧ token.Like token' ∧
      Abreast passage { cursor with previous := some token, pending := later }
        { cursor' with previous := some token', pending := later' } ∧
      lineBreakBetween cursor.previous token = lineBreakBetween cursor'.previous token' ∧
      adjacent cursor.previous token = adjacent cursor'.previous token' := by
  rcases abreast.cases with ⟨_, _, _, _, -, ahead⟩ | ⟨pending, -⟩
  · exact ⟨_, _, _, _, ahead⟩
  · rw [Passage.Inside, Cursor.left, Cursor.left, pending] at inside
    omega

/-- At the end of the way the next tokens are those that come after it. -/
theorem peek_stop (outside : ¬ passage.Inside cursor) :
    cursor.peek = passage.stop.peek ∧ cursor'.peek = passage.stop'.peek := by
  rcases abreast.cases with ⟨_, _, _, _, inside, -⟩ | ⟨pending, pending', -⟩
  · exact absurd inside outside
  · simp only [Cursor.peek, pending, pending', abreast.endOfFile, abreast.endOfFile', and_self]

end

/-- After as many tokens cursors are abreast again. -/
theorem skip {count : Nat} (abreast : Abreast passage cursor cursor')
    (within : count + passage.stop.left ≤ cursor.left) :
    Abreast passage (cursor.skip count) (cursor'.skip count) := by
  induction count generalizing cursor cursor' with
  | zero => exact abreast
  | succ count ih =>
    obtain ⟨token, later, token', later', -, pending, pending', -, next, -⟩ :=
      abreast.inside (by rw [Passage.Inside]; omega)
    rw [Cursor.skip_succ pending, Cursor.skip_succ pending']
    refine ih next ?_
    simp only [Cursor.left, pending, List.length_cons] at within
    simp only [Cursor.left]
    omega

/-- A token can be read at both cursors. -/
theorem bump (abreast : Abreast passage cursor cursor') (inside : passage.Inside cursor) :
    cursor.bump.1.Like cursor'.bump.1 ∧ Abreast passage cursor.bump.2 cursor'.bump.2 := by
  obtain ⟨token, later, token', later', -, pending, pending', like, next, -⟩ := abreast.inside inside
  rw [Cursor.bump_of_pending pending, Cursor.bump_of_pending pending']
  exact ⟨like, next⟩

end Abreast

/-! ### Cursors at the start of the way -/

/-- Two cursors are at the same place of the way, or both at its start. There an operator has to be
bound to what stands before it in both streams or in neither. -/
inductive Level (passage : Passage) : Cursor → Cursor → Prop
  | start {cursor cursor' : Cursor} {token token' : Token} {later later' : List Token} :
      cursor.pending = token :: later →
      cursor'.pending = token' :: later' → token ∈ passage.way → token.Like token' →
      Abreast passage { cursor with previous := some token, pending := later }
        { cursor' with previous := some token', pending := later' } →
      (token.kind = .operator → cursor.leftBound = cursor'.leftBound) →
      Level passage cursor cursor'
  | later {cursor cursor' : Cursor} : Abreast passage cursor cursor' → Level passage cursor cursor'

namespace Level

variable (level : Level passage cursor cursor')

include level

/-- The cursors are before tokens with the same words, or both at the end of the way. -/
theorem cases :
    (∃ token later token' later', passage.Inside cursor ∧ token ∈ passage.way ∧
      cursor.pending = token :: later ∧ cursor'.pending = token' :: later' ∧ token.Like token' ∧
      Abreast passage { cursor with previous := some token, pending := later }
        { cursor' with previous := some token', pending := later' } ∧
      (token.kind = .operator → cursor.leftBound = cursor'.leftBound)) ∨
    ¬ passage.Inside cursor ∧ Abreast passage cursor cursor' := by
  cases level with
  | start pending pending' on like next bound =>
    refine .inl ⟨_, _, _, _, ?_, on, pending, pending', like, next, bound⟩
    have enough := next.stop_le
    rw [Passage.Inside, Cursor.left, Cursor.left, pending, List.length_cons]
    exact Nat.lt_succ_of_le enough
  | later abreast =>
    by_cases inside : passage.Inside cursor
    · obtain ⟨token, later, token', later', on, pending, pending', like, next, -, gap⟩ :=
        abreast.inside inside
      obtain ⟨last, last', previous, previous', before⟩ := abreast.previous
      refine .inl ⟨_, _, _, _, inside, on, pending, pending', like, next, fun _ => ?_⟩
      rw [previous, previous'] at gap
      simp [Cursor.leftBound, Cursor.atAdjacent, Cursor.peek, pending, pending', previous, previous',
        gap, before.kind]
    · exact .inr ⟨inside, abreast⟩

/-- Before the end of the way the cursors are before like tokens, and abreast behind them. -/
theorem inside (inside : passage.Inside cursor) :
    ∃ token later token' later', token ∈ passage.way ∧
      cursor.pending = token :: later ∧ cursor'.pending = token' :: later' ∧ token.Like token' ∧
      Abreast passage { cursor with previous := some token, pending := later }
        { cursor' with previous := some token', pending := later' } ∧
      (token.kind = .operator → cursor.leftBound = cursor'.leftBound) := by
  rcases level.cases with ⟨_, _, _, _, -, ahead⟩ | ⟨outside, -⟩
  · exact ⟨_, _, _, _, ahead⟩
  · exact absurd inside outside

/-- Once a token is read the cursors are abreast. -/
theorem bump (inside : passage.Inside cursor) :
    cursor.bump.1.Like cursor'.bump.1 ∧ Abreast passage cursor.bump.2 cursor'.bump.2 := by
  obtain ⟨token, later, token', later', -, pending, pending', like, next, -⟩ := level.inside inside
  rw [Cursor.bump_of_pending pending, Cursor.bump_of_pending pending']
  exact ⟨like, next⟩

/-- Inside the passage the next tokens are alike. -/
theorem peek_like (inside : passage.Inside cursor) : cursor.peek.Like cursor'.peek := by
  obtain ⟨token, later, token', later', -, pending, pending', like, -⟩ := level.inside inside
  simpa [Cursor.peek, pending, pending'] using like

/-- The next tokens pass the same tests, if these look at the words only and fail for what comes
after the way. -/
theorem test_peek (test : Token → Bool)
    (respects : ∀ token token' : Token, token.Like token' → test token = test token')
    (fails : test passage.stop.peek = false) (fails' : test passage.stop'.peek = false) :
    test cursor.peek = test cursor'.peek := by
  by_cases inside : passage.Inside cursor
  · exact respects _ _ (level.peek_like inside)
  · rcases level.cases with ⟨_, _, _, _, here, -⟩ | ⟨-, abreast⟩
    · exact absurd here inside
    · obtain ⟨isStop, isStop'⟩ := abreast.peek_stop inside
      rw [isStop, isStop', fails, fails']

/-- The token after the next one has the same words with the same trivia before it, or it is what
comes after the way. -/
theorem second_cases (inside : passage.Inside cursor) :
    cursor.second.Like cursor'.second ∧
        lineBreakBetween (some cursor.peek) cursor.second =
          lineBreakBetween (some cursor'.peek) cursor'.second ∧
        adjacent (some cursor.peek) cursor.second = adjacent (some cursor'.peek) cursor'.second ∨
      cursor.pending.tail = passage.stop.pending ∧
        cursor.second = passage.stop.peek ∧ cursor'.second = passage.stop'.peek ∧
        passage.Parts cursor.peek cursor'.peek := by
  obtain ⟨token, later, token', later', -, pending, pending', -, next, -⟩ := level.inside inside
  have isNext : cursor.second = Cursor.peek { cursor with previous := some token, pending := later } := by
    rw [Cursor.second, Cursor.peek, pending, List.tail_cons]
  have isNext' :
      cursor'.second = Cursor.peek { cursor' with previous := some token', pending := later' } := by
    rw [Cursor.second, Cursor.peek, pending', List.tail_cons]
  have isPeek : cursor.peek = token := by rw [Cursor.peek, pending, List.headD_cons]
  have isPeek' : cursor'.peek = token' := by rw [Cursor.peek, pending', List.headD_cons]
  rw [isNext, isNext', isPeek, isPeek', pending, List.tail_cons]
  rcases next.cases with
    ⟨second, _, second', _, -, -, ahead, ahead', like, -, line, gap⟩ |
      ⟨atStop, atStop', last, last', isLast, isLast', parts⟩
  · simp only [Cursor.peek, show later = _ from ahead, show later' = _ from ahead', List.headD_cons]
    exact .inl ⟨like, line, gap⟩
  · obtain rfl : token = last := Option.some.inj isLast
    obtain rfl : token' = last' := Option.some.inj isLast'
    have outside : ¬ passage.Inside { cursor with previous := some token, pending := later } :=
      fun inside => absurd inside (by
        rw [Passage.Inside, Cursor.left, Cursor.left, atStop]
        exact Nat.lt_irrefl _)
    obtain ⟨isStop, isStop'⟩ := next.peek_stop outside
    exact .inr ⟨atStop, isStop, isStop', parts⟩

end Level

namespace Passage.Ends

variable (ends : passage.Ends)

include ends

/-- A class of tokens that come after no way. -/
theorem kind_ne (kind : TokenKind) (comma : kind ≠ .comma) (closer : kind ≠ .rightParen) :
    passage.stop.isAt kind = false := by
  rw [Cursor.isAt, beq_eq_false_iff_ne]
  rcases ends.kind with same | same <;> rw [same]
  · exact comma.symm
  · exact closer.symm

theorem kind_ne' (kind : TokenKind) (closer : kind ≠ .rightParen) (ending : kind ≠ .endOfFile)
    (operator : kind ≠ .operator) : passage.stop'.isAt kind = false := by
  rw [Cursor.isAt, beq_eq_false_iff_ne]
  rcases ends.kind' with same | same | same <;> rw [same]
  · exact closer.symm
  · exact ending.symm
  · exact operator.symm

end Passage.Ends

namespace Level

variable (level : Level passage cursor cursor')

include level

/-- Both readings stand at a token of a kind, or neither does, unless the kind is one that may end
the passage. -/
theorem isAt_eq (ends : passage.Ends) (kind : TokenKind)
    (other : kind ∉ [TokenKind.comma, .rightParen, .endOfFile, .operator]) :
    cursor.isAt kind = cursor'.isAt kind := by
  simp only [List.mem_cons, List.not_mem_nil, or_false, not_or] at other
  obtain ⟨comma, closer, ending, operator⟩ := other
  exact level.test_peek (fun token => token.kind == kind) (fun _ _ like => by rw [like.kind])
    (ends.kind_ne _ comma closer) (ends.kind_ne' _ closer ending operator)

/-- Both readings stand at a keyword, or neither does. -/
theorem atKeyword_eq (ends : passage.Ends) (keyword : String) :
    cursor.atKeyword keyword = cursor'.atKeyword keyword := by
  have other : ∀ token : Token, (token.kind == .identifier) = false →
      token.isKeyword keyword = false := by
    intro token other
    rw [Token.isKeyword, other, Bool.false_and]
  refine level.test_peek (fun token => token.isKeyword keyword)
    (fun _ _ like => like.isKeyword keyword) (other _ ?_) (other _ ?_)
  · exact ends.kind_ne _ TokenKind.noConfusion TokenKind.noConfusion
  · exact ends.kind_ne' _ TokenKind.noConfusion TokenKind.noConfusion TokenKind.noConfusion

end Level

/-! ### Operators -/

namespace Level

variable (level : Level passage cursor cursor')

include level

/-- Tokens after the next ones pass the same tests, if these look at the words only and fail for what
comes after the way. -/
theorem test_second (inside : passage.Inside cursor) (test : Token → Bool)
    (respects : ∀ token token' : Token, token.Like token' → test token = test token')
    (fails : test passage.stop.peek = false) (fails' : test passage.stop'.peek = false) :
    test cursor.second = test cursor'.second := by
  rcases level.second_cases inside with ⟨like, -⟩ | ⟨-, isStop, isStop', -⟩
  · exact respects _ _ like
  · rw [isStop, isStop', fails, fails']

/-- An operator inside the passage is bound to what follows it in both streams, or in neither. -/
theorem rightBound_eq (ends : passage.Ends) (inside : passage.Inside cursor) :
    cursor.rightBound = cursor'.rightBound := by
  rcases level.second_cases inside with ⟨like, -, gap⟩ | ⟨-, isStop, isStop', parts⟩
  · rw [Cursor.rightBound, Cursor.rightBound, gap, like.kind]
  · have closes : Cursor.closesRight passage.stop.peek.kind = true := by
      rcases ends.kind with kind | kind <;> rw [kind] <;> rfl
    rw [Cursor.rightBound, Cursor.rightBound, isStop, isStop', closes, Bool.not_true, Bool.and_false]
    rcases ends.kind' with kind | kind | kind
    · rw [kind, Cursor.closesRight, Bool.not_true, Bool.and_false]
    · rw [kind, Cursor.closesRight, Bool.not_true, Bool.and_false]
    · rw [parts.apart (by rw [Cursor.isAt, kind, beq_self_eq_true]), Bool.false_and]

/-- Before the end of the way operators have the same places. -/
theorem atOperator_eq_of_inside (ends : passage.Ends) (inside : passage.Inside cursor)
    (role : Cursor.OperatorRole) : cursor.atOperator role = cursor'.atOperator role := by
  obtain ⟨token, later, token', later', -, pending, pending', like, -, bound⟩ := level.inside inside
  have isPeek : cursor.peek = token := by rw [Cursor.peek, pending, List.headD_cons]
  have isPeek' : cursor'.peek = token' := by rw [Cursor.peek, pending', List.headD_cons]
  rw [Cursor.atOperator, Cursor.atOperator, Cursor.isAt, Cursor.isAt, isPeek, isPeek', ← like.kind]
  by_cases operator : token.kind = .operator
  · rw [Cursor.role, Cursor.role, isPeek, isPeek', like.text, bound operator,
      level.rightBound_eq ends inside]
  · rw [beq_eq_false_iff_ne.2 operator, Bool.false_and, Bool.false_and]

/-- An operator that comes after the way stands between operands. -/
theorem role_of_stop (ends : passage.Ends) (outside : ¬ passage.Inside cursor)
    (operator : cursor'.isAt .operator = true) : cursor'.role = .between := by
  rcases level.cases with ⟨_, _, _, _, inside, -⟩ | ⟨-, abreast⟩
  · exact absurd inside outside
  rcases abreast.cases with ⟨_, _, _, _, inside, -⟩ |
    ⟨-, pending', _, last', -, previous', parts⟩
  · exact absurd inside outside
  have isPeek : cursor'.peek = passage.stop'.peek := (abreast.peek_stop outside).2
  have isSecond : cursor'.second = passage.stop'.second := by
    rw [Cursor.second, Cursor.second, pending', abreast.endOfFile']
  rw [Cursor.isAt, isPeek] at operator
  have left : cursor'.leftBound = false := by
    rw [Cursor.leftBound, Cursor.atAdjacent, previous', isPeek, parts.apart operator, Bool.false_and]
  have right : cursor'.rightBound = false := by
    rw [Cursor.rightBound, isPeek, isSecond, ends.right operator, Bool.false_and]
  rw [Cursor.role, left, right]
  simp

/-- Prefixes and suffixes have the same places. -/
theorem atOperator_eq (ends : passage.Ends) {role : Cursor.OperatorRole} (bound : role ≠ .between) :
    cursor.atOperator role = cursor'.atOperator role := by
  by_cases inside : passage.Inside cursor
  · exact level.atOperator_eq_of_inside ends inside role
  have none : cursor.isAt .operator = false := by
    rcases level.cases with ⟨_, _, _, _, here, -⟩ | ⟨-, abreast⟩
    · exact absurd here inside
    · rw [Cursor.isAt, (abreast.peek_stop inside).1]
      exact ends.kind_ne _ TokenKind.noConfusion TokenKind.noConfusion
  rw [Cursor.atOperator, Cursor.atOperator, none, Bool.false_and]
  cases operator : cursor'.isAt .operator with
  | false => rfl
  | true =>
    rw [level.role_of_stop ends inside operator, Bool.true_and]
    exact (beq_eq_false_iff_ne.2 bound.symm).symm

end Level

end SuiteMigration
