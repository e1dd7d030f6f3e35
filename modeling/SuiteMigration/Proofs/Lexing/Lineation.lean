import Mathlib.Tactic.Common
import SuiteMigration.Proofs.Lexing.Gaps

/-!
# Tokens on their lines

Where lines end decides which token owns what stands between two tokens: the line break and all that
follows it lead the next token, and what comes before it trails the last one. So trailing trivia
stay on the line of their token, and leading trivia, unless they are empty or come first in the
source, begin on a line of their own. A line break within the text of a token is in a string
literal.

This is an invariant of the reader of pieces. A token on the current line leaves no trivia waiting;
once its line has ended, the waiting trivia hold a line break. Skipped pieces change neither.

## Main definitions

* `Piece.Lined` - where a piece can hold a line break
* `Token.Lined` - where a token can hold a line break
* `Attachment.Lined` - the invariant

## Main results

* `Piece.lined_of_mem_segment` - the pieces of a text hold line breaks only where they can
* `Attachment.Lined.step` - a piece keeps the invariant
* `trivia_attached_by_line` - what the tokens of a source text and their trivia hold
-/

namespace SuiteMigration

/-! ### Line breaks in lexemes -/

namespace Lexeme

variable {c : Char} {text : List Char}

/-- A run of characters that end runs nowhere holds no line break. -/
theorem isLineBreak_of_runs {runs : Char → Bool}
    (halting : ∀ c ∈ '/' :: haltingCharacters, runs c = false) (runs_c : runs c = true) :
    isLineBreak c = false := by
  by_contra lineBreak
  have member : c ∈ '/' :: haltingCharacters := by
    simp only [isLineBreak, Bool.not_eq_false, Bool.or_eq_true, beq_iff_eq] at lineBreak
    rcases lineBreak with rfl | rfl <;> simp [haltingCharacters]
  rw [halting c member] at runs_c
  cases runs_c

theorem isLineBreak_of_isAlphanum (letter : (c.isAlphanum || c == '_') = true) :
    isLineBreak c = false :=
  isLineBreak_of_runs halting_alphanum letter

/-- The characters of a run have its property. -/
theorem of_mem_take_takeWhile {runs : Char → Bool}
    (member : c ∈ text.take (text.takeWhile runs).length) : runs c = true := by
  have start : text.takeWhile runs <+: text := List.takeWhile_prefix runs
  rw [← List.prefix_iff_eq_take.1 start] at member
  exact List.all_eq_true.1 List.all_takeWhile c member

/-- The first characters of a text up to some extent hold no line break. -/
def KeepsLine (extent : Nat) (text : List Char) : Prop :=
  ∀ c ∈ text.take extent, isLineBreak c = false

theorem keepsLine_zero (text : List Char) : KeepsLine 0 text := by
  simp [KeepsLine]

/-- An extent stays on its line if its first character does, and the rest. -/
theorem keepsLine_cons {extent : Nat} :
    KeepsLine (1 + extent) (c :: text) ↔ isLineBreak c = false ∧ KeepsLine extent text := by
  rw [Nat.add_comm, KeepsLine, List.take_succ_cons, List.forall_mem_cons, KeepsLine]

/-- A run of characters that are no line breaks stays on its line. -/
theorem keepsLine_takeWhile {runs : Char → Bool}
    (stays : ∀ c, runs c = true → isLineBreak c = false) :
    KeepsLine (text.takeWhile runs).length text :=
  fun c member => stays c (of_mem_take_takeWhile member)

theorem keepsLine_lineComment (text : List Char) : KeepsLine (lineComment text) text := by
  unfold lineComment
  split
  · next rest =>
    rw [show 2 + (rest.takeWhile fun c => !isLineBreak c).length =
      1 + (1 + (rest.takeWhile fun c => !isLineBreak c).length) by omega]
    exact keepsLine_cons.2 ⟨by decide, keepsLine_cons.2 ⟨by decide,
      keepsLine_takeWhile fun c => by simp⟩⟩
  · exact keepsLine_zero _

theorem keepsLine_plainName (text : List Char) : KeepsLine (plainName text) text := by
  cases text with
  | nil => exact keepsLine_zero _
  | cons c rest =>
    rw [plainName]
    split
    · next start =>
      have halting : ∀ c ∈ '/' :: haltingCharacters,
          (Text.isIdentifierStart c || c == '_') = false :=
        eq_false_of_any (by decide +kernel)
      have head : isLineBreak c = false := isLineBreak_of_runs halting start
      exact keepsLine_cons.2 ⟨head, keepsLine_takeWhile fun c =>
        isLineBreak_of_runs halting_continue⟩
    · exact keepsLine_zero _

theorem keepsLine_poundIdentifier (text : List Char) : KeepsLine (poundIdentifier text) text := by
  unfold poundIdentifier
  split
  · next rest =>
    have name := keepsLine_plainName rest
    split
    · exact keepsLine_zero _
    · rw [Nat.add_comm]
      exact keepsLine_cons.2 ⟨by decide, name⟩
  · exact keepsLine_zero _

theorem keepsLine_identifier (text : List Char) : KeepsLine (identifier text) text := by
  unfold identifier
  split
  · next rest =>
    dsimp only
    split
    · next closed =>
      -- Behind the name stands the second backquote.
      rw [Bool.and_eq_true, beq_iff_eq] at closed
      obtain ⟨later, text_eq⟩ := List.head?_eq_some_iff.1 closed.2
      rw [Nat.add_comm, show 2 + (rest.takeWhile isQuotable).length =
        1 + ((rest.takeWhile isQuotable).length + 1) by omega]
      refine keepsLine_cons.2 ⟨by decide, fun c member => ?_⟩
      rw [List.take_add, text_eq, List.take_succ_cons, List.take_zero, List.mem_append,
        List.mem_singleton] at member
      rcases member with inName | rfl
      · have quotable := of_mem_take_takeWhile inName
        simp only [isQuotable, Bool.and_eq_true, Bool.not_eq_true'] at quotable
        exact quotable.2
      · decide
    · exact keepsLine_zero _
  · next rest =>
    dsimp only
    split
    · rw [Nat.add_comm]
      exact keepsLine_cons.2 ⟨by decide, keepsLine_takeWhile fun c => isLineBreak_of_isAlphanum⟩
    · exact keepsLine_zero _
  · exact keepsLine_plainName _

/-- Digits, letters, signs and fractions stay on their line. -/
theorem keepsLine_numberRest (text : List Char) : KeepsLine (numberRest text) text := by
  fun_induction numberRest text with
  | case1 c d rest exponent ih =>
    simp only [Bool.and_eq_true, Bool.or_eq_true, beq_iff_eq] at exponent
    obtain ⟨letter, sign⟩ := exponent
    rw [show 2 + numberRest rest = 1 + (1 + numberRest rest) by omega]
    refine keepsLine_cons.2 ⟨?_, keepsLine_cons.2 ⟨?_, ih⟩⟩
    · rcases letter with ((rfl | rfl) | rfl) | rfl <;> decide
    · rcases sign with rfl | rfl <;> decide
  | case2 c d rest other letter ih =>
    exact keepsLine_cons.2 ⟨isLineBreak_of_isAlphanum letter, ih⟩
  | case3 c d rest other sign fraction ih =>
    simp only [Bool.and_eq_true, beq_iff_eq] at fraction
    obtain ⟨rfl, digit⟩ := fraction
    rw [show 2 + numberRest rest = 1 + (1 + numberRest rest) by omega]
    exact keepsLine_cons.2 ⟨by decide, keepsLine_cons.2
      ⟨isLineBreak_of_runs halting_digit digit, ih⟩⟩
  | case4 => exact keepsLine_zero _
  | case5 c letter =>
    exact keepsLine_cons.2 ⟨isLineBreak_of_isAlphanum letter, keepsLine_zero _⟩
  | case6 => exact keepsLine_zero _
  | case7 => exact keepsLine_zero _

theorem keepsLine_number (text : List Char) : KeepsLine (number text) text := by
  cases text with
  | nil => exact keepsLine_zero _
  | cons c rest =>
    rw [number]
    split
    · next digit =>
      exact keepsLine_cons.2 ⟨isLineBreak_of_runs halting_digit digit, keepsLine_numberRest rest⟩
    · exact keepsLine_zero _

theorem keepsLine_arrow (text : List Char) : KeepsLine (arrow text) text := by
  unfold arrow
  split
  · exact keepsLine_cons.2 ⟨by decide, keepsLine_cons.2 ⟨by decide, keepsLine_zero _⟩⟩
  · exact keepsLine_zero _

theorem keepsLine_range (text : List Char) : KeepsLine (range text) text := by
  unfold range
  split
  · exact keepsLine_cons.2 ⟨by decide, keepsLine_cons.2 ⟨by decide,
      keepsLine_cons.2 ⟨by decide, keepsLine_zero _⟩⟩⟩
  · exact keepsLine_cons.2 ⟨by decide, keepsLine_cons.2 ⟨by decide,
      keepsLine_cons.2 ⟨by decide, keepsLine_zero _⟩⟩⟩
  · exact keepsLine_zero _

theorem isLineBreak_of_isOperatorChar (sign : isOperatorChar c = true) :
    isLineBreak c = false := by
  by_contra lineBreak
  simp only [isLineBreak, Bool.not_eq_false, Bool.or_eq_true, beq_iff_eq] at lineBreak
  rcases lineBreak with rfl | rfl <;> cases sign

theorem keepsLine_operator (text : List Char) : KeepsLine (operator text) text := by
  fun_induction operator text with
  | case1 => exact keepsLine_zero _
  | case2 => exact keepsLine_zero _
  | case3 c rest _ _ sign ih => exact keepsLine_cons.2 ⟨isLineBreak_of_isOperatorChar sign, ih⟩
  | case4 => exact keepsLine_zero _
  | case5 => exact keepsLine_zero _

end Lexeme

/-! ### Line breaks in pieces -/

namespace Piece

open Lexeme

/-- Where the piece can hold a line break: the end of a line is one, a block comment can hold some,
and so can a string literal, but no other token and no other trivia. A token has some text, and is
not the end of the source. -/
def Lined : Piece → Prop
  | .newline text => text.any isLineBreak
  | .trivia text => ∀ c ∈ text, isLineBreak c = false
  | .comment _ _ => True
  | .token kind text =>
    kind ≠ .endOfFile ∧ text ≠ [] ∧ (kind ≠ .stringLiteral → ∀ c ∈ text, isLineBreak c = false)

/-- Punctuation stays on its line. -/
theorem keepsLine_punctuation (text : List Char) : KeepsLine (punctuation text) text := by
  cases text with
  | nil => exact keepsLine_zero _
  | cons c rest =>
    rw [punctuation]
    split
    · next sign =>
      refine keepsLine_cons.2 ⟨?_, keepsLine_zero _⟩
      by_contra lineBreak
      simp only [isLineBreak, Bool.not_eq_false, Bool.or_eq_true, beq_iff_eq] at lineBreak
      rcases lineBreak with rfl | rfl <;> cases sign
    · exact keepsLine_zero _

/-- No character is the end of the file. -/
theorem punctuationKind_ne_endOfFile (text : List Char) : punctuationKind text ≠ .endOfFile := by
  unfold punctuationKind
  cases text.head? with
  | none => decide
  | some c =>
    rw [Option.bind_some]
    unfold TokenKind.ofPunctuation?
    split <;> decide

/-- The characters that a class takes make a piece with line breaks only where it can hold some. -/
def Rule.KeepsLines (rule : Rule) : Prop :=
  ∀ text, 0 < rule.extent text → text ≠ [] → (rule.piece (text.take (rule.extent text))).Lined

/-- A rule for tokens keeps lines if its extent does. -/
theorem Rule.keepsLines_token {rule : Rule} {kind : List Char → TokenKind}
    (makes : ∀ taken, rule.piece taken = .token (kind taken) taken)
    (notEnd : ∀ taken, kind taken ≠ .endOfFile)
    (keeps : ∀ text, KeepsLine (rule.extent text) text) : rule.KeepsLines := by
  intro text pos nonempty
  rw [makes]
  refine ⟨notEnd _, fun empty => ?_, fun _ => keeps text⟩
  rw [List.take_eq_nil_iff] at empty
  exact empty.elim (Nat.ne_of_gt pos) nonempty

/-- A rule for string literals may span lines. -/
theorem Rule.keepsLines_string {extent : List Char → Nat} :
    Rule.KeepsLines ⟨extent, .token .stringLiteral⟩ := by
  intro text pos nonempty
  refine ⟨by decide, fun empty => ?_, fun other => absurd rfl other⟩
  rw [List.take_eq_nil_iff] at empty
  exact empty.elim (Nat.ne_of_gt pos) nonempty

theorem Rule.keepsLines_newline : Rule.KeepsLines ⟨Lexeme.newline, .newline⟩ := by
  intro text pos _
  show ((text.take (Lexeme.newline text)).any isLineBreak) = true
  revert pos
  show 0 < Lexeme.newline text → _
  unfold Lexeme.newline
  split <;> intro pos
  · rfl
  · rfl
  · rfl
  · cases pos

/-- Every rule takes line breaks only where its piece can hold them. -/
theorem keepsLines_of_mem_rules {rule : Rule} (member : rule ∈ rules) : rule.KeepsLines := by
  simp only [rules, List.mem_cons, List.not_mem_nil, or_false] at member
  rcases member with rfl | rfl | rfl | rfl | rfl | rfl | rfl | rfl | rfl | rfl | rfl | rfl | rfl
  · exact Rule.keepsLines_newline
  · exact fun text _ _ => keepsLine_takeWhile fun c => isLineBreak_of_isBlank
  · exact fun _ _ _ => trivial
  · exact fun text _ _ => keepsLine_lineComment text
  · exact Rule.keepsLines_string
  · exact Rule.keepsLines_string
  · exact Rule.keepsLines_token (fun _ => rfl) (fun _ => by decide) keepsLine_poundIdentifier
  · exact Rule.keepsLines_token (fun _ => rfl) (fun _ => by decide) keepsLine_number
  · exact Rule.keepsLines_token (fun _ => rfl) (fun _ => by decide) keepsLine_identifier
  · exact Rule.keepsLines_token (fun _ => rfl) (fun _ => by decide) keepsLine_arrow
  · exact Rule.keepsLines_token (fun _ => rfl) (fun _ => by decide) keepsLine_range
  · exact Rule.keepsLines_token (fun _ => rfl) (fun _ => by decide) keepsLine_operator
  · exact Rule.keepsLines_token (fun _ => rfl) punctuationKind_ne_endOfFile keepsLine_punctuation

/-- The class of last resort does not get to see a line break. -/
theorem lined_unknown {c : Char} {rest : List Char}
    (found : first (c :: rest) rules = (unknown, 1)) :
    (Piece.token .unknown [c]).Lined := by
  refine ⟨by decide, by simp, fun _ d member => ?_⟩
  obtain rfl := List.mem_singleton.1 member
  have made : unknown.piece [d] = .token .unknown [d] := rfl
  have plain := plain_of_token found made
  exact (newline_cons_eq_zero_iff rest).1 plain.1

/-- Every piece of a source holds line breaks only where it can. -/
theorem lined_of_mem_segmentWithin {fuel : Nat} {text : List Char} {piece : Piece}
    (member : piece ∈ segmentWithin fuel text) : piece.Lined := by
  induction fuel generalizing text with
  | zero => simp [segmentWithin] at member
  | succ fuel ih =>
    cases text with
    | nil => simp [segmentWithin] at member
    | cons c rest =>
      rw [segmentWithin, List.mem_cons] at member
      rcases member with rfl | later
      · rcases first_mem (c :: rest) rules with ⟨isRule, pos, extent_eq⟩ | resort
        · rw [extent_eq]
          exact keepsLines_of_mem_rules isRule _ pos (List.cons_ne_nil c rest)
        · rw [resort]
          exact lined_unknown resort
      · exact ih later

/-- The pieces of a text hold line breaks only where they can. -/
theorem lined_of_mem_segment {text : List Char} {piece : Piece} (member : piece ∈ segment text) :
    piece.Lined :=
  lined_of_mem_segmentWithin member

end Piece

/-! ### Line breaks around tokens -/

/-- Where the token can hold a line break: in its text if it is a string literal, and not in its
trailing trivia. The token has some text, and is not the end of the source. -/
structure Token.Lined (token : Token) : Prop where
  notEnd : token.kind ≠ .endOfFile
  text_ne : token.text ≠ ""
  text : token.kind ≠ .stringLiteral → ∀ c ∈ token.text.toList, isLineBreak c = false
  trailing : ∀ c ∈ token.trailing.toList, isLineBreak c = false

/-- A token with a line break in it is a string literal. -/
theorem Token.Lined.isStringLiteral {token : Token} (lined : token.Lined)
    (broken : token.text.toList.any isLineBreak = true) : token.kind = .stringLiteral := by
  by_contra other
  obtain ⟨c, inside, lineBreak⟩ := List.any_eq_true.1 broken
  rw [lined.text other c inside] at lineBreak
  cases lineBreak

/-- Trivia that begin on a line of their own, if there are any. -/
def Trivia.StartsLine (trivia : Trivia) : Prop :=
  trivia = "" ∨ trivia.containsNewline = true

/-- Trivia in a row has a line feed in one of its parts. -/
theorem Trivia.containsNewline_append (first second : Trivia) :
    containsNewline (first ++ second) = (first.containsNewline || second.containsNewline) := by
  rw [containsNewline, String.toList_append, List.any_append]
  rfl

namespace Attachment

/-- The tokens so far hold line breaks only where they can, and all of them but the first have
leading trivia that begin on a line of their own. After a token on the current line no trivia
wait, and after a token on an earlier line those that wait hold a line break. -/
structure Lined (state : Attachment) : Prop where
  tokens : ∀ token ∈ state.tokens, token.Lined
  leading : ∀ token ∈ state.tokens.dropLast, token.leading.StartsLine
  onLine : state.tokens ≠ [] → state.onTokenLine = true → state.pending = ""
  offLine : state.tokens ≠ [] → state.onTokenLine = false → state.pending.containsNewline = true

variable {state : Attachment} {text : List Char}

/-- Behind a token, what waits for the next one begins on another line. -/
theorem Lined.pending (lined : state.Lined) (some : state.tokens ≠ []) :
    state.pending.StartsLine := by
  cases onLine : state.onTokenLine with
  | true => exact .inl (lined.onLine some onLine)
  | false => exact .inr (lined.offLine some onLine)

theorem Lined.withSkipping (lined : state.Lined) (skipping : Nat) :
    { state with skipping }.Lined :=
  ⟨lined.tokens, lined.leading, lined.onLine, lined.offLine⟩

/-- A line break ends the line of the last token. -/
theorem Lined.breakLine (lined : state.Lined) (ends : text.any isLineBreak = true) :
    (state.breakLine (.ofList text)).Lined where
  tokens := lined.tokens
  leading := lined.leading
  onLine _ onLine := Bool.noConfusion onLine
  offLine _ _ := by
    have own : Trivia.containsNewline (.ofList text) = true := by
      rw [Trivia.containsNewline, String.toList_ofList, ends]
    show Trivia.containsNewline (state.pending ++ _) = true
    rw [Trivia.containsNewline_append, own, Bool.or_true]

/-- Trivia without a line break goes to the token of its line. -/
theorem Lined.attach (lined : state.Lined) (stays : ∀ c ∈ text, isLineBreak c = false) :
    (state.attach (.ofList text)).Lined := by
  unfold Attachment.attach
  split
  · next last earlier onLine isLast =>
    obtain ⟨tokens, leading, onLine, offLine⟩ := lined
    rw [isLast] at tokens leading onLine offLine
    obtain ⟨lastLined, earlierLined⟩ := List.forall_mem_cons.1 tokens
    refine ⟨List.forall_mem_cons.2 ⟨⟨lastLined.notEnd, lastLined.text_ne, lastLined.text, ?_⟩,
      earlierLined⟩, ?_, fun _ => onLine (by simp), fun _ => offLine (by simp)⟩
    · -- The trivia go behind those that trail the last token already.
      intro c member
      rw [Token.withTrailing, String.toList_append, String.toList_ofList, List.mem_append] at member
      exact member.elim (lastLined.trailing c) (stays c)
    · cases earlier with
      | nil => simp
      | cons before earlier =>
        rw [List.dropLast_cons_cons] at leading ⊢
        exact List.forall_mem_cons.2 (List.forall_mem_cons.1 leading)
  · next notOnLine =>
    refine ⟨lined.tokens, lined.leading, fun some onLine => ?_, fun some offLine => ?_⟩
    · obtain ⟨last, earlier, isLast⟩ := List.exists_cons_of_ne_nil some
      exact absurd isLast (notOnLine last earlier onLine)
    · show Trivia.containsNewline (state.pending ++ _) = true
      rw [Trivia.containsNewline_append, lined.offLine some offLine, Bool.true_or]

/-- A token takes what has waited for it. -/
theorem Lined.token (lined : state.Lined) {kind : TokenKind}
    (isLined : (Piece.token kind text).Lined) : (state.token kind text).Lined := by
  obtain ⟨notEnd, some, stays⟩ := isLined
  have new : Token.Lined { kind, text := .ofList text, leading := state.pending } := by
    refine ⟨notEnd, fun empty => some ?_, fun other => ?_, by simp⟩
    · simpa using congrArg String.toList empty
    · simpa using stays other
  refine ⟨List.forall_mem_cons.2 ⟨new, lined.tokens⟩, ?_, fun _ _ => rfl,
    fun _ offLine => Bool.noConfusion offLine⟩
  show ∀ token ∈ (_ :: state.tokens).dropLast, _
  by_cases none : state.tokens = []
  · rw [none]
    exact List.forall_mem_nil _
  · rw [List.dropLast_cons_of_ne_nil none]
    exact List.forall_mem_cons.2 ⟨lined.pending none, lined.leading⟩

/-- A comment is trivia of its lines. -/
theorem Lined.comment (lined : state.Lined) (text : List Char) : (state.comment text).Lined := by
  unfold Attachment.comment
  split
  · exact lined.withSkipping _
  · refine Lined.withSkipping ?_ _
    cases ends : text.any isLineBreak with
    | true => exact lined.breakLine ends
    | false => exact lined.attach (Lexeme.eq_false_of_any ends)

theorem Lined.comments (lined : state.Lined) (texts : List (List Char)) :
    (texts.foldl Attachment.comment state).Lined := by
  induction texts generalizing state with
  | nil => exact lined
  | cons text later ih => exact ih (lined.comment text)

/-- A piece keeps the invariant, whether it is read or skipped. -/
theorem Lined.step (lined : state.Lined) {piece : Piece} (isLined : piece.Lined) :
    (state.step piece).Lined := by
  cases piece with
  | comment text nested => exact (lined.comment text).comments nested
  | newline text =>
    rw [Attachment.step]
    split
    · exact lined.breakLine isLined
    · exact lined
  | trivia text =>
    rw [Attachment.step]
    split
    · exact lined.attach isLined
    · exact lined
  | token kind text =>
    rw [Attachment.step]
    split
    · exact lined.token isLined
    · exact lined

/-- Every piece keeps the invariant. -/
theorem Lined.foldl_step (lined : state.Lined) {pieces : List Piece}
    (areLined : ∀ piece ∈ pieces, piece.Lined) : (pieces.foldl Attachment.step state).Lined := by
  induction pieces generalizing state with
  | nil => exact lined
  | cons piece later ih =>
    obtain ⟨isLined, areLined⟩ := List.forall_mem_cons.1 areLined
    exact ih (lined.step isLined) areLined

/-- It holds before the first piece. -/
theorem lined_start : Attachment.Lined {} := by
  refine ⟨?_, ?_, ?_, ?_⟩ <;> simp

/-! ### The end of the source -/

/-- At the end the tokens are in their order, with the end of the file behind them. -/
theorem toList_finish (state : Attachment) :
    state.finish.toList = state.tokens.reverse ++ [state.finish.endOfFile] :=
  rfl

theorem mem_toList_finish_iff {token : Token} :
    token ∈ state.finish.toList ↔ token ∈ state.tokens ∨ token = state.finish.endOfFile := by
  rw [toList_finish, List.mem_append, List.mem_reverse, List.mem_singleton]

/-- The end of the source is the last token, and no other. -/
theorem Lined.kind_eq_endOfFile_iff (lined : state.Lined) {before later : List Token}
    {token : Token} (cut : state.finish.toList = before ++ token :: later) :
    token.kind = .endOfFile ↔ later = [] := by
  rw [toList_finish] at cut
  rcases List.eq_nil_or_concat later with rfl | ⟨others, last, rfl⟩
  · obtain ⟨-, same⟩ := List.append_inj' cut rfl
    obtain rfl := List.singleton_inj.1 same
    exact iff_of_true rfl rfl
  · rw [List.concat_eq_append, ← List.cons_append, ← List.append_assoc] at cut
    obtain ⟨same, -⟩ := List.append_inj' cut rfl
    have member : token ∈ state.tokens := by
      rw [← List.mem_reverse, same]
      simp
    exact iff_of_false (lined.tokens token member).notEnd (by simp)

/-- All tokens but the first, and the end of the source if there is a first, have leading trivia
that begin on a line of their own. -/
theorem Lined.startsLine_of_mem_tail (lined : state.Lined) {token : Token}
    (member : token ∈ state.finish.toList.tail) : token.leading.StartsLine := by
  by_cases none : state.tokens = []
  · rw [toList_finish, none] at member
    cases member
  · have some : state.tokens.reverse ≠ [] := by simpa using none
    rw [toList_finish, List.tail_append_of_ne_nil some, List.tail_reverse, List.mem_append,
      List.mem_reverse, List.mem_singleton] at member
    rcases member with word | rfl
    · exact lined.leading token word
    · exact lined.pending none

end Attachment

/-! ### Texts -/

/-- The reader of a source text ends with tokens on their lines. -/
theorem lined_tokenize (source : String) :
    ((Piece.segment source.toList).foldl Attachment.step {}).Lined :=
  Attachment.lined_start.foldl_step fun _ => Piece.lined_of_mem_segment

/-- Of the tokens of a source text exactly the last is the end of the source, and all others have
some text. No token is trailed by a line break. What leads a token other than the first one is
nothing, or holds a line break. Only the text of a string literal holds line breaks. -/
theorem trivia_attached_by_line (source : String) :
    let tokens := (tokenize source).toList
    (∀ before token later, tokens = before ++ token :: later →
      (token.kind = .endOfFile ↔ later = [])) ∧
    (∀ token ∈ tokens, token.kind ≠ .endOfFile → token.text ≠ "") ∧
    (∀ token ∈ tokens, token.trailing.containsNewline = false) ∧
    (∀ token ∈ tokens.tail, token.leading = "" ∨ token.leading.containsNewline = true) ∧
    ∀ token ∈ tokens, token.text.toList.any isLineBreak = true → token.kind = .stringLiteral := by
  have lined := lined_tokenize source
  rw [tokenize]
  generalize (Piece.segment source.toList).foldl Attachment.step {} = state at lined
  refine ⟨fun _ _ _ => lined.kind_eq_endOfFile_iff, ?_, ?_,
    fun _ => lined.startsLine_of_mem_tail, ?_⟩
  · intro token member notEnd
    rcases Attachment.mem_toList_finish_iff.1 member with word | rfl
    · exact (lined.tokens token word).text_ne
    · exact absurd rfl notEnd
  · intro token member
    rcases Attachment.mem_toList_finish_iff.1 member with word | rfl
    · exact List.any_eq_false.2 fun c inside =>
        Bool.eq_false_iff.1 ((lined.tokens token word).trailing c inside)
    · rfl
  · intro token member broken
    rcases Attachment.mem_toList_finish_iff.1 member with word | rfl
    · exact (lined.tokens token word).isStringLiteral broken
    · cases broken

end SuiteMigration
