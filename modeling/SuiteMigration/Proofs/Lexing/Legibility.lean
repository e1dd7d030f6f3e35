import Mathlib.Tactic.Common
import SuiteMigration.Proofs.Lexing.Gaps
import SuiteMigration.Proofs.Lexing.Words

/-!
# Legible tokens

Tokens can be written down so that reading the text gives other tokens: two of them may run into
one, or a comment may take what comes after it. Tokens are legible in front of a text if each of
them, cut off in its place, is the token that it is, with trivia around it. Legible tokens are read
again as they are. Conversely the tokens of a text are legible, as long as the text is given back.

## Main definitions

* `spelling` - the words of some tokens, each with the gap in front of it
* `Legible` - each token can be told from what is around it
* `ReadsBack` - the text of some tokens is read as their words

## Main results

* `spelling_tokenize_of_legible` - legible tokens are read again as they are
* `legible_tokenize` - the tokens of a text that is given back are legible
* `head_words_of_leads` - the first word of a text stands behind a gap
* `SourceFile.legible_of_infix` - so are the tokens that a part of its tree stands for
* `Legible.readsBack` - the text of a tree with legible tokens has the words of the tree
-/

namespace SuiteMigration

open Lexeme

/-! ### Words and the gaps before them -/

/-- The words of the tokens, each with the trivia in front of it, which belong to the token itself
or to the one before it. A token without text is no word, and its trivia are put to the next. -/
def spelling (gap : List Char) : List Token → List (List Char × TokenKind × String)
  | [] => []
  | token :: later =>
    if token.text = "" then spelling (gap ++ token.leading.toList ++ token.trailing.toList) later
    else (gap ++ token.leading.toList, token.kind, token.text) ::
      spelling token.trailing.toList later

/-- The trivia after the last word of the tokens. -/
def gapAfter (gap : List Char) : List Token → List Char
  | [] => gap
  | token :: later =>
    if token.text = "" then gapAfter (gap ++ token.leading.toList ++ token.trailing.toList) later
    else gapAfter token.trailing.toList later

/-- The words and the gaps between them make up the text. -/
theorem toList_renderAll_eq_spelling (gap : List Char) (tokens : List Token) :
    gap ++ (Token.renderAll tokens).toList =
      (spelling gap tokens).flatMap (fun word => word.1 ++ word.2.2.toList) ++
        gapAfter gap tokens := by
  induction tokens generalizing gap with
  | nil => simp [spelling, gapAfter]
  | cons token later ih =>
    rw [spelling, gapAfter, Token.renderAll_cons, Token.render]
    split
    · next none =>
      rw [← ih]
      simp [none]
    · rw [List.flatMap_cons, List.append_assoc, ← ih]
      simp

/-- Tokens in a row are spelled one after the other, the gap between them shared. -/
theorem spelling_append (gap : List Char) (first second : List Token) :
    spelling gap (first ++ second) = spelling gap first ++ spelling (gapAfter gap first) second := by
  induction first generalizing gap with
  | nil => rfl
  | cons token later ih =>
    rw [List.cons_append, spelling, spelling, gapAfter]
    split
    · exact ih _
    · rw [ih, List.cons_append]

theorem gapAfter_append (gap : List Char) (first second : List Token) :
    gapAfter gap (first ++ second) = gapAfter (gapAfter gap first) second := by
  induction first generalizing gap with
  | nil => rfl
  | cons token later ih =>
    rw [List.cons_append, gapAfter, gapAfter]
    split <;> exact ih _

/-- The words are the tokens with a text. -/
theorem map_snd_spelling (gap : List Char) (tokens : List Token) :
    (spelling gap tokens).map Prod.snd =
      (tokens.filter fun token => token.text != "").map fun token => (token.kind, token.text) := by
  induction tokens generalizing gap with
  | nil => rfl
  | cons token later ih =>
    rw [spelling]
    split
    · next none => rw [List.filter_cons_of_neg (by simp [none]), ih]
    · next word =>
      rw [List.filter_cons_of_pos (by simp [word]), List.map_cons, List.map_cons, ih]

/-! ### Reading on -/

namespace Attachment

variable {state : Attachment} {text : List Char}

/-- The pieces of a text are read. -/
def read (state : Attachment) (text : List Char) : Attachment :=
  (Piece.segment text).foldl step state

/-- The words read so far. -/
def words (state : Attachment) : List (List Char × TokenKind × String) :=
  spelling [] state.tokens.reverse

/-- The trivia read since the last word. -/
def gap (state : Attachment) : List Char :=
  gapAfter [] state.tokens.reverse ++ state.pending.toList

/-- Reading can go on with the text: nothing of it is skipped. -/
structure Ready (state : Attachment) (text : List Char) : Prop where
  fit : state.Fit
  skips : text ≠ [] → state.skipping = 0

/-- The second state has read some trivia more than the first one, and can go on with the text. -/
structure Absorbs (state : Attachment) (trivia : List Char) (next : Attachment)
    (text : List Char) : Prop where
  ready : next.Ready text
  words : next.words = state.words
  gap : next.gap = state.gap ++ trivia

/-- Trivia absorbed one after the other are absorbed together. -/
theorem Absorbs.trans {state middle next : Attachment} {first second text text' : List Char}
    (before : state.Absorbs first middle text) (after : middle.Absorbs second next text') :
    state.Absorbs (first ++ second) next text' :=
  ⟨after.ready, after.words.trans before.words,
    by rw [after.gap, before.gap, List.append_assoc]⟩

@[simp] theorem skipping_attach (state : Attachment) (trivia : Trivia) :
    (state.attach trivia).skipping = state.skipping := by
  unfold attach
  split <;> rfl

theorem absorbs_attach (fit : state.Fit) (none : state.skipping = 0) (trivia text : List Char) :
    state.Absorbs trivia (state.attach (.ofList trivia)) text := by
  suffices kept : (state.attach (.ofList trivia)).words = state.words ∧
      (state.attach (.ofList trivia)).gap = state.gap ++ trivia from
    ⟨⟨(adds_attach fit _).fit, fun _ => by rw [skipping_attach, none]⟩, kept.1, kept.2⟩
  obtain ⟨tokens, pending, onTokenLine, skipping⟩ := state
  unfold attach
  split
  · next last earlier onLine isLast =>
    obtain rfl : onTokenLine = true := onLine
    obtain rfl : tokens = last :: earlier := isLast
    obtain ⟨rfl, -⟩ := fit rfl
    simp only [words, gap, List.reverse_cons, spelling_append, gapAfter_append, spelling, gapAfter,
      Token.withTrailing]
    split <;> simp
  · exact ⟨rfl, by simp [gap]⟩

theorem absorbs_breakLine (none : state.skipping = 0) (trivia text : List Char) :
    state.Absorbs trivia (state.breakLine (.ofList trivia)) text :=
  ⟨⟨(state.adds_breakLine _).fit, fun _ => none⟩, rfl, by simp [gap, breakLine]⟩

/-- A comment is put where other trivia are, whatever is to be skipped after it. -/
theorem step_comment (none : state.skipping = 0) (rest : List Char) :
    state.step (.comment ('/' :: '*' :: rest) (Lexeme.nestedComments ('/' :: '*' :: rest))) =
      { (if ('/' :: '*' :: rest).any isLineBreak then state.breakLine (.ofList ('/' :: '*' :: rest))
          else state.attach (.ofList ('/' :: '*' :: rest))) with
        skipping := openings ('/' :: '*' :: rest) - 1 -
          (Lexeme.nestedComments ('/' :: '*' :: rest)).length } := by
  have enough := Lexeme.length_nestedComments_lt rest
  have comment_eq : state.comment ('/' :: '*' :: rest) =
      { (if ('/' :: '*' :: rest).any isLineBreak then state.breakLine (.ofList ('/' :: '*' :: rest))
          else state.attach (.ofList ('/' :: '*' :: rest))) with
        skipping := openings ('/' :: '*' :: rest) - 1 } := by
    rw [Attachment.comment, none]
  rw [step, foldl_comment_of_le, comment_eq]
  rw [comment_eq]
  show _ ≤ openings ('/' :: '*' :: rest) - 1
  omega

/-- A comment is absorbed. If it is not exact, nothing may come after it. -/
theorem absorbs_comment (fit : state.Fit) (none : state.skipping = 0) {comment : List Char}
    {nested : List (List Char)} (wellFormed : (Piece.comment comment nested).WellFormed)
    (exact : text ≠ [] → (Piece.comment comment nested).Exact) :
    state.Absorbs comment (state.step (.comment comment nested)) text := by
  obtain ⟨adds, skipping⟩ := adds_step fit none wellFormed
  have ready : (state.step (.comment comment nested)).Ready text :=
    ⟨adds.fit, fun some => skipping.trans ((excess_eq_zero_iff wellFormed).2 (exact some))⟩
  suffices kept : (state.step (.comment comment nested)).words = state.words ∧
      (state.step (.comment comment nested)).gap = state.gap ++ comment from
    ⟨ready, kept.1, kept.2⟩
  obtain ⟨rest, rfl, rfl⟩ := wellFormed
  rw [step_comment none]
  split
  · have absorbs := absorbs_breakLine none ('/' :: '*' :: rest) text
    exact ⟨absorbs.words, absorbs.gap⟩
  · have absorbs := absorbs_attach fit none ('/' :: '*' :: rest) text
    exact ⟨absorbs.words, absorbs.gap⟩

/-! ### Reading a gap -/

/-- Trivia attached twice are attached as one. -/
theorem attach_attach (state : Attachment) (first second : List Char) :
    (state.attach (.ofList first)).attach (.ofList second) =
      state.attach (.ofList (first ++ second)) := by
  obtain ⟨tokens, pending, onTokenLine, skipping⟩ := state
  cases onTokenLine with
  | false => simp [attach, String.append_assoc, String.ofList_append]
  | true =>
    cases tokens with
    | nil => simp [attach, String.append_assoc, String.ofList_append]
    | cons last earlier => simp [attach, Token.withTrailing, String.append_assoc, String.ofList_append]

/-- Lines broken twice are broken as one. -/
theorem breakLine_breakLine (state : Attachment) (first second : List Char) :
    (state.breakLine (.ofList first)).breakLine (.ofList second) =
      state.breakLine (.ofList (first ++ second)) := by
  simp [breakLine, String.append_assoc, String.ofList_append]

/-- A piece that leads the text is read first. -/
theorem read_of_leads {piece : Piece} {rest : List Char} (leads : piece.Leads rest) :
    state.read (piece.text ++ rest) = (state.step piece).read rest := by
  rw [read, leads.segment, List.foldl_cons]
  rfl

/-- A blank is read as trivia. -/
theorem read_blank (none : state.skipping = 0) {c : Char} (blank : isBlank c = true)
    (rest : List Char) : state.read (c :: rest) = (state.attach (.ofList [c])).read rest := by
  have step_eq (state : Attachment) (none : state.skipping = 0) (run : List Char) :
      state.step (.trivia run) = state.attach (.ofList run) := if_pos none
  unfold read
  rcases Piece.segment_blank blank rest with alone | ⟨run, later, -, after, merged⟩
  · rw [alone, List.foldl_cons, step_eq state none]
  · rw [merged, after, List.foldl_cons, List.foldl_cons, step_eq state none,
      step_eq _ (by rw [skipping_attach, none]), attach_attach]
    rfl

/-- A line break is read as trivia that begins a line. -/
theorem read_lineBreak (none : state.skipping = 0) {c : Char} (lineBreak : isLineBreak c = true)
    (rest : List Char) : state.read (c :: rest) = (state.breakLine (.ofList [c])).read rest := by
  have step_eq (state : Attachment) (none : state.skipping = 0) (run : List Char) :
      state.step (.newline run) = state.breakLine (.ofList run) := if_pos none
  unfold read
  rcases Piece.segment_lineBreak lineBreak rest with alone | ⟨run, later, after, merged⟩
  · rw [alone, List.foldl_cons, step_eq state none]
  · rw [merged, after, List.foldl_cons, List.foldl_cons, step_eq state none, step_eq (state.breakLine _) none,
      breakLine_breakLine]
    rfl

end Attachment

/-- A gap is read as trivia. -/
theorem IsGap.read {rest gap : List Char} (isGap : IsGap rest gap) {state : Attachment}
    (ready : state.Ready (gap ++ rest)) :
    ∃ next, state.read (gap ++ rest) = next.read rest ∧ state.Absorbs gap next rest := by
  -- Blanks are taken one at a time, comments as a whole. In each case the rest of the gap is read
  -- from a state that is ready again.
  induction isGap generalizing state with
  | nil => exact ⟨state, rfl, ready, rfl, by rw [List.append_nil]⟩
  | @space c gap space _ ih =>
    have none := ready.skips (List.cons_ne_nil _ _)
    rw [Bool.or_eq_true] at space
    rcases space with blank | lineBreak
    · have absorbs := Attachment.absorbs_attach ready.fit none [c] (gap ++ rest)
      obtain ⟨next, same, later⟩ := ih absorbs.ready
      exact ⟨next, (Attachment.read_blank none blank _).trans same, absorbs.trans later⟩
    · have absorbs := Attachment.absorbs_breakLine none [c] (gap ++ rest)
      obtain ⟨next, same, later⟩ := ih absorbs.ready
      exact ⟨next, (Attachment.read_lineBreak none lineBreak _).trans same, absorbs.trans later⟩
  | @block text nested gap leads exact _ ih =>
    obtain ⟨body, rfl, rfl, -⟩ := Piece.leads_comment_iff.1 leads
    have none := ready.skips (List.cons_ne_nil _ _)
    have absorbs := Attachment.absorbs_comment ready.fit none ⟨body, rfl, rfl⟩ exact
    obtain ⟨next, same, later⟩ := ih absorbs.ready
    have read_eq : state.read ('/' :: '*' :: body ++ (gap ++ rest)) = _ :=
      Attachment.read_of_leads leads
    rw [List.append_assoc]
    exact ⟨next, read_eq.trans same, absorbs.trans later⟩
  | @line text gap inLine line _ ih =>
    have none := ready.skips (List.cons_ne_nil _ _)
    have absorbs := Attachment.absorbs_attach ready.fit none ('/' :: '/' :: text) (gap ++ rest)
    obtain ⟨next, same, later⟩ := ih absorbs.ready
    have read_eq : state.read ('/' :: '/' :: text ++ (gap ++ rest)) =
        (state.step (.trivia ('/' :: '/' :: text))).read (gap ++ rest) :=
      Attachment.read_of_leads (Piece.leads_lineComment_iff.2 ⟨inLine, line⟩)
    rw [Attachment.step, if_pos none] at read_eq
    rw [List.append_assoc]
    exact ⟨next, read_eq.trans same, absorbs.trans later⟩

/-! ### Legible tokens -/

/-- In front of the text the token is cut off as the token that it is, with its trivia around it. A
token without text has only trivia. -/
structure Token.LegibleBefore (token : Token) (rest : List Char) : Prop where
  leading : IsGap (token.text.toList ++ (token.trailing.toList ++ rest)) token.leading.toList
  word : token.text ≠ "" →
    (Piece.token token.kind token.text.toList).Leads (token.trailing.toList ++ rest)
  trailing : IsGap rest token.trailing.toList

/-- Each of the tokens can be told from what is around it. -/
def Legible : List Token → List Char → Prop
  | [], _ => True
  | token :: later, rest =>
    token.LegibleBefore ((Token.renderAll later).toList ++ rest) ∧ Legible later rest

theorem Token.toList_render (token : Token) : token.render.toList =
    token.leading.toList ++ (token.text.toList ++ token.trailing.toList) := by
  simp [Token.render]

theorem toList_renderAll_cons (token : Token) (later : List Token) :
    (Token.renderAll (token :: later)).toList = token.leading.toList ++
      (token.text.toList ++ (token.trailing.toList ++ (Token.renderAll later).toList)) := by
  simp [Token.render]

/-- Tokens are legible in a row when the first ones are before the text of the others, and these
before the rest. -/
theorem legible_append {first second : List Token} {rest : List Char} :
    Legible (first ++ second) rest ↔
      Legible first ((Token.renderAll second).toList ++ rest) ∧ Legible second rest := by
  induction first with
  | nil => simp [Legible]
  | cons token later ih =>
    rw [List.cons_append, Legible, Legible, ih, Token.renderAll_append, String.toList_append,
      List.append_assoc, and_assoc]

theorem legible_singleton {token : Token} {rest : List Char} :
    Legible [token] rest ↔ token.LegibleBefore rest := by
  simp [Legible]

namespace Attachment

variable {state : Attachment} {text : List Char}

/-- The second state has read some tokens more than the first one, and can go on with the text. -/
structure Spells (state : Attachment) (tokens : List Token) (next : Attachment)
    (text : List Char) : Prop where
  ready : next.Ready text
  words : next.words = state.words ++ spelling state.gap tokens
  gap : next.gap = gapAfter state.gap tokens

/-- Tokens read one after the other are read together. -/
theorem Spells.trans {state middle next : Attachment} {first second : List Token}
    {text text' : List Char} (before : state.Spells first middle text)
    (after : middle.Spells second next text') : state.Spells (first ++ second) next text' :=
  ⟨after.ready,
    by rw [after.words, before.words, before.gap, List.append_assoc, ← spelling_append],
    by rw [after.gap, before.gap, ← gapAfter_append]⟩

theorem words_token (state : Attachment) (kind : TokenKind) {lexeme : List Char} (nonempty : lexeme ≠ []) :
    (state.token kind lexeme).words = state.words ++ [(state.gap, kind, .ofList lexeme)] ∧
      (state.token kind lexeme).gap = [] := by
  have word : String.ofList lexeme ≠ "" := by simpa using nonempty
  simp [words, gap, token, spelling_append, gapAfter_append, spelling, gapAfter, word]

end Attachment

/-- A legible token is read as it is. -/
theorem Token.LegibleBefore.read {token : Token} {rest : List Char}
    (legible : token.LegibleBefore rest) {state : Attachment}
    (ready : state.Ready (token.render.toList ++ rest)) :
    ∃ next, state.read (token.render.toList ++ rest) = Attachment.read next rest ∧
      state.Spells [token] next rest := by
  simp only [Token.toList_render, List.append_assoc] at ready ⊢
  obtain ⟨before, read_before, absorbs⟩ := legible.leading.read ready
  rw [read_before]
  -- A token without a text is only trivia, and adds to the gap.
  by_cases none : token.text = ""
  · simp only [none, String.toList_empty, List.nil_append] at absorbs ⊢
    obtain ⟨after, read_after, absorbs'⟩ := legible.trailing.read absorbs.ready
    have both := absorbs.trans absorbs'
    refine ⟨after, read_after, both.ready, ?_, ?_⟩
    · rw [both.words, spelling, if_pos none, spelling, List.append_nil]
    · rw [both.gap, gapAfter, if_pos none, gapAfter, List.append_assoc]
  · have some : token.text.toList ≠ [] := by simpa using none
    have zero := absorbs.ready.skips (List.append_ne_nil_of_left_ne_nil some _)
    have read_word : before.read (token.text.toList ++ (token.trailing.toList ++ rest)) =
        (before.step (.token token.kind token.text.toList)).read (token.trailing.toList ++ rest) :=
      Attachment.read_of_leads (legible.word none)
    rw [Attachment.step, if_pos zero] at read_word
    have ready' : (before.token token.kind token.text.toList).Ready
        (token.trailing.toList ++ rest) := ⟨(before.adds_token _ _).fit, fun _ => zero⟩
    obtain ⟨words_eq, gap_eq⟩ := before.words_token token.kind some
    obtain ⟨after, read_after, absorbs'⟩ := legible.trailing.read ready'
    refine ⟨after, read_word.trans read_after, absorbs'.ready, ?_, ?_⟩
    · rw [absorbs'.words, words_eq, absorbs.words, absorbs.gap, String.ofList_toList, spelling,
        if_neg none, spelling]
    · rw [absorbs'.gap, gap_eq, List.nil_append, gapAfter, if_neg none, gapAfter]

/-- Legible tokens are read as they are. -/
theorem Legible.read {tokens : List Token} {rest : List Char} (legible : Legible tokens rest)
    {state : Attachment} (ready : state.Ready ((Token.renderAll tokens).toList ++ rest)) :
    ∃ next, state.read ((Token.renderAll tokens).toList ++ rest) = Attachment.read next rest ∧
      state.Spells tokens next rest := by
  induction tokens generalizing state with
  | nil => exact ⟨state, rfl, ready, by rw [spelling, List.append_nil], rfl⟩
  | cons token later ih =>
    rw [Token.renderAll_cons, String.toList_append, List.append_assoc] at ready ⊢
    obtain ⟨middle, read_token, before⟩ := legible.1.read ready
    obtain ⟨next, read_later, after⟩ := ih legible.2 before.ready
    exact ⟨next, read_token.trans read_later, before.trans after⟩

/-- Legible tokens are read again as they are, with the same gaps. -/
theorem spelling_tokenize_of_legible {tokens : List Token} (legible : Legible tokens []) :
    spelling [] (tokenize (Token.renderAll tokens)).tokens = spelling [] tokens ∧
      gapAfter [] (tokenize (Token.renderAll tokens)).tokens ++
        (tokenize (Token.renderAll tokens)).endOfFile.leading.toList = gapAfter [] tokens := by
  have start : Attachment.Ready {} ((Token.renderAll tokens).toList ++ []) :=
    ⟨by simp [Attachment.Fit], fun _ => rfl⟩
  obtain ⟨next, read_eq, spells⟩ := legible.read start
  rw [List.append_nil] at read_eq
  have last : tokenize (Token.renderAll tokens) = next.finish := congrArg Attachment.finish read_eq
  rw [last]
  exact ⟨spells.words, spells.gap⟩

/-! ### The tokens of a text -/

namespace Attachment

variable {state : Attachment} {rest : List Char}

/-- The tokens read so far and the pending trivia are legible in front of the text. -/
structure Holds (state : Attachment) (rest : List Char) : Prop where
  tokens : Legible state.tokens.reverse (state.pending.toList ++ rest)
  pending : IsGap rest state.pending.toList

/-- What was read stays legible when a line break of the gap is taken. -/
theorem Holds.breakLine {trivia : List Char} (holds : state.Holds (trivia ++ rest))
    (isGap : IsGap rest trivia) : (state.breakLine (.ofList trivia)).Holds rest := by
  have tokens := holds.tokens
  rw [← List.append_assoc] at tokens
  refine ⟨?_, ?_⟩
  · simpa [Attachment.breakLine] using tokens
  · simpa [Attachment.breakLine] using holds.pending.append isGap

/-- What was read stays legible when trivia of the gap are taken. -/
theorem Holds.attach {trivia : List Char} (fit : state.Fit) (holds : state.Holds (trivia ++ rest))
    (isGap : IsGap rest trivia) : (state.attach (.ofList trivia)).Holds rest := by
  obtain ⟨tokens, pending, onTokenLine, skipping⟩ := state
  unfold Attachment.attach
  split
  · next last earlier onLine isLast =>
    obtain rfl : onTokenLine = true := onLine
    obtain rfl : tokens = last :: earlier := isLast
    obtain ⟨rfl, -⟩ := fit rfl
    have tokens := holds.tokens
    simp only [List.reverse_cons, legible_append, legible_singleton, String.toList_empty,
      List.nil_append, Token.renderAll_cons, Token.renderAll_nil, String.append_empty] at tokens
    refine ⟨?_, .nil⟩
    simp only [List.reverse_cons, legible_append, legible_singleton, String.toList_empty,
      List.nil_append, Token.renderAll_cons, Token.renderAll_nil, String.append_empty]
    refine ⟨?_, ?_, ?_, ?_⟩
    · simpa [Token.render, Token.withTrailing] using tokens.1
    · simpa [Token.withTrailing] using tokens.2.leading
    · simpa [Token.withTrailing] using tokens.2.word
    · simpa [Token.withTrailing] using tokens.2.trailing.append isGap
  · have broken := holds.breakLine isGap
    exact ⟨broken.tokens, broken.pending⟩

/-- What was read stays legible when a token that leads the text is taken. -/
theorem Holds.token {kind : TokenKind} {lexeme : List Char}
    (leads : (Piece.token kind lexeme).Leads rest) (holds : state.Holds (lexeme ++ rest)) :
    (state.token kind lexeme).Holds rest := by
  refine ⟨?_, .nil⟩
  simp only [Attachment.token, List.reverse_cons, legible_append, legible_singleton,
    String.toList_empty, List.nil_append, Token.renderAll_cons, Token.renderAll_nil,
    String.append_empty]
  refine ⟨?_, ?_, fun _ => ?_, .nil⟩
  · simpa [Token.render] using holds.tokens
  · simpa using holds.pending
  · simpa using leads

/-- What is read is legible in front of the rest. -/
theorem Holds.step {piece : Piece} (leads : piece.Leads rest) (exact : rest ≠ [] → piece.Exact)
    (ready : state.Ready (piece.text ++ rest)) (holds : state.Holds (piece.text ++ rest)) :
    (state.step piece).Ready rest ∧ (state.step piece).Holds rest := by
  have none : state.skipping = 0 :=
    ready.skips (List.append_ne_nil_of_left_ne_nil (List.length_pos_iff.1 leads.pos) _)
  have isGap := Piece.isGap_of_leads leads exact
  cases piece with
  | newline text =>
    rw [Attachment.step, if_pos none]
    exact ⟨(absorbs_breakLine none text rest).ready, holds.breakLine (isGap (by simp))⟩
  | trivia text =>
    rw [Attachment.step, if_pos none]
    exact ⟨(absorbs_attach ready.fit none text rest).ready, holds.attach ready.fit (isGap (by simp))⟩
  | comment text nested =>
    obtain ⟨body, rfl, rfl, -⟩ := Piece.leads_comment_iff.1 leads
    refine ⟨(absorbs_comment ready.fit none ⟨body, rfl, rfl⟩ exact).ready, ?_⟩
    rw [step_comment none body]
    split
    · have broken := holds.breakLine (isGap (by simp))
      exact ⟨broken.tokens, broken.pending⟩
    · have attached := holds.attach ready.fit (isGap (by simp))
      exact ⟨attached.tokens, attached.pending⟩
  | token kind text =>
    rw [Attachment.step, if_pos none]
    exact ⟨⟨(state.adds_token kind text).fit, fun _ => none⟩, holds.token leads⟩

theorem Holds.read {text : List Char}
    (exact : ∀ before piece after, Piece.segment text = before ++ piece :: after →
      after ≠ [] → piece.Exact)
    (ready : state.Ready text) (holds : state.Holds text) : (state.read text).Holds [] := by
  obtain ⟨pieces, cut⟩ : ∃ pieces, Piece.segment text = pieces := ⟨_, rfl⟩
  rw [Attachment.read, cut]
  induction pieces generalizing state text with
  | nil =>
    have none := Piece.flatMap_text_segment text
    rw [cut] at none
    rwa [← none] at holds
  | cons piece later ih =>
    obtain ⟨rest, rfl, leads, cut'⟩ := Piece.segment_eq_cons_iff.1 cut
    have followed (some : rest ≠ []) : later ≠ [] := by
      rintro rfl
      have none := Piece.flatMap_text_segment rest
      rw [cut'] at none
      exact some none.symm
    have exact' : rest ≠ [] → piece.Exact := fun some => exact [] piece later cut (followed some)
    obtain ⟨ready', holds'⟩ := holds.step leads exact' ready
    refine ih (fun before other after split => ?_) ready' holds' cut'
    exact exact (piece :: before) other after (by rw [cut, ← cut', split, List.cons_append])

end Attachment

/-- The tokens of a text that they give back are legible. -/
theorem legible_tokenize {source : String}
    (whole : Token.renderAll (tokenize source).toList = source) :
    Legible (tokenize source).tokens (tokenize source).endOfFile.leading.toList ∧
      IsGap [] (tokenize source).endOfFile.leading.toList := by
  have start : Attachment.Holds {} source.toList := ⟨trivial, .nil⟩
  have ready : Attachment.Ready {} source.toList := ⟨by simp [Attachment.Fit], fun _ => rfl⟩
  have holds := start.read (fun _ _ _ => exact_of_renderAll_tokenize whole) ready
  have tokens := holds.tokens
  rw [List.append_nil] at tokens
  exact ⟨tokens, holds.pending⟩

/-! ### The first word of a text -/

namespace Attachment

/-- Reading on keeps the words read so far. -/
theorem words_prefix_step (state : Attachment) (piece : Piece) :
    state.words.map Prod.snd <+: (state.step piece).words.map Prod.snd := by
  have attach (state : Attachment) (trivia : Trivia) :
      (state.attach trivia).words.map Prod.snd = state.words.map Prod.snd := by
    unfold Attachment.attach
    split
    · next last earlier onLine isLast =>
      rw [words, words, isLast, map_snd_spelling, map_snd_spelling]
      by_cases word : last.text = "" <;> simp [Token.withTrailing, word, List.filter_append]
    · rfl
  have comment (state : Attachment) (text : List Char) :
      (state.comment text).words.map Prod.snd = state.words.map Prod.snd := by
    unfold Attachment.comment
    split
    · rfl
    · simp only
      split
      · rfl
      · exact attach state _
  -- Of the pieces only a token adds a word; nested comments are attached one by one.
  cases piece with
  | newline text =>
    rw [step]
    split <;> exact List.prefix_rfl
  | trivia text =>
    rw [step]
    split
    · exact (attach _ _).symm ▸ List.prefix_rfl
    · exact List.prefix_rfl
  | comment text nested =>
    rw [step]
    suffices kept : ∀ state : Attachment,
        (nested.foldl Attachment.comment state).words.map Prod.snd = state.words.map Prod.snd by
      exact ((kept _).trans (comment state text)).symm ▸ List.prefix_rfl
    induction nested with
    | nil => exact fun _ => rfl
    | cons inner nested ih => exact fun state => (ih _).trans (comment state inner)
  | token kind text =>
    rw [step]
    split
    · rw [words, words, token, List.reverse_cons, spelling_append, List.map_append]
      exact List.prefix_append _ _
    · exact List.prefix_rfl

/-- Reading further keeps the words read before. -/
theorem words_prefix_read (state : Attachment) (text : List Char) :
    state.words.map Prod.snd <+: (state.read text).words.map Prod.snd := by
  rw [read]
  induction Piece.segment text generalizing state with
  | nil => exact List.prefix_rfl
  | cons piece later ih => exact (words_prefix_step state piece).trans (ih (state.step piece))

end Attachment

/-- A token behind a gap is the first word of the text. -/
theorem head_words_of_leads {gap rest : List Char} {kind : TokenKind} {text : List Char} {source : String}
    (isGap : IsGap (text ++ rest) gap) (leads : (Piece.token kind text).Leads rest)
    (source_eq : source.toList = gap ++ (text ++ rest)) :
    ((tokenize source).tokens.map fun token => (token.kind, token.text)).head? =
      some (kind, .ofList text) := by
  have start : Attachment.Ready {} (gap ++ (text ++ rest)) :=
    ⟨by simp [Attachment.Fit], fun _ => rfl⟩
  obtain ⟨before, read_gap, absorbs⟩ := isGap.read start
  have some : text ≠ [] := List.length_pos_iff.1 leads.pos
  have none : before.skipping = 0 :=
    absorbs.ready.skips (List.append_ne_nil_of_left_ne_nil some rest)
  have read_word : before.read (text ++ rest) = (before.step (.token kind text)).read rest :=
    Attachment.read_of_leads leads
  rw [Attachment.step, if_pos none] at read_word
  have kept := Attachment.words_prefix_read (before.token kind text) rest
  rw [(before.words_token kind some).1, absorbs.words, ← read_word, ← read_gap] at kept
  have words_eq : (Attachment.read {} (gap ++ (text ++ rest))).words.map Prod.snd =
      (tokenize source).tokens.map fun token => (token.kind, token.text) := by
    have tokens_eq : (Attachment.read {} (gap ++ (text ++ rest))).tokens.reverse =
        (tokenize source).tokens := by
      rw [tokenize, source_eq]
      rfl
    rw [Attachment.words, tokens_eq, map_snd_spelling, List.filter_eq_self.2 fun token isToken => by
      simpa using text_ne_of_mem_tokenize isToken]
  rw [words_eq] at kept
  obtain ⟨later, split⟩ := kept
  rw [← split]
  rfl

/-! ### The tokens of a tree -/

section Source

variable {source : String} {file : SourceFile}

/-- The tokens in a row of a tree stand for legible tokens of the source, if it is given back. -/
theorem SourceFile.legible_of_infix {tokens : List Token} (isFile : parse source = file)
    (whole : Node.render file = source) (inside : tokens <:+: tokensOfStatements file.statements) :
    ∃ rest, Legible (Token.atomsOf tokens) rest ∧
      ∀ token ∈ Token.atomsOf tokens, token ∈ (tokenize source).tokens := by
  subst isFile
  obtain ⟨before, after, split⟩ := inside
  have tokens_eq := atomsOf_tokensOfStatements_parse source
  rw [← split, Token.atomsOf_append, Token.atomsOf_append] at tokens_eq
  have rendered : Token.renderAll (tokenize source).toList = source :=
    (render_ofTokens rfl).symm.trans whole
  have legible := (legible_tokenize rendered).1
  rw [← tokens_eq, legible_append, legible_append] at legible
  refine ⟨_, legible.1.2, fun token member => ?_⟩
  rw [← tokens_eq]
  exact List.mem_append_left _ (List.mem_append_right _ member)

/-- So do all tokens of the tree. -/
theorem SourceFile.legible_parse (isFile : parse source = file)
    (whole : Node.render file = source) : Legible (Token.atomsOf (Node.tokens file)) [] := by
  subst isFile
  have rendered : Token.renderAll (tokenize source).toList = source :=
    (render_ofTokens rfl).symm.trans whole
  obtain ⟨legible, isGap⟩ := legible_tokenize rendered
  have tokens_eq : Node.tokens (parse source) =
      tokensOfStatements (parse source).statements ++ [(tokenize source).endOfFile] := by
    rw [← endOfFile_ofTokens]
    rfl
  rw [tokens_eq, Token.atomsOf_append, atomsOf_tokensOfStatements_parse, legible_append]
  have ending : (Token.renderAll (Token.atomsOf [(tokenize source).endOfFile])).toList ++ [] =
      (tokenize source).endOfFile.leading.toList := by
    rw [Token.renderAll_atomsOf]
    simp [Token.render, tokenize, Attachment.finish]
  rw [ending]
  refine ⟨legible, ?_⟩
  rw [Token.atomsOf_cons, Token.atomsOf_nil, List.append_nil, Token.atoms]
  split
  · trivial
  · have unfused : (tokenize source).endOfFile.kind ≠ .identifier := TokenKind.noConfusion
    rw [if_neg (fun fused => unfused fused.1), legible_singleton]
    exact ⟨isGap, fun word => absurd rfl word, .nil⟩

end Source

/-- The text of the tokens is read as their words. -/
def ReadsBack (tokens : List Token) : Prop :=
  (tokenize (Token.renderAll tokens)).tokens.map (fun token => (token.kind, token.text)) =
    ((Token.atomsOf tokens).filter fun token => token.text != "").map
      fun token => (token.kind, token.text)

instance (tokens : List Token) : Decidable (ReadsBack tokens) :=
  inferInstanceAs (Decidable (_ = _))

/-- The text of a tree that stands for legible tokens is read as the words of these. -/
theorem Legible.readsBack {tokens : List Token} (legible : Legible (Token.atomsOf tokens) []) :
    ReadsBack tokens := by
  unfold ReadsBack
  have read := (spelling_tokenize_of_legible legible).1
  rw [Token.renderAll_atomsOf] at read
  have words_eq := congrArg (List.map Prod.snd) read
  rw [map_snd_spelling, map_snd_spelling] at words_eq
  rwa [List.filter_eq_self.2 fun token isToken => by simpa using text_ne_of_mem_tokenize isToken]
    at words_eq

end SuiteMigration
