import SuiteMigration.Proofs.Lexing.Comments
import SuiteMigration.Proofs.Reading.Losslessness

/-!
# How much of a text its tokens hold

Reading pieces adds their text to the tokens and the pending trivia, one piece after the other, as
long as no comment is to be skipped. A comment with exactly as many openings as comments, itself
included, leaves none to skip. After one with more openings something is skipped, and what is added
from there on is only part of the text.

## Main definitions

* `Attachment.text` - the text that the tokens and the pending trivia hold
* `Attachment.Adds` - one state holds the text of another and then some more
* `Piece.Exact` - the piece is no comment, or one with as many openings as comments

## Main results

* `Attachment.adds_step` - what a piece adds while nothing is skipped
* `Attachment.exists_adds_step` - what a piece adds in any case is part of its text
* `Attachment.adds_foldl_step`, `Attachment.exists_adds_foldl_step_of_excess` - all pieces add their
  text, or some of it is missing after the first comment with too many openings
* `render_parse_extent` - which texts are given back, and what is missing from the others
-/

namespace SuiteMigration

namespace Attachment

/-! ### The text of a state -/

/-- The text that the tokens and the pending trivia hold. -/
def text (state : Attachment) : List Char :=
  (Token.renderAll state.tokens.reverse).toList ++ state.pending.toList

/-- While trivia go to the last token there is such a token, and none are pending. -/
def Fit (state : Attachment) : Prop :=
  state.onTokenLine = true → state.pending = "" ∧ state.tokens ≠ []

/-- The second state holds the text of the first one and then the given characters. -/
structure Adds (state : Attachment) (characters : List Char) (next : Attachment) : Prop where
  fit : next.Fit
  text : next.text = state.text ++ characters

theorem Adds.refl {state : Attachment} (fit : state.Fit) : state.Adds [] state :=
  ⟨fit, (List.append_nil _).symm⟩

theorem Adds.trans {state middle next : Attachment} {first second : List Char}
    (before : state.Adds first middle) (after : middle.Adds second next) :
    state.Adds (first ++ second) next :=
  ⟨after.fit, by rw [after.text, before.text, List.append_assoc]⟩

variable {state : Attachment}

/-- How many comments are to be skipped does not matter to the text. -/
theorem Adds.withSkipping {next : Attachment} {characters : List Char}
    (adds : state.Adds characters next) (skipping : Nat) :
    state.Adds characters { next with skipping } :=
  ⟨adds.fit, adds.text⟩

theorem adds_attach (fit : state.Fit) (trivia : Trivia) :
    state.Adds trivia.toList (state.attach trivia) := by
  obtain ⟨tokens, pending, onTokenLine, skipping⟩ := state
  unfold attach
  split
  · next last earlier onLine isLast =>
    obtain rfl : onTokenLine = true := onLine
    obtain rfl : tokens = last :: earlier := isLast
    obtain ⟨rfl, -⟩ := fit rfl
    refine ⟨fun _ => ⟨rfl, List.cons_ne_nil _ _⟩, ?_⟩
    simp [text, Token.renderAll_append, Token.render, Token.withTrailing]
  · next other =>
    refine ⟨fun onLine => ?_, by simp [text]⟩
    obtain ⟨-, some⟩ := fit onLine
    obtain ⟨last, earlier, rfl⟩ := List.exists_cons_of_ne_nil some
    exact (other last earlier onLine rfl).elim

theorem adds_breakLine (trivia : Trivia) : state.Adds trivia.toList (state.breakLine trivia) :=
  ⟨fun onLine => by simp [breakLine] at onLine, by simp [text, breakLine]⟩

theorem adds_token (kind : TokenKind) (lexeme : List Char) :
    state.Adds lexeme (state.token kind lexeme) :=
  ⟨fun _ => ⟨rfl, List.cons_ne_nil _ _⟩,
    by simp [text, token, Token.renderAll_append, Token.render]⟩

/-! ### Comments -/

/-- A comment that is not skipped is added. -/
theorem adds_comment (fit : state.Fit) (none : state.skipping = 0) (comment : List Char) :
    state.Adds comment (state.comment comment) ∧
      (state.comment comment).skipping = openings comment - 1 := by
  rw [Attachment.comment, none]
  refine ⟨?_, rfl⟩
  refine Adds.withSkipping ?_ _
  split
  · simpa using state.adds_breakLine (.ofList comment)
  · simpa using adds_attach fit (.ofList comment)

theorem comment_of_pos (pos : 0 < state.skipping) (comment : List Char) :
    state.comment comment = { state with skipping := state.skipping - 1 } := by
  obtain ⟨skipped, eq⟩ : ∃ skipped, state.skipping = skipped + 1 := ⟨state.skipping - 1, by omega⟩
  rw [Attachment.comment, eq]
  rfl

/-- Comments that are skipped add nothing. -/
theorem foldl_comment_of_le {comments : List (List Char)}
    (enough : comments.length ≤ state.skipping) :
    comments.foldl comment state =
      { state with skipping := state.skipping - comments.length } := by
  induction comments generalizing state with
  | nil => rfl
  | cons first later ih =>
    rw [List.length_cons] at enough
    have enough' : later.length ≤ state.skipping - 1 := by omega
    rw [List.foldl_cons, comment_of_pos (by omega), ih enough', List.length_cons, Nat.sub_sub,
      Nat.add_comm]

/-- A comment that is not skipped is added, and the comments nested in it are skipped. -/
theorem adds_comment_nested (fit : state.Fit) (none : state.skipping = 0) {comment : List Char}
    {nested : List (List Char)} (enough : nested.length < openings comment) :
    state.Adds comment (nested.foldl Attachment.comment (state.comment comment)) ∧
      (nested.foldl Attachment.comment (state.comment comment)).skipping =
        openings comment - 1 - nested.length := by
  obtain ⟨adds, skipping⟩ := adds_comment fit none comment
  rw [foldl_comment_of_le (by omega), ← skipping]
  exact ⟨adds.withSkipping _, rfl⟩

/-- Of the comments inside some open comments those that are added make up part of the text. -/
theorem exists_adds_commentsWithin (depth : Nat) (characters : List Char) (fit : state.Fit) :
    ∃ kept, state.Adds kept ((Lexeme.commentsWithin depth characters).foldl comment state) ∧
      kept.Sublist characters := by
  induction bound : characters.length using Nat.strongRecOn generalizing depth characters state with
  | _ length ih =>
    subst bound
    fun_cases Lexeme.commentsWithin depth characters with
    | case1 => exact ⟨[], .refl fit, List.nil_sublist _⟩
    | case2 depth rest =>
      rw [List.foldl_cons]
      rcases Nat.eq_zero_or_pos state.skipping with none | pos
      · -- The comment is added. Those nested in it come next and are skipped, and reading goes on
        -- after its end.
        have enough : (Lexeme.commentsWithin 1 rest).length <
            openings ('/' :: '*' :: rest.take (Lexeme.commentRest 1 rest)) := by
          rw [openings_opening]
          exact Nat.lt_succ_of_le (Lexeme.length_commentsWithin_le 1 rest)
        obtain ⟨adds, -⟩ := adds_comment_nested fit none enough
        rw [show depth + 2 = 1 + (depth + 1) by omega, Lexeme.commentsWithin_add 1 (depth + 1) rest,
          List.foldl_append]
        have shorter : (rest.drop (Lexeme.commentRest 1 rest)).length <
            ('/' :: '*' :: rest).length := by
          rw [List.length_drop, List.length_cons, List.length_cons]
          omega
        obtain ⟨kept, later, part⟩ := ih _ shorter (depth + 1)
          (rest.drop (Lexeme.commentRest 1 rest)) adds.fit rfl
        have whole := part.append_left (rest.take (Lexeme.commentRest 1 rest))
        rw [List.take_append_drop] at whole
        exact ⟨_, adds.trans later, (whole.cons_cons _).cons_cons _⟩
      · rw [comment_of_pos pos]
        have fit : Fit { state with skipping := state.skipping - 1 } := fit
        have shorter : rest.length < ('/' :: '*' :: rest).length :=
          Nat.lt_add_of_pos_right Nat.two_pos
        obtain ⟨kept, adds, part⟩ := ih _ shorter (depth + 2) rest fit rfl
        exact ⟨kept, ⟨adds.fit, adds.text⟩, (part.cons _).cons _⟩
    | case3 depth rest =>
      have shorter : rest.length < ('*' :: '/' :: rest).length :=
        Nat.lt_add_of_pos_right Nat.two_pos
      obtain ⟨kept, adds, part⟩ := ih _ shorter depth rest fit rfl
      exact ⟨kept, adds, (part.cons _).cons _⟩
    | case4 depth c rest =>
      obtain ⟨kept, adds, part⟩ := ih _ (by simp) (depth + 1) rest fit rfl
      exact ⟨kept, adds, part.cons _⟩
    | case5 => exact ⟨[], .refl fit, List.nil_sublist _⟩

/-! ### Pieces -/

/-- A piece leaves comments to skip only if it is a comment with more openings than comments. -/
def excess : Piece → Nat
  | .comment text nested => openings text - 1 - nested.length
  | _ => 0

/-- While nothing is skipped a piece is added as it is. -/
theorem adds_step (fit : state.Fit) (none : state.skipping = 0) {piece : Piece}
    (wellFormed : piece.WellFormed) :
    state.Adds piece.text (state.step piece) ∧ (state.step piece).skipping = excess piece := by
  cases piece with
  | comment text nested =>
    obtain ⟨rest, rfl, rfl⟩ := wellFormed
    exact adds_comment_nested fit none (Lexeme.length_nestedComments_lt rest)
  | newline text =>
    rw [step, if_pos none]
    exact ⟨by simpa [Piece.text] using state.adds_breakLine (.ofList text), none⟩
  | trivia text =>
    rw [step, if_pos none]
    refine ⟨by simpa [Piece.text] using adds_attach fit (.ofList text), ?_⟩
    unfold attach
    split <;> exact none
  | token kind text =>
    rw [step, if_pos none]
    exact ⟨state.adds_token kind text, none⟩

/-- While something is skipped at least the first character of a piece is not added, and what is
added is part of the piece. -/
theorem exists_adds_step_of_pos (fit : state.Fit) (pos : 0 < state.skipping) {piece : Piece}
    (wellFormed : piece.WellFormed) :
    ∃ kept, state.Adds kept (state.step piece) ∧ kept.Sublist piece.text ∧
      kept.length < piece.text.length := by
  have some := List.length_pos_iff.2 wellFormed.text_ne_nil
  have nothing (skipped : state.step piece = state) : ∃ kept, state.Adds kept (state.step piece) ∧
      kept.Sublist piece.text ∧ kept.length < piece.text.length := by
    rw [skipped]
    exact ⟨[], .refl fit, List.nil_sublist _, some⟩
  cases piece with
  | comment text nested =>
    obtain ⟨rest, rfl, rfl⟩ := wellFormed
    have fit : Fit { state with skipping := state.skipping - 1 } := fit
    obtain ⟨kept, adds, part⟩ := exists_adds_commentsWithin 1 rest fit
    have shorter := part.length_le
    rw [step, comment_of_pos pos]
    refine ⟨kept, ⟨adds.fit, adds.text⟩, (part.cons _).cons _, ?_⟩
    rw [Piece.text, List.length_cons, List.length_cons]
    omega
  | _ => exact nothing (by rw [step, if_neg (by omega)])

/-- What a piece adds in any case is part of its text. -/
theorem exists_adds_step (fit : state.Fit) {piece : Piece} (wellFormed : piece.WellFormed) :
    ∃ kept, state.Adds kept (state.step piece) ∧ kept.Sublist piece.text := by
  rcases Nat.eq_zero_or_pos state.skipping with none | pos
  · exact ⟨piece.text, (adds_step fit none wellFormed).1, List.Sublist.refl _⟩
  · obtain ⟨kept, adds, part, -⟩ := exists_adds_step_of_pos fit pos wellFormed
    exact ⟨kept, adds, part⟩

theorem exists_adds_foldl_step (fit : state.Fit) {pieces : List Piece}
    (wellFormed : ∀ piece ∈ pieces, piece.WellFormed) :
    ∃ kept, state.Adds kept (pieces.foldl step state) ∧
      kept.Sublist (pieces.flatMap Piece.text) := by
  induction pieces generalizing state with
  | nil => exact ⟨[], .refl fit, List.nil_sublist _⟩
  | cons piece later ih =>
    obtain ⟨first, adds, part⟩ := exists_adds_step fit (wellFormed piece List.mem_cons_self)
    obtain ⟨rest, adds', part'⟩ :=
      ih adds.fit fun piece member => wellFormed piece (List.mem_cons_of_mem _ member)
    exact ⟨first ++ rest, adds.trans adds', part.append part'⟩

end Attachment

/-- The piece is no comment, or one with as many openings as comments, itself included. -/
def Piece.Exact : Piece → Prop
  | .comment text nested => Attachment.openings text = nested.length + 1
  | _ => True

instance (piece : Piece) : Decidable piece.Exact :=
  match piece with
  | .comment text nested =>
    inferInstanceAs (Decidable (Attachment.openings text = nested.length + 1))
  | .newline _ | .trivia _ | .token _ _ => .isTrue trivial

/-- Of the pieces that are not exact and have a piece after them there is a first one. -/
theorem Piece.exists_first_inexact {before after : List Piece} {piece : Piece}
    (inexact : ¬piece.Exact) (followed : after ≠ []) :
    ∃ before' piece' after', before ++ piece :: after = before' ++ piece' :: after' ∧
      (∀ other ∈ before', other.Exact) ∧ ¬piece'.Exact ∧ after' ≠ [] := by
  have some : ((before ++ [piece]).find? fun other => !decide other.Exact).isSome := by
    rw [List.find?_isSome]
    exact ⟨piece, by simp, by simpa using inexact⟩
  obtain ⟨first, found⟩ := Option.isSome_iff_exists.1 some
  rw [List.find?_eq_some_iff_append] at found
  obtain ⟨inexact', before', between, split, earlier⟩ := found
  refine ⟨before', first, between ++ after, ?_, by simpa using earlier, by simpa using inexact', ?_⟩
  · rw [← List.cons_append, ← List.append_assoc, ← split, List.append_assoc]
    rfl
  · exact List.append_ne_nil_of_right_ne_nil _ followed

namespace Attachment

variable {state : Attachment}

theorem excess_eq_zero_iff {piece : Piece} (wellFormed : piece.WellFormed) :
    excess piece = 0 ↔ piece.Exact := by
  cases piece with
  | comment text nested =>
    obtain ⟨rest, rfl, rfl⟩ := wellFormed
    have more := Lexeme.length_nestedComments_lt rest
    rw [excess, Piece.Exact]
    omega
  | _ => exact ⟨fun _ => trivial, fun _ => rfl⟩

/-- Pieces of which all but the last one are exact are added as they are. -/
theorem adds_foldl_step (fit : state.Fit) (none : state.skipping = 0) {pieces : List Piece}
    (wellFormed : ∀ piece ∈ pieces, piece.WellFormed)
    (exact : ∀ before piece after, pieces = before ++ piece :: after → after ≠ [] → piece.Exact) :
    state.Adds (pieces.flatMap Piece.text) (pieces.foldl step state) := by
  induction pieces generalizing state with
  | nil => exact .refl fit
  | cons piece later ih =>
    have here := wellFormed piece List.mem_cons_self
    obtain ⟨adds, skipping⟩ := adds_step fit none here
    cases later with
    | nil => simpa using adds
    | cons next rest =>
      have zero := (excess_eq_zero_iff here).2
        (exact [] piece (next :: rest) rfl (List.cons_ne_nil _ _))
      refine adds.trans (ih adds.fit (skipping.trans zero) ?_ ?_)
      · exact fun piece member => wellFormed piece (List.mem_cons_of_mem _ member)
      · intro before other after split
        exact exact (piece :: before) other after (by rw [split, List.cons_append])

/-- After a comment with too many openings the next piece is not added as a whole. -/
theorem exists_adds_foldl_step_of_excess (fit : state.Fit) (none : state.skipping = 0)
    {before after : List Piece} {piece : Piece}
    (wellFormed : ∀ other ∈ before ++ piece :: after, other.WellFormed)
    (exact : ∀ other ∈ before, other.Exact) (inexact : ¬piece.Exact) (followed : after ≠ []) :
    ∃ kept, state.Adds (before.flatMap Piece.text ++ piece.text ++ kept)
        ((before ++ piece :: after).foldl step state) ∧
      kept.Sublist (after.flatMap Piece.text) ∧
      kept.length < (after.flatMap Piece.text).length := by
  induction before generalizing state with
  | nil =>
    have here := wellFormed piece (by simp)
    obtain ⟨adds, skipping⟩ := adds_step fit none here
    have pos : 0 < (state.step piece).skipping := by
      rw [skipping]
      exact Nat.pos_of_ne_zero fun zero => inexact ((excess_eq_zero_iff here).1 zero)
    -- The piece leaves a number to be skipped, and the next one is taken for some of it.
    obtain ⟨next, rest, rfl⟩ := List.exists_cons_of_ne_nil followed
    obtain ⟨first, adds', part, shorter⟩ :=
      exists_adds_step_of_pos adds.fit pos (wellFormed next (by simp))
    have wellFormed : ∀ other ∈ rest, other.WellFormed :=
      fun other member => wellFormed other (by simp [member])
    obtain ⟨kept, adds'', part'⟩ := exists_adds_foldl_step adds'.fit wellFormed
    refine ⟨first ++ kept, (adds.trans (adds'.trans adds'')), part.append part', ?_⟩
    have others := part'.length_le
    rw [List.flatMap_cons, List.length_append, List.length_append]
    omega
  | cons first before ih =>
    have here := wellFormed first (by simp)
    obtain ⟨adds, skipping⟩ := adds_step fit none here
    have zero := (excess_eq_zero_iff here).2 (exact first List.mem_cons_self)
    obtain ⟨kept, later, part, shorter⟩ := ih adds.fit (skipping.trans zero)
      (fun other member => wellFormed other (List.mem_cons_of_mem _ member))
      (fun other member => exact other (List.mem_cons_of_mem _ member))
    refine ⟨kept, ?_, part, shorter⟩
    simpa using adds.trans later

theorem renderAll_toList_finish (state : Attachment) :
    (Token.renderAll state.finish.toList).toList = state.text := by
  simp [finish, TokenStream.toList, text, Token.render]

end Attachment

/-! ### The extent of a text -/

/-- The stream of a text holds what reading its pieces adds. -/
theorem toList_renderAll_tokenize {source : String} {held : List Char}
    (adds : Attachment.Adds {} held
      ((Piece.segment source.toList).foldl Attachment.step {})) :
    (Token.renderAll (tokenize source).toList).toList = held := by
  rw [tokenize, Attachment.renderAll_toList_finish, adds.text]
  rfl

/-- Up to a first inexact piece the tokens hold all of a text, and of what follows it they hold only
part. -/
theorem exists_kept_of_inexact {source : String} {before after : List Piece} {piece : Piece}
    (split : Piece.segment source.toList = before ++ piece :: after)
    (exact : ∀ other ∈ before, other.Exact) (inexact : ¬piece.Exact) (followed : after ≠ []) :
    ∃ kept, (Token.renderAll (tokenize source).toList).toList =
        before.flatMap Piece.text ++ piece.text ++ kept ∧
      kept.Sublist (after.flatMap Piece.text) ∧
      kept.length < (after.flatMap Piece.text).length := by
  have start : Attachment.Fit {} := by simp [Attachment.Fit]
  obtain ⟨kept, adds, part, shorter⟩ := Attachment.exists_adds_foldl_step_of_excess start rfl
    (split ▸ fun _ => Piece.wellFormed_of_mem_segment) exact inexact followed
  rw [← split] at adds
  exact ⟨kept, toList_renderAll_tokenize adds, part, shorter⟩

/-- If the tokens of a text hold all of it, its pieces are exact, but for the last one. -/
theorem exact_of_renderAll_tokenize {source : String}
    (whole : Token.renderAll (tokenize source).toList = source) {before after : List Piece}
    {piece : Piece} (split : Piece.segment source.toList = before ++ piece :: after)
    (followed : after ≠ []) : piece.Exact := by
  by_contra inexact
  obtain ⟨before', piece', after', split', exact, inexact', followed'⟩ :=
    Piece.exists_first_inexact inexact followed
  rw [← split] at split'
  obtain ⟨kept, held, -, shorter⟩ := exists_kept_of_inexact split' exact inexact' followed'
  rw [whole, ← Piece.flatMap_text_segment source.toList, split'] at held
  simp only [List.flatMap_append, List.flatMap_cons, List.append_assoc,
    List.append_cancel_left_eq] at held
  rw [held] at shorter
  exact Nat.lt_irrefl _ shorter

/-- If the pieces of a text are exact, but for the last one, its tokens hold all of it. -/
theorem renderAll_tokenize_of_exact {source : String}
    (exact : ∀ before piece after, Piece.segment source.toList = before ++ piece :: after →
      after ≠ [] → piece.Exact) :
    Token.renderAll (tokenize source).toList = source := by
  have start : Attachment.Fit {} := by simp [Attachment.Fit]
  have adds := Attachment.adds_foldl_step start rfl (fun _ => Piece.wellFormed_of_mem_segment) exact
  rw [← String.toList_inj, toList_renderAll_tokenize adds, Piece.flatMap_text_segment]

/-- Which texts are given back. The tree of a text renders to the text if and only if every comment
with some character after it has exactly one opening more than comments nested in it. No comment has
fewer. After the first one with more, what the tokens hold of the rest is only part of it. -/
theorem render_parse_extent (source : String) :
    (Node.render (SourceFile.parse source) = source ↔
      ∀ before text nested after,
        Piece.segment source.toList = before ++ .comment text nested :: after →
        after.flatMap Piece.text ≠ [] →
        Attachment.openings text = nested.length + 1) ∧
    ∀ before text nested after,
      Piece.segment source.toList = before ++ .comment text nested :: after →
      after.flatMap Piece.text ≠ [] →
      (∀ piece ∈ before, piece.Exact) →
      Attachment.openings text ≠ nested.length + 1 →
      nested.length + 1 < Attachment.openings text ∧
      ∃ kept,
        (Token.renderAll (tokenize source).toList).toList =
          before.flatMap Piece.text ++ text ++ kept ∧
        kept.Sublist (after.flatMap Piece.text) ∧
        kept.length < (after.flatMap Piece.text).length := by
  have rendered :
      Node.render (SourceFile.parse source) = Token.renderAll (tokenize source).toList :=
    SourceFile.render_ofTokens rfl
  have wellFormed : ∀ piece ∈ Piece.segment source.toList, piece.WellFormed :=
    fun _ => Piece.wellFormed_of_mem_segment
  have nonempty {after : List Piece} (some : after.flatMap Piece.text ≠ []) : after ≠ [] := by
    rintro rfl
    exact some rfl
  rw [rendered]
  refine ⟨⟨fun same before text nested after split followed => ?_, fun exact => ?_⟩, ?_⟩
  · exact exact_of_renderAll_tokenize same split (nonempty followed)
  · refine renderAll_tokenize_of_exact fun before piece after split followed => ?_
    cases piece with
    | comment text nested =>
      refine exact before text nested after split ?_
      obtain ⟨next, rest, rfl⟩ := List.exists_cons_of_ne_nil followed
      have some := (wellFormed next (by rw [split]; simp)).text_ne_nil
      rw [List.flatMap_cons]
      exact List.append_ne_nil_of_left_ne_nil some _
    | _ => trivial
  · intro before text nested after split followed exact inexact
    refine ⟨?_, exists_kept_of_inexact split exact inexact (nonempty followed)⟩
    obtain ⟨rest, rfl, rfl⟩ := wellFormed (.comment text nested) (by rw [split]; simp)
    exact Nat.lt_of_le_of_ne (Lexeme.length_nestedComments_lt rest) (Ne.symm inexact)

/-- A comment that ends right after a nested one has an opening too many, and the name after it is
lost. -/
theorem render_parse_extent_lost :
    Node.render (SourceFile.parse "/* /* */*/x") ≠ "/* /* */*/x" := by
  intro same
  have pieces : Piece.segment "/* /* */*/x".toList =
      [] ++ .comment "/* /* */*/".toList ["/* */".toList] :: [.token .identifier ['x']] := by
    decide +kernel
  have exact := (render_parse_extent _).1.1 same _ _ _ _ pieces (by decide)
  exact absurd exact (by decide)

end SuiteMigration
