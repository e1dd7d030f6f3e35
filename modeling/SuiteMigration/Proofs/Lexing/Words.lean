import Mathlib.Tactic.Common
import SuiteMigration.Proofs.Lexing.Extent

/-!
# Where words end

A piece that begins with a letter is a name, and it takes every character that can go on with a
name. So no name is cut in two, and no two tokens in a row spell a name that neither of them is. This
stays true of the tokens of a text whose comments make the reader skip something: a comment is kept
as trivia before anything is skipped, so tokens with nothing between them come from pieces with
nothing between them.

## Main definitions

* `Lexeme.continuesName` - the characters that can go on with a plain name
* `Piece.EndsBefore` - the piece is no name, or what follows does not go on with it
* `Token.Severed` - the same of a token and the character after its text
* `Attachment.Orderly` - the invariant of reading pieces

## Main results

* `Piece.first_of_isAlpha` - a letter begins a name
* `Attachment.orderlyAt_step`, `Attachment.orderlyAt_foldl_step` - reading pieces keeps tokens
  severed
* `severed_tokenize` - each token of a text is severed from the text after it
* `exists_token_of_split` - a word with which the text from a token of a tree on begins is the
  beginning of a single token
-/

namespace SuiteMigration

/-! ### Names -/

namespace Lexeme

/-- A character that can go on with a plain name. -/
def continuesName (c : Char) : Bool :=
  Text.isIdentifierContinue c || c == '$'

variable {c : Char} (rest : List Char)

/-- A letter is none of the characters with which another class begins. -/
theorem ne_of_isAlpha {other : Char} (letter : c.isAlpha = true) (sign : other.isAlpha = false) :
    c ≠ other := by
  rintro rfl
  simp [sign] at letter

/-- A letter is no line break; the rules below refuse it too, up to the one for names. -/
theorem newline_of_isAlpha (letter : c.isAlpha = true) : newline (c :: rest) = 0 := by
  unfold newline
  split
  · simp_all
  · simp_all
  · simp_all
  · rfl

theorem blanks_of_isAlpha (letter : c.isAlpha = true) : blanks (c :: rest) = 0 := by
  have plain : isBlank c = false := by
    simp [isBlank, ne_of_isAlpha letter]
  simp [blanks, plain]

theorem blockComment_of_isAlpha (letter : c.isAlpha = true) : blockComment (c :: rest) = 0 := by
  unfold blockComment
  split
  · simp_all
  · rfl

theorem lineComment_of_isAlpha (letter : c.isAlpha = true) : lineComment (c :: rest) = 0 := by
  unfold lineComment
  split
  · simp_all
  · rfl

theorem string_of_isAlpha (letter : c.isAlpha = true) : string (c :: rest) = 0 := by
  unfold string
  split
  · simp_all
  · simp_all
  · rfl

theorem rawString_of_isAlpha (letter : c.isAlpha = true) : rawString (c :: rest) = 0 := by
  simp [rawString, ne_of_isAlpha letter]

theorem poundIdentifier_of_isAlpha (letter : c.isAlpha = true) :
    poundIdentifier (c :: rest) = 0 := by
  unfold poundIdentifier
  split
  · simp_all
  · rfl

/-- The letters lie between two codes. -/
theorem toNat_of_isAlpha (letter : c.isAlpha = true) : 65 ≤ c.toNat ∧ c.toNat < 123 := by
  have ranges : c.val ≥ 'A'.val ∧ c.val ≤ 'Z'.val ∨ c.val ≥ 'a'.val ∧ c.val ≤ 'z'.val := by
    rcases Bool.or_eq_true_iff.1 letter with upper | lower
    · exact .inl (of_decide_eq_true upper)
    · obtain ⟨low, high⟩ := Bool.and_eq_true_iff.1 lower
      exact .inr ⟨of_decide_eq_true low, of_decide_eq_true high⟩
  simp only [ge_iff_le, UInt32.le_iff_toNat_le, Char.reduceVal, UInt32.reduceToNat, Char.toNat_val]
    at ranges
  omega

theorem number_of_isAlpha (letter : c.isAlpha = true) : number (c :: rest) = 0 := by
  have bounds := toNat_of_isAlpha letter
  have plain : c.isDigit = false := by
    by_contra digit
    simp only [Char.isDigit, Bool.not_eq_false, Bool.and_eq_true, decide_eq_true_eq, ge_iff_le,
      UInt32.le_iff_toNat_le, Char.reduceVal, UInt32.reduceToNat, Char.toNat_val] at digit
    omega
  simp [number, plain]

/-- A letter begins a name that goes on as far as it can. -/
theorem identifier_of_isAlpha (letter : c.isAlpha = true) :
    identifier (c :: rest) = 1 + (rest.takeWhile continuesName).length := by
  have start : Text.isIdentifierStart c = true := by
    have bounds := toNat_of_isAlpha letter
    rw [Text.isIdentifierStart, if_pos (by omega), letter]
  unfold identifier
  split
  · simp_all
  · simp_all
  · rw [plainName, start]
    rfl

/-- Every comment inside a comment begins with a slash. -/
theorem head?_of_mem_commentsWithin {depth : Nat} {text comment : List Char}
    (member : comment ∈ commentsWithin depth text) : comment.head? = some '/' := by
  induction depth, text using commentsWithin.induct with
  | case1 text => simp [commentsWithin] at member
  | case2 depth rest ih =>
    rw [commentsWithin, List.mem_cons] at member
    rcases member with rfl | inner
    · rfl
    · exact ih inner
  | case3 depth rest ih =>
    rw [commentsWithin] at member
    exact ih member
  | case4 depth c rest noOpening noClosing ih =>
    rw [commentsWithin_cons _ noOpening noClosing] at member
    exact ih member
  | case5 depth => simp at member

end Lexeme

/-! ### Pieces -/

namespace Piece

/-- A letter begins a name, which takes all characters that go on with it. -/
theorem first_of_isAlpha {c : Char} (rest : List Char) (letter : c.isAlpha = true) :
    first (c :: rest) rules = (⟨Lexeme.identifier, .token .identifier⟩,
      1 + (rest.takeWhile Lexeme.continuesName).length) := by
  simp [rules, first, Lexeme.newline_of_isAlpha rest letter, Lexeme.blanks_of_isAlpha rest letter,
    Lexeme.blockComment_of_isAlpha rest letter, Lexeme.lineComment_of_isAlpha rest letter,
    Lexeme.string_of_isAlpha rest letter, Lexeme.rawString_of_isAlpha rest letter,
    Lexeme.poundIdentifier_of_isAlpha rest letter, Lexeme.number_of_isAlpha rest letter,
    Lexeme.identifier_of_isAlpha rest letter]

/-- A piece that begins with a letter is a name, and the text after it does not go on with it. -/
def EndsBefore (piece : Piece) (rest : List Char) : Prop :=
  ∀ c, piece.text.head? = some c → c.isAlpha = true →
    ∃ later, piece = .token .identifier (c :: later) ∧
      (∀ d ∈ later, Lexeme.continuesName d = true) ∧
      ∀ d, rest.head? = some d → Lexeme.continuesName d = false

/-- Every piece ends before the pieces after it. -/
def AllEnd : List Piece → Prop
  | [] => True
  | piece :: later => piece.EndsBefore (later.flatMap text) ∧ AllEnd later

/-- The first piece of a text ends before the rest of it. -/
theorem endsBefore_first {c : Char} {rest : List Char} :
    EndsBefore ((first (c :: rest) rules).1.piece ((c :: rest).take (first (c :: rest) rules).2))
      ((c :: rest).drop (first (c :: rest) rules).2) := by
  intro d head letter
  -- The piece begins like the text, because it is not empty.
  have same : c = d := by
    obtain ⟨extent, extent_eq⟩ := Nat.exists_eq_succ_of_ne_zero
      (Nat.ne_of_gt (first_pos (c :: rest) rules))
    rw [text_piece_first, extent_eq, List.take_succ_cons] at head
    exact Option.some.inj head
  subst same
  rw [first_of_isAlpha rest letter, Nat.add_comm 1, List.take_succ_cons, List.drop_succ_cons]
  have split : rest.takeWhile Lexeme.continuesName ++ rest.dropWhile Lexeme.continuesName = rest :=
    List.takeWhile_append_dropWhile
  have taken := (congrArg (List.take (rest.takeWhile Lexeme.continuesName).length) split).symm
  have left := (congrArg (List.drop (rest.takeWhile Lexeme.continuesName).length) split).symm
  rw [List.take_left] at taken
  rw [List.drop_left] at left
  rw [taken, left]
  refine ⟨rest.takeWhile Lexeme.continuesName, rfl, List.all_eq_true.1 List.all_takeWhile, ?_⟩
  intro d next
  have ended := List.head?_dropWhile_not Lexeme.continuesName rest
  rw [next] at ended
  exact ended

/-- Every piece of a text ends before the next one. -/
theorem allEnd_segmentWithin (fuel : Nat) (text : List Char) (enough : text.length ≤ fuel) :
    AllEnd (segmentWithin fuel text) := by
  induction fuel generalizing text with
  | zero => exact trivial
  | succ fuel ih =>
    cases text with
    | nil => exact trivial
    | cons c rest =>
      have pos := first_pos (c :: rest) rules
      have shorter : ((c :: rest).drop (first (c :: rest) rules).2).length ≤ fuel := by
        simp only [List.length_drop, List.length_cons] at enough ⊢
        omega
      simp only [segmentWithin, AllEnd, flatMap_text_segmentWithin _ _ shorter]
      exact ⟨endsBefore_first, ih _ shorter⟩

/-- Every piece of a text ends before the pieces after it. -/
theorem allEnd_segment (text : List Char) : AllEnd (segment text) :=
  allEnd_segmentWithin _ _ (Nat.le_refl _)

end Piece

/-! ### Tokens -/

/-- What is known of a token of a text, given the character after the token. It has some text and is
no cast with its mark, the trivia before it begin with no letter, and if it begins with a letter,
then what follows its text does not go on with it. -/
structure Token.Severed (token : Token) (next : Option Char) : Prop where
  text : token.text ≠ ""
  whole : token.kind = .identifier → token.text ≠ "as?" ∧ token.text ≠ "as!"
  leading : ∀ c, token.leading.toList.head? = some c → c.isAlpha = false
  ending : ∀ c d, token.text.toList.head? = some c → c.isAlpha = true →
    token.trailing.toList.head?.or next = some d → Lexeme.continuesName d = false

/-- The tokens are severed, the last one first, given the character after them. -/
def AllSevered : Option Char → List Token → Prop
  | _, [] => True
  | next, token :: earlier =>
    token.Severed next ∧
      AllSevered (token.leading.toList.head?.or token.text.toList.head?) earlier

/-- A token with its own text stands for itself. -/
theorem Token.Severed.atoms {token : Token} {next : Option Char} (severed : token.Severed next) :
    token.atoms = [token] := by
  refine Token.atoms_of_text severed.text ?_
  rintro ⟨isName, fused⟩
  rcases fused with fused | fused
  · exact (severed.whole isName).1 fused
  · exact (severed.whole isName).2 fused

namespace Attachment

/-- The tokens so far are severed, given the character after the pending trivia, and the pending
trivia begin with no letter. -/
structure Orderly (state : Attachment) (next : Option Char) : Prop where
  fit : state.Fit
  pending : ∀ c, state.pending.toList.head? = some c → c.isAlpha = false
  tokens : AllSevered (state.pending.toList.head?.or next) state.tokens

variable {state : Attachment} {trivia : Trivia} {c : Char}

/-- Trivia that wait for the next token settle what comes after the tokens so far. -/
theorem Orderly.wait (orderly : state.Orderly (some c)) (head : trivia.toList.head? = some c)
    (sign : c.isAlpha = false) {next : Option Char} {waiting : Attachment}
    (fit : waiting.Fit) (same : waiting.tokens = state.tokens)
    (pending_eq : waiting.pending = state.pending ++ trivia) : waiting.Orderly next := by
  have head_eq : waiting.pending.toList.head? = state.pending.toList.head?.or (some c) := by
    rw [pending_eq, String.toList_append, List.head?_append, head]
  refine ⟨fit, ?_, ?_⟩
  · intro d first
    rw [head_eq] at first
    rcases Option.or_eq_some_iff.1 first with own | ⟨-, added⟩
    · exact orderly.pending d own
    · exact Option.some.inj added ▸ sign
  · rw [head_eq, same, Option.or_assoc]
    exact orderly.tokens

theorem Orderly.breakLine (orderly : state.Orderly (some c)) (head : trivia.toList.head? = some c)
    (sign : c.isAlpha = false) (next : Option Char) : (state.breakLine trivia).Orderly next :=
  orderly.wait head sign (adds_breakLine trivia).fit rfl rfl

theorem Orderly.attach (orderly : state.Orderly (some c)) (head : trivia.toList.head? = some c)
    (sign : c.isAlpha = false) (next : Option Char) : (state.attach trivia).Orderly next := by
  have fit := (adds_attach orderly.fit trivia).fit
  unfold Attachment.attach at fit ⊢
  split at fit
  · rename_i last earlier onLine isLast
    have none_pending : state.pending = "" := (orderly.fit onLine).1
    obtain ⟨-, pending, tokens⟩ := orderly
    rw [isLast, none_pending] at tokens
    obtain ⟨severed, others⟩ := tokens
    refine ⟨fit, pending, ⟨severed.text, severed.whole, severed.leading, ?_⟩, others⟩
    -- The trivia begin where the token was severed before.
    intro first d begins letter follows
    refine severed.ending first d begins letter ?_
    simpa [Token.withTrailing, List.head?_append, head, none_pending, Option.or_assoc] using follows
  · exact orderly.wait head sign fit rfl rfl

/-- A comment settles what comes after the tokens so far, whether it is added or skipped. While
something is skipped, that is settled already. -/
theorem Orderly.comment {text : List Char} (orderly : state.Orderly (some '/'))
    (skips : 0 < state.skipping → ∀ next, state.Orderly next) (head : text.head? = some '/')
    (next : Option Char) : (state.comment text).Orderly next := by
  have sign : '/'.isAlpha = false := by decide
  have head : (String.ofList text).toList.head? = some '/' := by simpa using head
  by_cases none : state.skipping = 0
  · have added : (if text.any isLineBreak then state.breakLine (.ofList text)
        else state.attach (.ofList text)).Orderly next := by
      split
      · exact orderly.breakLine head sign next
      · exact orderly.attach head sign next
    rw [Attachment.comment, none]
    exact ⟨added.fit, added.pending, added.tokens⟩
  · have settled := skips (Nat.pos_of_ne_zero none) next
    rw [comment_of_pos (Nat.pos_of_ne_zero none)]
    exact ⟨settled.fit, settled.pending, settled.tokens⟩

/-- Comments in a row keep the state orderly. -/
theorem orderly_foldl_comment {comments : List (List Char)}
    (orderly : ∀ next, state.Orderly next)
    (heads : ∀ text ∈ comments, text.head? = some '/') (next : Option Char) :
    (comments.foldl Attachment.comment state).Orderly next := by
  induction comments generalizing state with
  | nil => exact orderly next
  | cons first later ih =>
    refine ih (fun next => ?_) fun text member => heads text (List.mem_cons_of_mem _ member)
    exact (orderly (some '/')).comment (fun _ => orderly) (heads first List.mem_cons_self) next

/-- The state is orderly before the given text. While something is skipped, it is so before any
text. -/
def OrderlyAt (state : Attachment) (rest : List Char) : Prop :=
  ∀ next, (state.skipping = 0 → next = rest.head?) → state.Orderly next

theorem orderlyAt_of_orderly {rest : List Char} (orderly : ∀ next, state.Orderly next) :
    state.OrderlyAt rest :=
  fun next _ => orderly next

/-- A name holds no mark of a cast. -/
theorem not_endsBefore_cast {mark : Char} {rest : List Char}
    (sign : Lexeme.continuesName mark = false) :
    ¬ (Piece.token .identifier ['a', 's', mark]).EndsBefore rest := by
  intro ends
  obtain ⟨later, same, continues, -⟩ := ends 'a' rfl (by decide)
  obtain rfl : ['s', mark] = later := by simpa using same
  simp [sign] at continues

/-- A token that is read is severed from the text after it. -/
theorem Orderly.token {kind : TokenKind} {text rest : List Char}
    (orderly : state.Orderly text.head?) (some_text : text ≠ [])
    (ends : (Piece.token kind text).EndsBefore rest) : (state.token kind text).Orderly rest.head? := by
  refine ⟨(adds_token kind text).fit, ?_, ⟨?_, ?_, ?_, ?_⟩, ?_⟩
  · simp [Attachment.token]
  · simpa [Attachment.token] using some_text
  · rintro rfl
    refine ⟨fun fused => ?_, fun fused => ?_⟩
    · obtain rfl : text = ['a', 's', '?'] := by
        simpa [Attachment.token] using congrArg String.toList fused
      exact not_endsBefore_cast (by decide) ends
    · obtain rfl : text = ['a', 's', '!'] := by
        simpa [Attachment.token] using congrArg String.toList fused
      exact not_endsBefore_cast (by decide) ends
  · exact orderly.pending
  · intro c d begins letter follows
    have begins : text.head? = some c := by simpa [Attachment.token] using begins
    obtain ⟨later, -, -, stops⟩ := ends c begins letter
    exact stops d (by simpa [Attachment.token] using follows)
  · simpa [Attachment.token] using orderly.tokens

/-- What is no token begins with no letter. -/
theorem isAlpha_head_eq_false {piece : Piece} {rest : List Char} (ends : piece.EndsBefore rest)
    (other : ∀ kind text, piece ≠ .token kind text) (begins : piece.text.head? = some c) :
    c.isAlpha = false := by
  by_contra letter
  obtain ⟨later, isName, -⟩ := ends c begins (Bool.of_not_eq_false letter)
  exact other _ _ isName

/-- A piece that ends before the rest keeps the state orderly there. -/
theorem orderlyAt_step {piece : Piece} {rest : List Char}
    (orderly : state.OrderlyAt (piece.text ++ rest)) (wellFormed : piece.WellFormed)
    (ends : piece.EndsBefore rest) : (state.step piece).OrderlyAt rest := by
  obtain ⟨c, later, text_eq⟩ := List.exists_cons_of_ne_nil wellFormed.text_ne_nil
  have begins : piece.text.head? = some c := by rw [text_eq, List.head?_cons]
  have here : state.Orderly (some c) := orderly _ fun _ => by rw [text_eq]; rfl
  -- While pieces are skipped the state does not change, and it was orderly before any text.
  have skips : state.skipping ≠ 0 → ∀ next, state.Orderly next :=
    fun some next => orderly next fun none => absurd none some
  cases piece with
  | comment text nested =>
    obtain ⟨inner, rfl, rfl⟩ := wellFormed
    obtain rfl : '/' = c := Option.some.inj begins
    refine orderlyAt_of_orderly (orderly_foldl_comment ?_ ?_)
    · exact here.comment (fun pos => skips (Nat.ne_of_gt pos)) begins
    · exact fun text member => Lexeme.head?_of_mem_commentsWithin member
  | newline text =>
    have sign := isAlpha_head_eq_false ends (by simp) begins
    rw [step]
    split
    · exact orderlyAt_of_orderly (here.breakLine (by simpa [Piece.text] using begins) sign)
    · next some => exact orderlyAt_of_orderly (skips some)
  | trivia text =>
    have sign := isAlpha_head_eq_false ends (by simp) begins
    rw [step]
    split
    · exact orderlyAt_of_orderly (here.attach (by simpa [Piece.text] using begins) sign)
    · next some => exact orderlyAt_of_orderly (skips some)
  | token kind text =>
    rw [step]
    split
    · next none =>
      intro next follows
      rw [follows none]
      refine Orderly.token ?_ wellFormed.text_ne_nil ends
      exact begins ▸ here
    · next some => exact orderlyAt_of_orderly (skips some)

/-- Pieces that end before one another keep the state orderly. -/
theorem orderlyAt_foldl_step {pieces : List Piece}
    (orderly : state.OrderlyAt (pieces.flatMap Piece.text))
    (wellFormed : ∀ piece ∈ pieces, piece.WellFormed) (ends : Piece.AllEnd pieces) :
    (pieces.foldl step state).OrderlyAt [] := by
  induction pieces generalizing state with
  | nil => exact orderly
  | cons piece later ih =>
    obtain ⟨pieceEnds, laterEnd⟩ := ends
    have stepped := orderlyAt_step orderly (wellFormed piece List.mem_cons_self) pieceEnds
    exact ih stepped (fun other member => wellFormed other (List.mem_cons_of_mem _ member)) laterEnd

end Attachment

/-! ### Words that tokens spell -/

theorem Lexeme.continuesName_of_isAlpha {c : Char} (letter : c.isAlpha = true) :
    continuesName c = true := by
  have bounds := toNat_of_isAlpha letter
  rw [continuesName, Text.isIdentifierContinue, if_pos (by omega), Char.isAlphanum, letter]
  rfl

section Words

variable {word after : List Char}

/-- A word of letters that begins with a severed token ends within it. -/
theorem Token.Severed.start {token : Token} (severed : token.Severed after.head?)
    (letters : ∀ c ∈ word, c.isAlpha = true)
    (start : word <+: token.text.toList ++ (token.trailing.toList ++ after)) :
    word <+: token.text.toList := by
  rcases List.prefix_or_prefix_of_prefix start (List.prefix_append _ _) with within | ⟨more, rfl⟩
  · exact within
  rw [List.prefix_append_right_inj] at start
  -- Otherwise some letter follows the token, and would go on with it.
  cases more with
  | nil => simp
  | cons d more =>
    have follows : token.trailing.toList.head?.or after.head? = some d := by
      obtain ⟨rest, text_eq⟩ := start
      rw [← List.head?_append, ← text_eq]
      rfl
    have some_text : token.text.toList ≠ [] := fun empty =>
      severed.text (String.toList_inj.1 empty)
    obtain ⟨c, text, text_eq⟩ := List.exists_cons_of_ne_nil some_text
    rw [text_eq] at letters
    have stops := severed.ending c d (by rw [text_eq]; rfl) (letters c (by simp)) follows
    rw [Lexeme.continuesName_of_isAlpha (letters d (by simp))] at stops
    cases stops

/-- Each of the tokens is severed from the text after it. -/
theorem AllSevered.severed {tokens before later : List Token} {token : Token}
    (severed : AllSevered after.head? tokens) (split : tokens.reverse = before ++ token :: later) :
    token.Severed ((Token.renderAll later).toList ++ after).head? := by
  induction tokens generalizing later after with
  | nil => simp at split
  | cons last earlier ih =>
    obtain ⟨lastSevered, others⟩ := severed
    rw [List.reverse_cons] at split
    rcases List.eq_nil_or_concat later with rfl | ⟨later, final, rfl⟩
    · obtain ⟨-, same⟩ := List.append_inj' split rfl
      obtain rfl : last = token := List.singleton_inj.1 same
      exact lastSevered
    · rw [List.concat_eq_append, ← List.cons_append, ← List.append_assoc] at split
      obtain ⟨earlierSplit, same⟩ := List.append_inj' split rfl
      obtain rfl : last = final := List.singleton_inj.1 same
      have text_eq : (Token.renderAll (later.concat last)).toList ++ after =
          (Token.renderAll later).toList ++ (last.render.toList ++ after) := by
        simp
      rw [text_eq]
      refine ih ?_ earlierSplit
      -- The last token has some text, so what comes after it does not matter.
      have some_text : last.text.toList ≠ [] := fun empty =>
        lastSevered.text (String.toList_inj.1 empty)
      obtain ⟨c, text, text_eq⟩ := List.exists_cons_of_ne_nil some_text
      simpa [Token.render, text_eq, List.head?_append, Option.or_assoc] using others

end Words

/-! ### Texts -/

/-- The tokens of a text are severed. -/
theorem orderly_tokenize (source : String) :
    ((Piece.segment source.toList).foldl Attachment.step {}).Orderly none := by
  have start : Attachment.OrderlyAt {} ((Piece.segment source.toList).flatMap Piece.text) :=
    fun _ _ => ⟨by simp [Attachment.Fit], by simp, trivial⟩
  refine Attachment.orderlyAt_foldl_step start ?_ (Piece.allEnd_segment _) none fun _ => rfl
  exact fun _ => Piece.wellFormed_of_mem_segment

/-- Each token of a text is severed from the text that the tokens after it hold. -/
theorem severed_tokenize {source : String} {before later : List Token} {token : Token}
    (split : (tokenize source).tokens = before ++ token :: later) :
    token.Severed ((Token.renderAll later).toList ++
      (tokenize source).endOfFile.leading.toList).head? := by
  have orderly := (orderly_tokenize source).tokens
  rw [Option.or_none] at orderly
  exact orderly.severed split

/-- The tokens of a text have texts of their own. -/
theorem text_ne_of_mem_tokenize {source : String} {token : Token}
    (member : token ∈ (tokenize source).tokens) : token.text ≠ "" := by
  obtain ⟨before, later, split⟩ := List.append_of_mem member
  exact (severed_tokenize split).text

/-- Tokens without parts are their own atoms. -/
theorem Token.atomsOf_eq_self {tokens : List Token}
    (own : ∀ token ∈ tokens, token.atoms = [token]) : Token.atomsOf tokens = tokens := by
  induction tokens with
  | nil => rfl
  | cons token later ih =>
    rw [List.forall_mem_cons] at own
    rw [Token.atomsOf_cons, own.1, ih own.2, List.singleton_append]

/-- The tokens of a source are their own atoms. -/
theorem atomsOf_tokens_tokenize (source : String) :
    Token.atomsOf (tokenize source).tokens = (tokenize source).tokens := by
  refine Token.atomsOf_eq_self fun token member => ?_
  obtain ⟨before, later, split⟩ := List.append_of_mem member
  exact (severed_tokenize split).atoms

theorem SourceFile.endOfFile_ofTokens (stream : TokenStream) :
    (ofTokens stream).endOfFile = stream.endOfFile := by
  unfold ofTokens
  split <;> rfl

/-- The tokens of the statements of a text stand for the tokens of the text. -/
theorem SourceFile.atomsOf_tokensOfStatements_parse (source : String) :
    Token.atomsOf (tokensOfStatements (parse source).statements) = (tokenize source).tokens := by
  have whole : Token.atomsOf (Node.tokens (parse source)) = Token.atomsOf (tokenize source).toList :=
    SourceFile.atomsOf_tokens_ofTokens rfl
  have ending : (parse source).endOfFile = (tokenize source).endOfFile :=
    SourceFile.endOfFile_ofTokens _
  simp only [Node.tokens, TokenStream.toList, Token.atomsOf_append, ending,
    List.append_cancel_right_eq] at whole
  rw [whole, atomsOf_tokens_tokenize]

/-- Where the tokens from some place on hold a text that begins with a word of letters, the first
of them does. -/
theorem exists_token_of_renderAll {source : String} {before tokens : List Token}
    {word : List Char} (letters : ∀ c ∈ word, c.isAlpha = true) (some_word : word ≠ [])
    (split : (tokenize source).tokens = before ++ tokens)
    (start : word <+: (Token.renderAll tokens).toList) :
    ∃ token ∈ (tokenize source).tokens, word <+: token.text.toList := by
  cases tokens with
  | nil => exact absurd (List.prefix_nil.1 start) some_word
  | cons token later =>
    have severed := severed_tokenize split
    -- Trivia before the token would have to begin with the first letter.
    have none_leading : token.leading.toList = [] := by
      cases leading_eq : token.leading.toList with
      | nil => rfl
      | cons c rest =>
        obtain ⟨first, more, rfl⟩ := List.exists_cons_of_ne_nil some_word
        simp only [Token.renderAll_cons, Token.render, String.toList_append, leading_eq,
          List.cons_append] at start
        obtain ⟨rfl, -⟩ := List.cons_prefix_cons.1 start
        have sign := severed.leading first (by rw [leading_eq]; rfl)
        rw [letters first List.mem_cons_self] at sign
        cases sign
    refine ⟨token, by rw [split]; simp, severed.start letters ?_⟩
    simp only [Token.renderAll_cons, Token.render, String.toList_append, none_leading,
      List.nil_append, List.append_assoc] at start
    exact start.trans ⟨(tokenize source).endOfFile.leading.toList, by simp⟩

/-- A word of letters that begins with a cast and its mark begins with the cast. -/
theorem prefix_of_prefix_cast {word rest : List Char} {mark : Char}
    (letters : ∀ c ∈ word, c.isAlpha = true) (sign : mark.isAlpha = false)
    (start : word <+: ['a', 's', mark] ++ rest) : word <+: ['a', 's'] := by
  have cast : ['a', 's'] <+: ['a', 's', mark] ++ rest := ⟨mark :: rest, rfl⟩
  rcases List.prefix_or_prefix_of_prefix start cast with within | ⟨more, rfl⟩
  · exact within
  · cases more with
    | nil => simp
    | cons c more =>
      have same : c = mark := by
        obtain ⟨later, text_eq⟩ := start
        simp only [List.cons_append, List.nil_append, List.cons.injEq, true_and] at text_eq
        exact text_eq.1
      rw [← same, letters c (by simp)] at sign
      cases sign

/-- Where the text from a token of a tree on begins with a word of letters, some token of the text
does. -/
theorem exists_token_of_split {source : String} {before later : List Token} {token : Token}
    {word : List Char} (letters : ∀ c ∈ word, c.isAlpha = true) (some_word : word ≠ [])
    (split : tokensOfStatements (SourceFile.parse source).statements = before ++ token :: later)
    (start : word <+:
      token.text.toList ++ (token.trailing.toList ++ (Token.renderAll later).toList)) :
    ∃ token ∈ (tokenize source).tokens, word <+: token.text.toList := by
  have atoms := SourceFile.atomsOf_tokensOfStatements_parse source
  rw [split, Token.atomsOf_append, Token.atomsOf_cons, Token.atoms] at atoms
  rw [← Token.renderAll_atomsOf] at start
  split at atoms
  · -- A token without width leaves the text to those after it.
    next width =>
    refine exists_token_of_renderAll letters some_word atoms.symm ?_
    have parts := congrArg String.toList width
    simp only [Token.render, String.toList_append, String.toList_empty, List.append_eq_nil_iff]
      at parts
    rwa [parts.1.2, parts.2] at start
  split at atoms
  · -- A cast with its mark stands for two tokens, and the word is in the first.
    next fused =>
    refine ⟨{ token with text := "as", trailing := "" }, by rw [← atoms]; simp, ?_⟩
    obtain ⟨-, text_eq | text_eq⟩ := fused
    · rw [text_eq] at start
      simpa using prefix_of_prefix_cast letters (by decide) start
    · rw [text_eq] at start
      simpa using prefix_of_prefix_cast letters (by decide) start
  · refine ⟨token, by rw [← atoms]; simp, ?_⟩
    refine (severed_tokenize atoms.symm).start letters ?_
    exact start.trans ⟨(tokenize source).endOfFile.leading.toList, by simp⟩

end SuiteMigration
