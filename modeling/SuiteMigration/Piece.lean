import SuiteMigration.Lexeme
import SuiteMigration.Token

/-!
# Lexical pieces

A source text is cut into pieces from left to right. At each place the first class of a fixed
order that takes at least one character wins, and a single character of no class is a piece of its
own, so the cut always reaches the end of the text.

## Main definitions

* `Piece` - a line break, a run of trivia, a block comment or a token
* `Piece.rules` - the classes in their order
* `Piece.segment` - the pieces of a text

## Main results

* `Piece.first_pos` - the first piece of a text that is not empty takes a character
* `Piece.flatMap_text_segment` - the pieces concatenate to the text
-/

namespace SuiteMigration

/-- A lexical piece of a source text. -/
inductive Piece
  /-- The end of a line. -/
  | newline (text : List Char)
  /-- Blanks, or a comment that ends with its line. -/
  | trivia (text : List Char)
  /-- A block comment and the comments nested in it, outer ones first. -/
  | comment (text : List Char) (nested : List (List Char))
  /-- A token of some class. -/
  | token (kind : TokenKind) (text : List Char)
  deriving DecidableEq, Repr

namespace Piece

/-- The characters of a piece. -/
def text : Piece → List Char
  | .newline text => text
  | .trivia text => text
  | .comment text _ => text
  | .token _ text => text

/-- A lexical class: how far it reaches, and the piece its characters make. -/
structure Rule where
  extent : List Char → Nat
  piece : List Char → Piece

/-- A punctuation character. -/
def punctuation : List Char → Nat
  | c :: _ => if (TokenKind.ofPunctuation? c).isSome then 1 else 0
  | [] => 0

/-- The class of the punctuation character that begins the text. -/
def punctuationKind (text : List Char) : TokenKind :=
  (text.head?.bind TokenKind.ofPunctuation?).getD .unknown

/-- The classes in the order in which they are tried. -/
def rules : List Rule :=
  [⟨Lexeme.newline, .newline⟩,
   ⟨Lexeme.blanks, .trivia⟩,
   ⟨Lexeme.blockComment, fun text => .comment text (Lexeme.nestedComments text)⟩,
   ⟨Lexeme.lineComment, .trivia⟩,
   ⟨Lexeme.string, .token .stringLiteral⟩,
   ⟨Lexeme.rawString, .token .stringLiteral⟩,
   ⟨Lexeme.poundIdentifier, .token .poundIdentifier⟩,
   ⟨Lexeme.number, .token .number⟩,
   ⟨Lexeme.identifier, .token .identifier⟩,
   ⟨Lexeme.arrow, .token .arrow⟩,
   ⟨Lexeme.range, .token .operator⟩,
   ⟨Lexeme.operator, .token .operator⟩,
   ⟨punctuation, fun text => .token (punctuationKind text) text⟩]

/-- The class of last resort takes one character. -/
def unknown : Rule :=
  ⟨fun _ => 1, .token .unknown⟩

/-- The first class that begins here, with its extent. -/
def first (text : List Char) : List Rule → Rule × Nat
  | [] => (unknown, 1)
  | rule :: later => if 0 < rule.extent text then (rule, rule.extent text) else first text later

/-- The pieces of a text, as many as the fuel allows. -/
def segmentWithin : Nat → List Char → List Piece
  | 0, _ => []
  | _ + 1, [] => []
  | fuel + 1, c :: rest =>
    let (rule, extent) := first (c :: rest) rules
    rule.piece ((c :: rest).take extent) :: segmentWithin fuel ((c :: rest).drop extent)

/-- The pieces of a text. There are at most as many as characters. -/
def segment (text : List Char) : List Piece :=
  segmentWithin text.length text

/-- The first piece takes at least one character. -/
theorem first_pos (text : List Char) (rules : List Rule) : 0 < (first text rules).2 := by
  induction rules with
  | nil => exact Nat.one_pos
  | cons rule later ih =>
    rw [first]
    split
    · assumption
    · exact ih

/-- Every class keeps the characters it takes. -/
theorem text_piece_first (text taken : List Char) : ((first text rules).1.piece taken).text = taken := by
  suffices h : ∀ rules : List Rule, (∀ rule ∈ rules, ∀ taken, (rule.piece taken).text = taken) →
      ((first text rules).1.piece taken).text = taken by
    refine h rules ?_
    simp [Piece.rules, Piece.text]
  intro rules kept
  induction rules with
  | nil => rfl
  | cons rule later ih =>
    rw [first]
    split
    · exact kept rule (by simp) taken
    · exact ih fun rule member => kept rule (by simp [member])

theorem flatMap_text_segmentWithin (fuel : Nat) (text : List Char) (enough : text.length ≤ fuel) :
    (segmentWithin fuel text).flatMap Piece.text = text := by
  induction fuel generalizing text with
  | zero => simp [segmentWithin, List.length_eq_zero_iff.1 (Nat.le_zero.1 enough)]
  | succ fuel ih =>
    cases text with
    | nil => rfl
    | cons c rest =>
      have pos := first_pos (c :: rest) rules
      rw [segmentWithin]
      simp only [List.flatMap_cons, text_piece_first]
      rw [ih, List.take_append_drop]
      simp only [List.length_drop, List.length_cons] at enough ⊢
      omega

/-- The pieces concatenate to the text. -/
theorem flatMap_text_segment (text : List Char) : (segment text).flatMap Piece.text = text :=
  flatMap_text_segmentWithin _ _ Nat.le.refl

end Piece

end SuiteMigration
