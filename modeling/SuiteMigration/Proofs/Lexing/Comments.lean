import Mathlib.Tactic.Common
import SuiteMigration.Token.Attachment

/-!
# Nested comments

The comments inside a comment are listed outer ones first, so those inside the first of them come
right after it. The number of places where a comment opens is at least the number of comments
listed, since every one of them opens at such a place. It can be larger: where a comment ends right
before an asterisk, the last character of its end and that asterisk look like another opening.

## Main definitions

* `Piece.WellFormed` - a piece is not empty, and a comment comes with the comments nested in it

## Main results

* `Lexeme.commentsWithin_add` - the comments inside some open comments, and those after them
* `Lexeme.length_commentsWithin_le` - no fewer openings than comments
* `Piece.wellFormed_of_mem_segment` - the pieces of a text are well formed
-/

namespace SuiteMigration

/-! ### Openings -/

namespace Attachment

@[simp] theorem openings_opening (rest : List Char) :
    openings ('/' :: '*' :: rest) = openings rest + 1 := rfl

/-- A character that begins no opening counts for nothing. -/
theorem openings_cons {c : Char} {rest : List Char}
    (other : ∀ later, c = '/' → rest = '*' :: later → False) :
    openings (c :: rest) = openings rest := by
  rw [openings]
  exact other

theorem openings_le_cons (c : Char) (rest : List Char) : openings rest ≤ openings (c :: rest) := by
  by_cases opening : ∃ later, c = '/' ∧ rest = '*' :: later
  · obtain ⟨later, rfl, rfl⟩ := opening
    rw [openings_opening, openings_cons (by simp)]
    exact Nat.le_succ _
  · exact Nat.le_of_eq (openings_cons fun later first second => opening ⟨later, first, second⟩).symm

/-- The start of a text opens no more comments than the whole text. -/
theorem openings_take_le (count : Nat) (text : List Char) :
    openings (text.take count) ≤ openings text := by
  induction text using openings.induct generalizing count with
  | case1 rest ih =>
    match count with
    | 0 => exact Nat.zero_le _
    | 1 => simp [openings]
    | count + 2 => simpa using ih count
  | case2 c rest other ih =>
    cases count with
    | zero => exact Nat.zero_le _
    | succ count =>
      -- Cutting a text short leaves no opening where there was none.
      have cut : ∀ later, c = '/' → rest.take count = '*' :: later → False := by
        intro later first second
        cases rest with
        | nil => simp at second
        | cons d rest =>
          cases count with
          | zero => simp at second
          | succ count => exact other rest first (by simp_all)
      rw [List.take_succ_cons, openings_cons cut, openings_cons other]
      exact ih count
  | case3 => simp

end Attachment

/-! ### Comments inside comments -/

namespace Lexeme

open Attachment

variable {c : Char} {rest : List Char}

/-- A character inside a comment that neither opens nor closes one. -/
theorem commentRest_cons (depth : Nat) (noOpening : ∀ later, c = '/' → rest = '*' :: later → False)
    (noClosing : ∀ later, c = '*' → rest = '/' :: later → False) :
    commentRest (depth + 1) (c :: rest) = 1 + commentRest (depth + 1) rest := by
  rw [commentRest]
  · exact noOpening
  · exact noClosing

/-- A character that neither opens nor closes a comment is passed over. -/
theorem commentsWithin_cons (depth : Nat)
    (noOpening : ∀ later, c = '/' → rest = '*' :: later → False)
    (noClosing : ∀ later, c = '*' → rest = '/' :: later → False) :
    commentsWithin (depth + 1) (c :: rest) = commentsWithin (depth + 1) rest := by
  rw [commentsWithin]
  · exact noOpening
  · exact noClosing

@[simp] theorem commentsWithin_nil (depth : Nat) : commentsWithin depth [] = [] := by
  cases depth <;> rfl

/-- The comments inside some open comments, and then those inside comments further out. -/
theorem commentsWithin_add (inner outer : Nat) (text : List Char) :
    commentsWithin (inner + outer) text =
      commentsWithin inner text ++ commentsWithin outer (text.drop (commentRest inner text)) := by
  induction inner, text using commentsWithin.induct with
  | case1 text => simp [commentsWithin, commentRest]
  | case2 depth rest ih =>
    rw [Nat.succ_add, commentsWithin, commentsWithin, commentRest, List.cons_append,
      Nat.add_comm 2, List.drop_succ_cons, List.drop_succ_cons, ← ih, Nat.add_right_comm depth 2]
  | case3 depth rest ih =>
    rw [Nat.succ_add, commentsWithin, commentsWithin, commentRest, Nat.add_comm 2,
      List.drop_succ_cons, List.drop_succ_cons, ← ih]
  | case4 depth c rest noOpening noClosing ih =>
    rw [Nat.add_right_comm] at ih
    rw [Nat.succ_add, commentsWithin_cons _ noOpening noClosing,
      commentsWithin_cons _ noOpening noClosing, commentRest_cons _ noOpening noClosing,
      Nat.add_comm 1, List.drop_succ_cons, ← ih]
  | case5 depth => simp

/-- Every comment opens somewhere, so there are no fewer openings than comments. -/
theorem length_commentsWithin_le (depth : Nat) (text : List Char) :
    (commentsWithin depth text).length ≤ openings (text.take (commentRest depth text)) := by
  induction depth, text using commentsWithin.induct with
  | case1 text => simp [commentsWithin]
  | case2 depth rest ih =>
    rw [commentsWithin, commentRest, Nat.add_comm 2, List.take_succ_cons, List.take_succ_cons,
      openings_opening, List.length_cons]
    exact Nat.succ_le_succ ih
  | case3 depth rest ih =>
    rw [commentsWithin, commentRest, Nat.add_comm 2, List.take_succ_cons, List.take_succ_cons]
    exact Nat.le_trans ih (Nat.le_trans (openings_le_cons _ _) (openings_le_cons _ _))
  | case4 depth c rest noOpening noClosing ih =>
    rw [commentsWithin_cons _ noOpening noClosing, commentRest_cons _ noOpening noClosing,
      Nat.add_comm 1, List.take_succ_cons]
    exact Nat.le_trans ih (openings_le_cons _ _)
  | case5 depth => simp

/-- A comment has more openings than comments nested in it. -/
theorem length_nestedComments_lt (rest : List Char) :
    (nestedComments ('/' :: '*' :: rest)).length < openings ('/' :: '*' :: rest) := by
  have inner := length_commentsWithin_le 1 rest
  have whole := openings_take_le (commentRest 1 rest) rest
  rw [nestedComments, openings_opening]
  omega

end Lexeme

/-! ### The pieces of a text -/

namespace Piece

/-- The piece is not empty, and a comment comes with the comments nested in it. -/
def WellFormed : Piece → Prop
  | .comment text nested =>
    ∃ rest, text = '/' :: '*' :: rest ∧ nested = Lexeme.nestedComments text
  | piece => piece.text ≠ []

/-- No piece is empty. -/
theorem WellFormed.text_ne_nil {piece : Piece} (wellFormed : piece.WellFormed) :
    piece.text ≠ [] := by
  cases piece with
  | comment text nested =>
    obtain ⟨rest, rfl, -⟩ := wellFormed
    exact List.cons_ne_nil _ _
  | _ => exact wellFormed

/-- The characters that a class takes make a well-formed piece. -/
def Rule.Sound (rule : Rule) : Prop :=
  ∀ text, text ≠ [] → 0 < rule.extent text → (rule.piece (text.take (rule.extent text))).WellFormed

/-- A rule is sound if all that it takes is well formed. -/
theorem Rule.sound_of_plain {rule : Rule}
    (plain : ∀ taken, taken ≠ [] → (rule.piece taken).WellFormed) : rule.Sound := by
  intro text some pos
  refine plain _ fun none => ?_
  rw [List.take_eq_nil_iff] at none
  rcases none with none | none
  · omega
  · exact some none

/-- The rule for block comments is sound. -/
theorem Rule.sound_blockComment :
    Rule.Sound ⟨Lexeme.blockComment, fun text => .comment text (Lexeme.nestedComments text)⟩ := by
  intro text _ pos
  change 0 < Lexeme.blockComment text at pos
  obtain ⟨rest, rfl⟩ : ∃ rest, text = '/' :: '*' :: rest := by
    unfold Lexeme.blockComment at pos
    split at pos
    · exact ⟨_, rfl⟩
    · cases pos
  refine ⟨rest.take (Lexeme.commentRest 1 rest), ?_, rfl⟩
  change ('/' :: '*' :: rest).take (2 + Lexeme.commentRest 1 rest) = _
  rw [Nat.add_comm 2, List.take_succ_cons, List.take_succ_cons]

/-- Every rule is sound. -/
theorem sound_of_mem_rules {rule : Rule} (member : rule ∈ rules) : rule.Sound := by
  simp only [rules, List.mem_cons, List.not_mem_nil, or_false] at member
  rcases member with rfl | rfl | rfl | rfl | rfl | rfl | rfl | rfl | rfl | rfl | rfl | rfl | rfl
  case inr.inr.inl => exact Rule.sound_blockComment
  all_goals exact Rule.sound_of_plain fun _ some => some

/-- The first class that begins somewhere makes a well-formed piece of what it takes. -/
theorem wellFormed_first {text : List Char} (some : text ≠ []) {rules : List Rule}
    (sound : ∀ rule ∈ rules, rule.Sound) :
    ((first text rules).1.piece (text.take (first text rules).2)).WellFormed := by
  induction rules with
  | nil =>
    have unknown : Rule.Sound unknown := Rule.sound_of_plain fun _ some => some
    exact unknown text some Nat.one_pos
  | cons rule later ih =>
    rw [first]
    split
    · next pos => exact sound rule List.mem_cons_self text some pos
    · exact ih fun rule member => sound rule (List.mem_cons_of_mem _ member)

/-- Every piece of a text is well formed. -/
theorem wellFormed_of_mem_segmentWithin {fuel : Nat} {text : List Char} {piece : Piece}
    (member : piece ∈ segmentWithin fuel text) : piece.WellFormed := by
  induction fuel generalizing text with
  | zero => simp [segmentWithin] at member
  | succ fuel ih =>
    cases text with
    | nil => simp [segmentWithin] at member
    | cons c rest =>
      rw [segmentWithin, List.mem_cons] at member
      rcases member with rfl | later
      · exact wellFormed_first (List.cons_ne_nil c rest) fun _ => sound_of_mem_rules
      · exact ih later

/-- The pieces of a text are well formed. -/
theorem wellFormed_of_mem_segment {text : List Char} {piece : Piece}
    (member : piece ∈ segment text) : piece.WellFormed :=
  wellFormed_of_mem_segmentWithin member

end Piece

end SuiteMigration
