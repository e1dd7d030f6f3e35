import Mathlib.Tactic.Common
import SuiteMigration.Proofs.Lexing.Excision

/-!
# Another word in place of a word

A word of letters is a name, whatever its letters are, and what ends one word ends any other. So a
word among legible tokens can be exchanged for another one. The token ahead of it is told from
either: it is a word itself here, so there is a gap between the two.

## Main definitions

* `Lexeme.isWord` - some letters

## Main results

* `Piece.leads_word_iff` - where a word is cut off
* `Legible.reword` - legible tokens with another word
-/

namespace SuiteMigration

open Lexeme

namespace Lexeme

/-- The text is a word of letters. -/
def isWord (text : List Char) : Bool :=
  !text.isEmpty && text.all Char.isAlpha

variable {text : List Char}

theorem isWord_cons {c : Char} : isWord (c :: text) = true ↔
    c.isAlpha = true ∧ ∀ d ∈ text, d.isAlpha = true := by
  simp [isWord]

theorem exists_cons_of_isWord (word : isWord text = true) : ∃ c later, text = c :: later ∧
    c.isAlpha = true ∧ ∀ d ∈ later, d.isAlpha = true := by
  cases text with
  | nil => cases word
  | cons c later => exact ⟨c, later, rfl, isWord_cons.1 word⟩

theorem endsLine_of_isWord (word : isWord text = true) (rest : List Char) :
    endsLine (text ++ rest) = false := by
  obtain ⟨c, later, rfl, letter, -⟩ := exists_cons_of_isWord word
  simp [endsLine, isLineBreak, ne_of_isAlpha letter]

theorem ne_nil_of_isWord (word : isWord text = true) : text ≠ [] := by
  obtain ⟨c, later, rfl, -⟩ := exists_cons_of_isWord word
  exact List.cons_ne_nil _ _

end Lexeme

theorem Piece.isLone_of_isWord {text : List Char} (word : isWord text = true) :
    isLone text = false := by
  obtain ⟨c, later, rfl, letter, -⟩ := exists_cons_of_isWord word
  simp [isLone, ne_of_isAlpha letter]

/-- A word is cut off as a name, where what follows it does not go on with it. -/
theorem Piece.leads_word_iff {kind : TokenKind} {text rest : List Char} (word : isWord text = true) :
    (Piece.token kind text).Leads rest ↔
      kind = .identifier ∧ ∀ c, rest.head? = some c → continuesName c = false := by
  obtain ⟨c, later, rfl, letter, letters⟩ := exists_cons_of_isWord word
  have taken : 1 + ((later ++ rest).takeWhile continuesName).length = (c :: later).length ↔
      ∀ c, rest.head? = some c → continuesName c = false := by
    rw [List.length_cons, Nat.add_comm 1, Nat.add_right_cancel_iff, length_takeWhile_eq_iff]
    exact and_iff_right fun d member => continuesName_of_isAlpha (letters d member)
  rw [← taken, Piece.Leads, Piece.text, List.cons_append, first_of_isAlpha _ letter]
  constructor
  · rintro ⟨rule, found, made⟩
    obtain ⟨rfl, extent⟩ := Prod.mk.inj found
    exact ⟨(Piece.token.inj made).1.symm, extent⟩
  · rintro ⟨rfl, extent⟩
    exact ⟨_, Prod.ext rfl extent, rfl⟩

/-- A word stands for itself. -/
theorem Token.atoms_of_isWord {token : Token} (word : isWord token.text.toList = true) :
    token.atoms = [token] := by
  have some : token.text ≠ "" := by simpa using ne_nil_of_isWord word
  refine Token.atoms_of_text some ?_
  rintro ⟨-, fused | fused⟩ <;>
  · rw [fused] at word
    revert word
    decide

section Reword

variable {front back : List Token} {keyword name : Token} {rest : List Char} {text : String}

/-- Two legible words have a gap between them. -/
theorem Token.LegibleBefore.trailing_ne (legible : keyword.LegibleBefore (name.text.toList ++ rest))
    (isKeyword : isWord keyword.text.toList = true) (isName : isWord name.text.toList = true) :
    keyword.trailing ≠ "" := by
  intro none
  have word : keyword.text ≠ "" := by simpa using ne_nil_of_isWord isKeyword
  have leads := legible.word word
  obtain ⟨c, later, text_eq, letter, -⟩ := exists_cons_of_isWord isName
  rw [Piece.leads_word_iff isKeyword, none, text_eq] at leads
  have ended := leads.2 c rfl
  rw [continuesName_of_isAlpha letter] at ended
  cases ended

/-- A word that follows another one can be exchanged for a third. -/
theorem Legible.reword (legible : Legible (front ++ [keyword] ++ name :: back) rest)
    (words : ∀ token ∈ front ++ [keyword], token.text ≠ "")
    (whole : ∀ token ∈ front ++ [keyword], Piece.isLone token.text.toList = false)
    (isKeyword : isWord keyword.text.toList = true) (isName : isWord name.text.toList = true)
    (isText : isWord text.toList = true) :
    Legible (front ++ [keyword] ++ { name with text } :: back) rest := by
  obtain ⟨ahead, here, behind⟩ := legible_append.1 legible
  refine legible_append.2 ⟨?_, ?_, behind⟩
  · by_cases none : name.leading.toList = []
    · rw [toList_renderAll_cons, none, List.nil_append, List.append_assoc] at ahead
      have atKeyword := legible_singleton.1 (legible_append.1 ahead).2
      have blank := atKeyword.trailing_ne isKeyword isName
      refine ahead.exchange_open words whole (by simp [Token.isOpen, blank])
        (atKeyword.adapts_inLine blank (endsLine_of_isWord isName _) _) fun nothing => ?_
      exact absurd (List.append_eq_nil_iff.1 nothing).1 (ne_nil_of_isWord isName)
    · refine ahead.exchange_of_head words whole ?_ ?_
      · rw [toList_renderAll_cons, List.append_assoc]
        exact here.leading.halts none _
      · simp only [toList_renderAll_cons, List.append_assoc, List.head?_append,
          List.head?_eq_some_head none, Option.some_or]
  · have word : name.text ≠ "" := by simpa using ne_nil_of_isWord isName
    have leads := here.word word
    rw [Piece.leads_word_iff isName] at leads
    refine ⟨here.leading.exchange (fun ends => ?_) fun none => ?_,
      fun _ => (Piece.leads_word_iff isText).2 leads, here.trailing⟩
    · have line := here.leading.endsLine ends
      rw [endsLine_of_isWord isName] at line
      cases line
    · exact absurd (List.append_eq_nil_iff.1 none).1 (ne_nil_of_isWord isName)

end Reword

end SuiteMigration
