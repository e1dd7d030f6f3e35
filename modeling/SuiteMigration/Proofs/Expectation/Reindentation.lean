import Mathlib.Data.List.TakeWhile
import Mathlib.Tactic.Common
import SuiteMigration.Text.Lines
import SuiteMigration.Token.Attachment

/-!
# Comments on fresh lines

A statement of a handler that moves out of its closure starts a fresh line, and its leading trivia
are written anew with the indentation of the call. What the trivia say is a list of lines: those
that hold more than white space, trimmed. Everything behind the first line feed is kept. What stands
before it is taken for the rest of the line above and dropped, so a block comment that begins there
loses its first line.

## Main definitions

* `Text.contentLines` - the lines that hold more than white space, trimmed
* `Trivia.movedLines` - the lines that are written anew

## Main results

* `Text.contentLines_append` - a line feed divides the lines of a text
* `contentLines_reindented` - the lines that are left, whatever the trivia are
* `contentLines_reindented_iff` - no line is lost just where nothing but white space stands before
  the first line feed
* `contentLines_reindented_lost` - a comment that begins on the line of the closure loses its first
  line
-/

namespace SuiteMigration

namespace Text

/-! ### Trimming -/

/-- Blanks in front are trimmed away. -/
theorem trimStart_append {blank : String} (isBlank : Trivia.isBlank blank = true) (text : String) :
    trimStart (blank ++ text) = trimStart text := by
  rw [trimStart, trimStart, String.toList_append,
    List.dropWhile_append_of_pos (List.all_eq_true.1 isBlank)]

/-- Blanks in front do not matter to the trimmed text. -/
theorem trim_append_left {blank : String} (isBlank : Trivia.isBlank blank = true)
    (text : String) : trim (blank ++ text) = trim text := by
  rw [trim, trimStart_append isBlank, trim]

/-- Blanks behind do not matter to the trimmed text. -/
theorem trim_append_right (text : String) {blank : String}
    (isBlank : Trivia.isBlank blank = true) : trim (text ++ blank) = trim text := by
  have all := List.all_eq_true.1 isBlank
  rw [trim, trim, trimEnd, trimEnd, trimStart, trimStart, String.toList_append,
    List.dropWhile_append]
  split
  · next whole =>
    have nothing : text.toList.dropWhile isWhiteSpace = [] := by simpa using whole
    have neither : blank.toList.dropWhile isWhiteSpace = [] := List.dropWhile_eq_nil_iff.2 all
    rw [nothing, neither]
  · simp only [String.toList_ofList, dropWhileEnd_append _ _ all]

/-- The text has white space around its trimmed part. -/
theorem exists_eq_trim (text : String) :
    ∃ front back, text = front ++ trim text ++ back ∧ Trivia.isBlank front = true ∧
      Trivia.isBlank back = true := by
  refine ⟨.ofList (text.toList.takeWhile isWhiteSpace),
    .ofList (takeWhileEnd isWhiteSpace (trimStart text).toList), ?_, ?_, ?_⟩
  · rw [← String.toList_inj]
    simp [trim, trimEnd, trimStart, dropWhileEnd_append_takeWhileEnd]
  · simp [Trivia.isBlank, List.all_takeWhile]
  · simp [Trivia.isBlank, takeWhileEnd, List.all_takeWhile]

/-- A trimmed text has nothing left to trim. -/
@[simp] theorem trim_trim (text : String) : trim (trim text) = trim text := by
  obtain ⟨front, back, text_eq, frontBlank, backBlank⟩ := exists_eq_trim text
  calc trim (trim text) = trim (front ++ trim text ++ back) := by
        rw [trim_append_right _ backBlank, trim_append_left frontBlank]
    _ = trim text := by rw [← text_eq]

/-- Only blanks are trimmed to nothing. -/
theorem trim_eq_empty_iff (text : String) : trim text = "" ↔ Trivia.isBlank text = true := by
  obtain ⟨front, back, text_eq, frontBlank, backBlank⟩ := exists_eq_trim text
  constructor
  · intro empty
    rw [text_eq, empty]
    simp_all [Trivia.isBlank]
  · intro blank
    have whole := trim_append_left blank ""
    rwa [String.append_empty] at whole

/-- Trimming adds no character. -/
theorem notMem_trim {c : Char} {text : String} (notMem : c ∉ text.toList) :
    c ∉ (trim text).toList := by
  obtain ⟨front, back, text_eq, -, -⟩ := exists_eq_trim text
  intro member
  refine notMem ?_
  rw [text_eq]
  simp [member]

/-! ### Lines -/

/-- The lines that hold more than white space, without the white space at their ends. -/
def contentOf (lines : List String) : List String :=
  (lines.map trim).filter fun line => !line.isEmpty

/-- The lines of a text that hold more than white space, without the white space at their ends. -/
def contentLines (text : String) : List String :=
  contentOf (lines text)

/-- The content of lines in a row is that of the first, then that of the others. -/
theorem contentOf_append (first second : List String) :
    contentOf (first ++ second) = contentOf first ++ contentOf second := by
  simp [contentOf]

/-- Trimming the lines keeps their content. -/
theorem contentOf_map_trim (lines : List String) : contentOf (lines.map trim) = contentOf lines := by
  simp [contentOf, Function.comp_def]

/-- White space around a line does not matter. -/
theorem contentOf_singleton_congr {first second : String} (same : trim first = trim second) :
    contentOf [first] = contentOf [second] := by
  simp [contentOf, same]

/-- A line feed divides the lines of a text. -/
theorem contentLines_append (first second : String) :
    contentLines (first ++ "\n" ++ second) = contentLines first ++ contentLines second := by
  rw [contentLines, lines_append, contentOf_append]
  rfl

end Text

open Text

/-! ### Lines that are written anew -/

theorem isBlank_of_isIndent {indent : String} (blanks : indent.toList.all isIndent = true) :
    Trivia.isBlank indent = true := by
  refine List.all_eq_true.2 fun c member => ?_
  have blank := List.all_eq_true.1 blanks c member
  simp only [isIndent, Bool.or_eq_true, beq_iff_eq] at blank
  rcases blank with rfl | rfl <;> decide

theorem notMem_of_isIndent {indent : String} (blanks : indent.toList.all isIndent = true) :
    '\n' ∉ indent.toList := by
  intro member
  have blank := List.all_eq_true.1 blanks _ member
  revert blank
  decide

namespace Trivia

section Indent

variable {indent : String} (blanks : indent.toList.all isIndent = true)

include blanks

/-- The last line has the indentation before it and a space behind it. -/
theorem contentLines_spaced {line : String} (single : '\n' ∉ line.toList) :
    contentLines (indent ++ spaced line) = contentOf [line] := by
  have noFeed : '\n' ∉ (indent ++ spaced line).toList := by
    rw [String.toList_append, List.mem_append, not_or]
    refine ⟨notMem_of_isIndent blanks, ?_⟩
    unfold spaced
    split
    · simp
    · simpa using single
  have same : trim (indent ++ spaced line) = trim line := by
    rw [trim_append_left (isBlank_of_isIndent blanks)]
    unfold spaced
    split
    · next empty => rw [String.isEmpty_iff.1 empty]
    · exact trim_append_right line (by decide)
  rw [contentLines, lines_of_notMem noFeed, contentOf_singleton_congr same]

/-- The lines between are kept. -/
theorem contentLines_indentLines {lines : List String}
    (single : ∀ line ∈ lines, '\n' ∉ line.toList) (before after : String) :
    contentLines (before ++ indentLines indent lines ++ "\n" ++ after) =
      contentLines before ++ contentOf lines ++ contentLines after := by
  induction lines generalizing before with
  | nil =>
    rw [indentLines, String.append_empty, contentLines_append]
    simp [contentOf]
  | cons line later ih =>
    rw [List.forall_mem_cons] at single
    -- The first of the lines ends the text before the others.
    obtain ⟨written, written_eq, kept⟩ : ∃ written, indentLines indent (line :: later) =
        "\n" ++ written ++ indentLines indent later ∧ contentLines written = contentOf [line] := by
      rw [indentLines]
      split
      · next empty =>
        rw [String.isEmpty_iff.1 empty]
        exact ⟨"", by simp, by decide⟩
      · refine ⟨indent ++ line, by simp [String.append_assoc], ?_⟩
        have noFeed : '\n' ∉ (indent ++ line).toList := by
          rw [String.toList_append, List.mem_append, not_or]
          exact ⟨notMem_of_isIndent blanks, single.1⟩
        rw [contentLines, lines_of_notMem noFeed]
        exact contentOf_singleton_congr (trim_append_left (isBlank_of_isIndent blanks) line)
    have grouped : before ++ indentLines indent (line :: later) =
        before ++ "\n" ++ written ++ indentLines indent later := by
      simp [written_eq, String.append_assoc]
    rw [grouped, ih single.2, contentLines_append, kept, List.append_assoc (contentLines before),
      ← contentOf_append, List.singleton_append]

end Indent

/-! ### Trivia that are written anew -/

/-- The lines that are written anew: all behind the first line feed, or the only one. -/
def movedLines (trivia : Trivia) : List String :=
  match lines trivia with
  | [only] => [only]
  | all => all.tail

/-- The lines that are left are those that are written anew. -/
theorem contentLines_reindented {indent : String} (blanks : indent.toList.all isIndent = true)
    (trivia : Trivia) : contentLines (trivia.reindented indent) = contentOf trivia.movedLines := by
  have single : ∀ line ∈ (lines trivia).map trim, '\n' ∉ line.toList := by
    refine List.forall_mem_map.2 fun line member => notMem_trim (notMem_of_mem_lines member)
  have fresh (text : String) : contentLines ("\n" ++ text) = contentLines text := by
    have divided := contentLines_append "" text
    rwa [String.empty_append] at divided
  have some : lines trivia ≠ [] := by simp [lines, cutAt_ne_nil]
  rw [reindented, movedLines]
  obtain ⟨first, later, lines_eq⟩ := List.exists_cons_of_ne_nil some
  rw [lines_eq] at single ⊢
  cases later with
  | nil =>
    rw [List.map_singleton, List.forall_mem_singleton] at single
    show contentLines ("\n" ++ indent ++ spaced (trim first)) = contentOf [first]
    rw [String.append_assoc, fresh, contentLines_spaced blanks single]
    exact contentOf_map_trim [first]
  | cons second others =>
    -- The last line is told apart from those before it.
    obtain ⟨middle, last, behind⟩ : ∃ middle last, trim second :: others.map trim = middle ++ [last] :=
      ⟨_, _, (List.dropLast_concat_getLast (List.cons_ne_nil _ _)).symm⟩
    rw [List.map_cons, List.map_cons, List.forall_mem_cons, behind, List.forall_mem_append,
      List.forall_mem_singleton] at single
    show contentLines (indentLines indent (trim second :: others.map trim).dropLast ++ "\n" ++ indent ++
      spaced ((trim second :: others.map trim).getLastD "")) = contentOf (second :: others)
    rw [← contentOf_map_trim (second :: others), List.map_cons, behind, List.dropLast_concat,
      List.getLastD_concat, contentOf_append, String.append_assoc]
    have divided := contentLines_indentLines blanks single.2.1 "" (indent ++ spaced last)
    rw [String.empty_append, contentLines_spaced blanks single.2.2] at divided
    exact divided

/-- No line of a comment is lost, whatever the indentation is, just where nothing but white space
stands before the first line feed. -/
theorem contentLines_reindented_iff {indent : String}
    (blanks : indent.toList.all isIndent = true) (trivia : Trivia) :
    contentLines (trivia.reindented indent) = contentLines trivia ↔
      ('\n' ∈ trivia.toList → isBlank (.ofList (trivia.toList.takeWhile (· != '\n'))) = true) := by
  rw [contentLines_reindented blanks]
  by_cases feed : '\n' ∈ trivia.toList
  · obtain ⟨first, rest, split, noFeed⟩ := List.eq_append_cons_of_mem feed
    have text_eq : trivia = .ofList first ++ "\n" ++ .ofList rest := by
      rw [← String.toList_inj]
      simp [split]
    have before : trivia.toList.takeWhile (· != '\n') = first := by
      rw [split, List.takeWhile_append_of_pos]
      · simp
      · intro c member
        rw [bne_iff_ne]
        rintro rfl
        exact noFeed member
    have lines_eq : lines trivia = .ofList first :: lines (.ofList rest) := by
      rw [text_eq, lines_append, lines_of_notMem (by simpa using noFeed), List.singleton_append]
    -- Of several segments the first is dropped, so the content stays just when it had none.
    have moved : movedLines trivia = lines (.ofList rest) := by
      have some : lines (.ofList rest) ≠ [] := by simp [lines, cutAt_ne_nil]
      rw [movedLines, lines_eq]
      split
      · next alone => exact absurd (List.cons.inj alone).2 some
      · rfl
    rw [moved, contentLines, lines_eq, ← List.singleton_append, contentOf_append, before,
      ← trim_eq_empty_iff, List.self_eq_append_left]
    simp [contentOf, feed]
  · have moved : movedLines trivia = lines trivia := by rw [movedLines, lines_of_notMem feed]
    simp [moved, contentLines, feed]

/-- The comment of a statement on a line of its own keeps its line. -/
theorem contentLines_reindented_ownLine :
    contentLines (reindented "\n\n  // check\n  " "\t") = ["// check"] :=
  ((contentLines_reindented_iff (by decide) "\n\n  // check\n  ").2 (by decide)).trans (by decide)

/-- A comment that begins on the line of the closure and goes on to the next one loses its first
line, and what is left of it is no comment. -/
theorem contentLines_reindented_lost :
    ∃ token ∈ (tokenize "XCTAssertThrowsError(try f()) \x7b e in /* a\n b */ print(e) \x7d").tokens,
      token.text = "print" ∧ token.leading.reindented "" = "\nb */ " ∧
        contentLines token.leading = ["/* a", "b */"] ∧
        contentLines (token.leading.reindented "") = ["b */"] := by
  decide +kernel

end Trivia

end SuiteMigration
