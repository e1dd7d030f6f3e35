import SuiteMigration.Text.Lines

/-!
# Line differences

Two texts are compared line by line. A table of the lengths of common subsequences is filled row by
row, a walk back through the table picks the lines that both texts share, and a merge along those
lines groups all lines into chunks: lines of both texts, lines of the first only, and lines of the
second only.

The program leaves the comparison to the library `difference`. The module follows that library: its
table, the side to which its walk back goes at a tie, and its merge with a line feed as separator.

## Main definitions

* `Change`, `Chunk` - what became of a line, and a run of lines with one fate
* `lengthTable` - the lengths of common subsequences of initial parts
* `commonLines` - the shared lines that the walk back picks
* `mergeAlong` - the chunks of two lists along a shared list
* `lineDiff` - the chunks of two texts
-/

namespace SuiteMigration

/-- What became of a line. -/
inductive Change
  /-- The line is in both texts. -/
  | same
  /-- The line is in the first text only. -/
  | removed
  /-- The line is in the second text only. -/
  | added
  deriving DecidableEq, Repr

/-- A run of lines with one fate. -/
structure Chunk where
  /-- What became of the lines. -/
  change : Change
  /-- The lines, in order. -/
  lines : List String
  deriving DecidableEq, Repr

namespace LineDiff

/-- The cell of the table for a row and a column, from the cells before it in row-major order. -/
def lengthCell (first second : Array String) (cells : Array Nat) (row column : Nat) : Nat :=
  let width := second.size
  let cell (r c : Nat) : Nat := cells.getD (r * width + c) 0
  if first.getD row "" = second.getD column "" then
    if row = 0 ∨ column = 0 then 1 else cell (row - 1) (column - 1) + 1
  else if row = 0 then
    if column = 0 then 0 else cell 0 (column - 1)
  else if column = 0 then cell (row - 1) 0
  else max (cell row (column - 1)) (cell (row - 1) column)

/-- The lengths of common subsequences of initial parts, one row for each line of the first list,
row after row. -/
def lengthTable (first second : Array String) : Array Nat :=
  (List.range (first.size * second.size)).foldl
    (fun cells k =>
      cells.push (lengthCell first second cells (k / second.size) (k % second.size)))
    #[]

/-- The walk back through a table: `rows` and `columns` lines are still ahead, and `found` holds
the shared lines behind. The step to the left is taken where the cell there is greater than the one
above. Left of the first column stands the last cell of the row above. -/
def walkBack (first second : Array String) (cells : Array Nat) :
    (rows columns : Nat) → (found : List String) → List String
  | 0, _, found => found
  | _ + 1, 0, found => found
  | row + 1, column + 1, found =>
    let line := first.getD row ""
    if line = second.getD column "" then walkBack first second cells row column (line :: found)
    else if row = 0 ∧ column = 0 then found
    else if row = 0 ∨ cells.getD ((row - 1) * second.size + column) 0 <
        cells.getD (row * second.size + column - 1) 0 then
      walkBack first second cells (row + 1) column found
    else walkBack first second cells row (column + 1) found
  termination_by rows columns => rows + columns

/-- The lines of both lists that the walk back picks, in order. -/
def commonLines (first second : List String) : List String :=
  let first := first.toArray
  let second := second.toArray
  walkBack first second (lengthTable first second) first.size second.size []

/-- The longest run with which all three lists start. -/
def sharedRun : List String → List String → List String → List String
  | a :: first, b :: second, c :: shared =>
    if a = c ∧ b = c then a :: sharedRun first second shared else []
  | _, _, _ => []

/-- The lines before the next shared line, or all lines if none is left. -/
def runBefore (shared lines : List String) : List String :=
  lines.takeWhile fun line => some line ≠ shared.head?

/-- A chunk for a run of lines, and none for the empty run. -/
def chunkOf (change : Change) : List String → List Chunk
  | [] => []
  | lines => [⟨change, lines⟩]

/-- The chunks of two lists along a shared list: in each round the lines that all three have, then
the lines of the first up to the next shared line, then those of the second. Every round takes a
line as long as the shared list is a common subsequence, so `rounds` need not exceed the number of
lines. -/
def mergeAlong : (rounds : Nat) → (shared first second : List String) → List Chunk
  | 0, _, _, _ => []
  | rounds + 1, shared, first, second =>
    if first.isEmpty && second.isEmpty then [] else
      let same := sharedRun first second shared
      let shared := shared.drop same.length
      let first := first.drop same.length
      let second := second.drop same.length
      let removed := runBefore shared first
      let added := runBefore shared second
      chunkOf .same same ++ chunkOf .removed removed ++ chunkOf .added added ++
        mergeAlong rounds shared (first.drop removed.length) (second.drop added.length)

/-- The lines of a text, where the empty text has none. -/
def linesOf (text : String) : List String :=
  if text.isEmpty then [] else Text.lines text

end LineDiff

open LineDiff in
/-- The chunks of two texts. A single empty line is not worth sharing: the merge takes the shared
lines as a text, and that text is then empty. -/
def lineDiff (before after : String) : List Chunk :=
  let shared := linesOf (Text.joinLines (commonLines (Text.lines before) (Text.lines after)))
  let first := linesOf before
  let second := linesOf after
  mergeAlong (first.length + second.length) shared first second

end SuiteMigration
