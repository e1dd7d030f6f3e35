/-!
# White space

The Unicode property `White_Space` and the trimming of texts by it. The class is wider than the one
of `Char.isWhitespace`: it also holds the vertical tab, the form feed, the no-break spaces and the
line and paragraph separators.

## Main definitions

* `isWhiteSpace` - the property `White_Space`
* `trimStart`, `trimEnd`, `trim` - a text without the white space at its ends
-/

namespace SuiteMigration.Text

/-- The 25 code points with the property `White_Space`. -/
def isWhiteSpace (c : Char) : Bool :=
  let n := c.toNat
  (0x9 ≤ n && n ≤ 0xD) || n == 0x20 || n == 0x85 || n == 0xA0 || n == 0x1680 ||
    (0x2000 ≤ n && n ≤ 0x200A) || n == 0x2028 || n == 0x2029 || n == 0x202F || n == 0x205F ||
    n == 0x3000

/-- The list without its longest final run of elements with the property. -/
def dropWhileEnd (p : α → Bool) (xs : List α) : List α :=
  (xs.reverse.dropWhile p).reverse

/-- The longest final run of elements with the property. -/
def takeWhileEnd (p : α → Bool) (xs : List α) : List α :=
  (xs.reverse.takeWhile p).reverse

/-- The text without its initial white space. -/
def trimStart (text : String) : String :=
  .ofList (text.toList.dropWhile isWhiteSpace)

/-- The text without its final white space. -/
def trimEnd (text : String) : String :=
  .ofList (dropWhileEnd isWhiteSpace text.toList)

/-- The text without the white space at both ends. -/
def trim (text : String) : String :=
  trimEnd (trimStart text)

/-- A list splits into the part that `dropWhileEnd` keeps and the run that `takeWhileEnd` takes. -/
theorem dropWhileEnd_append_takeWhileEnd (p : α → Bool) (xs : List α) :
    dropWhileEnd p xs ++ takeWhileEnd p xs = xs := by
  rw [dropWhileEnd, takeWhileEnd, ← List.reverse_append, List.takeWhile_append_dropWhile,
    List.reverse_reverse]

theorem dropWhileEnd_append (p : α → Bool) (xs : List α) {ys : List α} (all : ∀ y ∈ ys, p y) :
    dropWhileEnd p (xs ++ ys) = dropWhileEnd p xs := by
  rw [dropWhileEnd, dropWhileEnd, List.reverse_append, List.dropWhile_append_of_pos]
  simpa using all

example : isWhiteSpace '\x0b' ∧ isWhiteSpace '\u2003' ∧ ¬ isWhiteSpace '\u200b' := by decide

end SuiteMigration.Text
