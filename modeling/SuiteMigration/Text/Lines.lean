/-!
# Parts of a text

A text is cut at a separator. The number of parts is one more than the number of separators, so there
is always at least one part. Lines are the parts between line feeds.

## Main definitions

* `cutAt` - the parts of a list of characters
* `lines`, `joinLines` - the lines of a text, and the text of given lines

## Main results

* `cutAt_ne_nil` - there is always a part
* `cutAt_append`, `lines_append` - two texts with a separator between them are cut one after the
  other
-/

namespace SuiteMigration.Text

/-- The maximal runs between separators. -/
def cutAt (separator : Char) : List Char → List (List Char)
  | [] => [[]]
  | c :: rest =>
    if c = separator then [] :: cutAt separator rest
    else match cutAt separator rest with
      | [] => [[c]]
      | part :: later => (c :: part) :: later

theorem cutAt_ne_nil (separator : Char) (text : List Char) : cutAt separator text ≠ [] := by
  cases text with
  | nil => simp [cutAt]
  | cons c rest =>
    rw [cutAt]
    split
    · simp
    · split <;> simp

/-- Two texts with a separator between them are cut one after the other. -/
theorem cutAt_append (separator : Char) (text rest : List Char) :
    cutAt separator (text ++ separator :: rest) = cutAt separator text ++ cutAt separator rest := by
  induction text with
  | nil => simp [cutAt]
  | cons c text ih =>
    obtain ⟨part, later, parts⟩ := List.exists_cons_of_ne_nil (cutAt_ne_nil separator text)
    by_cases same : c = separator <;> simp [cutAt, same, ih, parts]

/-- Without a separator there is one part. -/
theorem cutAt_of_notMem {separator : Char} {text : List Char} (notMem : separator ∉ text) :
    cutAt separator text = [text] := by
  induction text with
  | nil => rfl
  | cons c text ih =>
    rw [List.mem_cons, not_or] at notMem
    simp [cutAt, Ne.symm notMem.1, ih notMem.2]

/-- No part holds a separator. -/
theorem notMem_of_mem_cutAt {separator : Char} {text part : List Char}
    (member : part ∈ cutAt separator text) : separator ∉ part := by
  induction text generalizing part with
  | nil => simp_all [cutAt]
  | cons c rest ih =>
    obtain ⟨first, later, parts⟩ := List.exists_cons_of_ne_nil (cutAt_ne_nil separator rest)
    rw [cutAt] at member
    split at member
    · rcases List.mem_cons.1 member with rfl | member
      · simp
      · exact ih member
    · next other =>
      rw [parts] at member ih
      rcases List.mem_cons.1 member with rfl | member
      · simpa [Ne.symm other] using ih List.mem_cons_self
      · exact ih (List.mem_cons_of_mem _ member)

/-- The lines of a text. -/
def lines (text : String) : List String :=
  (cutAt '\n' text.toList).map .ofList

/-- A line feed between two texts parts their lines. -/
theorem lines_append (first second : String) :
    lines (first ++ "\n" ++ second) = lines first ++ lines second := by
  simp [lines, cutAt_append]

/-- A text without a line feed is one line. -/
theorem lines_of_notMem {text : String} (notMem : '\n' ∉ text.toList) : lines text = [text] := by
  simp [lines, cutAt_of_notMem notMem]

/-- No line holds a line feed. -/
theorem notMem_of_mem_lines {text line : String} (member : line ∈ lines text) :
    '\n' ∉ line.toList := by
  obtain ⟨part, found, rfl⟩ := List.mem_map.1 member
  rw [String.toList_ofList]
  exact notMem_of_mem_cutAt found

/-- The text of the given lines, with a line feed between any two. -/
def joinLines (lines : List String) : String :=
  "\n".intercalate lines

end SuiteMigration.Text
