import SuiteMigration.Batch
import SuiteMigration.LineDiff
import SuiteMigration.Span

/-!
# Reports

What is printed about migrated files: the migrated text, its differences to the text before, or one
line that says whether the file was replaced.

## Main definitions

* `header` - a line in bold
* `sourceReport` - the migrated text
* `diffReport` - the differences
* `statusReport` - the line about a file migrated in place
-/

namespace SuiteMigration

/-- A line in bold. -/
def header (text : String) : Span where
  style := some { bold := true }
  text := text ++ "\n"

/-- The migrated text as it is. With a header the path comes first, and the text ends its last
line. -/
def sourceReport (withHeader : Bool) (file : MigratedFile) : List Span :=
  if withHeader then
    let lineEnd := if file.after.toList.getLast? == some '\n' then [] else [{ text := "\n" }]
    [header ("==> " ++ file.path.text ++ " <=="), { text := file.after }] ++ lineEnd
  else [{ text := file.after }]

/-- The mark in front of a line. -/
def Change.mark : Change → String
  | .same => " "
  | .removed => "-"
  | .added => "+"

/-- The colour of a chunk. -/
def Change.colour : Change → Option Colour
  | .same => none
  | .removed => some .red
  | .added => some .green

/-- The marked lines of a chunk. -/
def Chunk.span (chunk : Chunk) : Span where
  style := some { colour := chunk.change.colour }
  text := .join (chunk.lines.map fun line => chunk.change.mark ++ line ++ "\n")

/-- The differences of a file, line by line, after the path in two headers. A file that did not
change has none. -/
def diffReport (file : MigratedFile) : List Span :=
  if file.changed then
    [header ("--- " ++ file.path.text), header ("+++ " ++ file.path.text)] ++
      (lineDiff file.before file.after).map Chunk.span
  else []

/-- The line about a file migrated in place. Both labels take nine columns. -/
def statusReport (path : Path) (changed : Bool) : List Span :=
  let (label, colour) : String × Colour :=
    if changed then (" migrated", .green) else ("unchanged", .yellow)
  [{ style := some { bold := true, colour := some colour }, text := label },
    { text := " " ++ path.text ++ "\n" }]

end SuiteMigration
