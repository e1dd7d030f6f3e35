import SuiteMigration.Yaml.Reader
import SuiteMigration.Yaml.Token

/-!
# Anchors, tags and directives

What stands in front of nodes and documents. Each function reads one such token from its first
character on and gives the token with the place after it, or nothing if it is not well formed.

## Main definitions

* `Reader.anchorName?` - the name of an anchor or a reference
* `Reader.tag?` - a tag
* `Reader.directive?` - a directive
-/

namespace SuiteMigration.Yaml

/-! ### Tags -/

/-- Whether the character may stand in a tag. Only a tag in angle brackets holds commas and square
brackets. -/
def isTagChar (bracketed : Bool) (c : Char) : Bool :=
  isWordChar c ||
    c ∈ [';', '/', '?', ':', '@', '&', '=', '+', '$', '.', '!', '~', '*', '\'', '(', ')'] ||
    (bracketed && c ∈ [',', '[', ']'])

/-- The number of octets of the character that starts with the given octet. -/
def octetWidth? (octet : Nat) : Option Nat :=
  if octet < 0x80 then some 1
  else if octet < 0xC0 then none
  else if octet < 0xE0 then some 2
  else if octet < 0xF0 then some 3
  else if octet < 0xF8 then some 4
  else none

/-- The octets of the tag characters ahead and the number of those characters. An octet may be
written as a percent sign with two digits, and then the further octets of its character follow the
same way: `pending` of them are still to come. -/
def tagRun (bracketed : Bool) (pending : Nat) : List Char → Option (Tag × Nat)
  | '%' :: a :: b :: rest => do
    let octet ← hexNumber? [a, b]
    let later ← match pending with
      | 0 => (octetWidth? octet).map (· - 1)
      | pending + 1 => if 0x80 ≤ octet ∧ octet < 0xC0 then some pending else none
    let (run, count) ← tagRun bracketed later rest
    some (octet.toUInt8 :: run, count + 3)
  | '%' :: _ => none
  | c :: rest =>
    if pending ≠ 0 then none
    else if isTagChar bracketed c then do
      let (run, count) ← tagRun bracketed 0 rest
      some (c.toNat.toUInt8 :: run, count + 1)
    else some ([], 0)
  | [] => if pending ≠ 0 then none else some ([], 0)

/-- The part of a tag that counts. It ends before a zero octet. -/
def Tag.effective (tag : Tag) : Tag :=
  tag.takeWhile (· != 0)

namespace Reader

/-- A run of tag characters, which is not empty, and the place after it. -/
def tagText? (reader : Reader) (bracketed : Bool) : Option (Tag × Reader) := do
  let (run, count) ← tagRun bracketed 0 reader.ahead
  if count = 0 then none else some (Tag.effective run, reader.advance count)

/-- A handle of tags, from its exclamation mark on: a mark alone, or a word between two marks. Of
anything else, the mark and the word after it. -/
def tagHandle (reader : Reader) : List Char :=
  let word := (reader.ahead.drop 1).takeWhile isWordChar
  let last := if (reader.ahead.drop (word.length + 1)).head? == some '!' then ['!'] else []
  '!' :: word ++ last

/-- Whether the characters are a handle with two exclamation marks. -/
def isFullHandle (handle : List Char) : Bool :=
  1 < handle.length && handle.getLast? == some '!'

/-- A tag in any of its forms: whole in angle brackets, after a handle, local to the application, or
an exclamation mark alone. -/
def tagForm? (reader : Reader) : Option (Token × Reader) :=
  match reader.ahead with
  | '!' :: '<' :: _ => do
    let (whole, after) ← (reader.advance 2).tagText? true
    if after.isAt '>' then some (.tag "" whole, after.skip) else none
  | _ => do
    let handle := reader.tagHandle
    let after := reader.advance handle.length
    if isFullHandle handle then
      let (suffix, after) ← after.tagText? false
      some (.tag (.ofList handle) suffix, after)
    else
      let (run, count) ← tagRun false 0 after.ahead
      let suffix := Tag.effective (octets (.ofList (handle.drop 1)) ++ run)
      let after := after.advance count
      if suffix.isEmpty then some (.tag "" (octets "!"), after)
      else some (.tag "!" suffix, after)

/-- A tag. A blank, a line end or, inside brackets, a comma follows it. -/
def tag? (reader : Reader) (inFlow : Bool) : Option (Token × Reader) :=
  reader.tagForm?.filter fun (_, after) =>
    (inFlow && after.isAt ',') || atSpace after.ahead

/-! ### Anchors -/

/-- The name of an anchor or a reference, after its first character. -/
def anchorName? (reader : Reader) : Option (String × Reader) :=
  let name := (reader.ahead.drop 1).takeWhile isWordChar
  let after := reader.advance (name.length + 1)
  if name.isEmpty then none
  else if atSpace after.ahead ||
      after.atAny (· ∈ ['?', ':', ',', ']', '\x7d', '%', '@', '\x60']) then
    some (.ofList name, after)
  else none

/-! ### Directives -/

/-- A number of at most nine digits and the place after it. -/
def number? (reader : Reader) : Option (Nat × Reader) :=
  let digits := reader.ahead.takeWhile Char.isDigit
  if digits.isEmpty || 9 < digits.length then none
  else some (digits.foldl (fun value digit => value * 10 + (digit.toNat - '0'.toNat)) 0,
    reader.advance digits.length)

/-- The version that a directive states. -/
def versionDirective? (reader : Reader) : Option (Token × Reader) := do
  let (major, after) ← (reader.skipWhile isBlank).number?
  if !after.isAt '.' then none
  let (minor, after) ← after.skip.number?
  some (.version major minor, after)

/-- The handle that a directive declares. -/
def handleDirective? (reader : Reader) : Option (Token × Reader) := do
  let reader := reader.skipWhile isBlank
  if !reader.isAt '!' then none
  let handle := reader.tagHandle
  if handle.length ≠ 1 ∧ !isFullHandle handle then none
  let after := reader.advance handle.length
  if !after.atAny isBlank then none
  let (meaning, after) ← (after.skipWhile isBlank).tagText? true
  if atSpace after.ahead then some (.handle (.ofList handle) meaning, after) else none

/-- A directive, with the line on which it stands. -/
def directive? (reader : Reader) : Option (Token × Reader) := do
  let name := (reader.ahead.drop 1).takeWhile isWordChar
  let after := reader.advance (name.length + 1)
  if !atSpace after.ahead then none
  let (token, after) ←
    if name = ['Y', 'A', 'M', 'L'] then after.versionDirective?
    else if name = ['T', 'A', 'G'] then after.handleDirective?
    else none
  let after ← after.restOfLine?
  some (token, after)

end Reader

end SuiteMigration.Yaml
