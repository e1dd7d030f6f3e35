import SuiteMigration.Strategy
import SuiteMigration.Text.Lines
import SuiteMigration.Text.WhiteSpace
import SuiteMigration.Yaml.Document

/-!
# Settings

A settings file gives defaults for a run: the strategy, whether folders are searched to the bottom,
and whether files are migrated in parallel. Every key may be left out, and a null value is the same
as no key. An unknown key, a repeated key or a value of the wrong kind makes the file invalid.

How a scalar becomes a truth value, a text or a strategy follows the library `serde_yaml`: only plain
scalars are resolved, and a tag can name a variant.

## Main definitions

* `Settings` - the defaults that a file gives
* `settingOf` - a setting from its scalar, where null is unset
* `Settings.ofValues`, `Settings.ofDocument` - the settings of given values, and of a document
* `Settings.parse` - the settings of a text
-/

namespace SuiteMigration

open Yaml (Scalar)

/-- The defaults that a settings file gives. -/
structure Settings where
  /-- What converted suites are. -/
  strategy : Option Strategy := none
  /-- Whether folders are searched to the bottom. -/
  recursive : Option Bool := none
  /-- Whether files are migrated in parallel. -/
  parallel : Option Bool := none
  deriving DecidableEq, Repr

/-! ### Values -/

/-- Whether the text of a plain scalar spells null. -/
def spellsNull (text : String) : Bool :=
  text ∈ ["null", "Null", "NULL", "~"]

/-- The truth value that a text spells. -/
def boolOfText? (text : String) : Option Bool :=
  if text ∈ ["true", "True", "TRUE"] then some true
  else if text ∈ ["false", "False", "FALSE"] then some false
  else none

/-- The truth value of a scalar. A quoted scalar has none, whatever its text; a literal block has one
if its tag says so. -/
def boolOfScalar? (scalar : Scalar) : Option Bool :=
  if scalar.style = .plain ∨
      (scalar.style = .literal ∧ scalar.tag = some (Yaml.coreTag "bool")) then
    boolOfText? scalar.text
  else none

/-- The strategy with the given name, and with no other. -/
def strategyOfText? (text : String) : Option Strategy :=
  (Strategy.ofName? text).filter fun strategy => strategy.name == text

/-- The name in a tag that is local to the application: what follows the exclamation mark. -/
def localName? (tag : Yaml.Tag) : Option String :=
  match tag with
  | mark :: name => if mark = '!'.toNat.toUInt8 then String.fromUTF8? ⟨name.toArray⟩ else none
  | [] => none

/-- The strategy of a scalar. The text names it or, if the text spells null, a local tag. -/
def strategyOfScalar? (scalar : Scalar) : Option Strategy :=
  match scalar.tag.bind localName? with
  | some name =>
    if scalar.style = .plain ∧ (scalar.text.isEmpty ∨ spellsNull scalar.text) then
      strategyOfText? name
    else none
  | none => strategyOfText? scalar.text

/-- A setting from its scalar: unset for null, and nothing for a value of the wrong kind. -/
def settingOf (value? : Scalar → Option α) (scalar : Scalar) : Option (Option α) :=
  if scalar.style = .plain then
    match scalar.tag with
    | some tag =>
      if tag = Yaml.coreTag "null" then
        if spellsNull scalar.text then some none else none
      else (value? scalar).map some
    | none =>
      if scalar.text.isEmpty || spellsNull scalar.text then some none
      else (value? scalar).map some
  else (value? scalar).map some

/-! ### Files -/

namespace Settings

/-- The keys of a settings file. -/
def keys : List String :=
  ["strategy", "recursive", "parallel"]

/-- The setting under a key, unset if the key is missing. -/
def setting (value? : Scalar → Option α) (values : List (String × Scalar)) (key : String) :
    Option (Option α) :=
  match values.lookup key with
  | some value => settingOf value? value
  | none => some none

/-- The settings with the given values. Each key is known and occurs once. -/
def ofValues (values : List (String × Scalar)) : Option Settings := do
  let names := values.map (·.1)
  if ¬ (names.Nodup ∧ ∀ name ∈ names, name ∈ keys) then none
  some
    { strategy := ← setting strategyOfScalar? values "strategy"
      recursive := ← setting boolOfScalar? values "recursive"
      parallel := ← setting boolOfScalar? values "parallel" }

/-- The settings of a document, which is a mapping. A blank document leaves everything unset. -/
def ofDocument : Yaml.Shape Scalar → Option Settings
  | .empty => some {}
  | .single scalar => if scalar.style = .plain ∧ scalar.text.isEmpty then some {} else none
  | .mapping _ entries => ofValues (entries.map fun (key, value) => (key.text, value))

/-- Whether a line says something: it is neither blank nor a comment nor the start of a document. -/
def saysSomething (line : String) : Bool :=
  let line := Text.trim line
  !line.isEmpty && !line.startsWith "#" && line != "---"

/-- The settings of a text, or nothing if the text is invalid. A text that says nothing leaves
everything unset. -/
def parse (text : String) : Option Settings :=
  if (Text.lines text).any saysSomething then
    (Yaml.document? text).bind ofDocument
  else some {}

end Settings

end SuiteMigration
