/-!
# Tokens of a settings text

The tokens of the settings language. Collections come in two styles: by indentation, where the
tokenizer supplies their starts and ends, and in brackets.

## Main definitions

* `ScalarStyle` - how a scalar is written
* `Tag` - the octets of a tag
* `Token` - a token
-/

namespace SuiteMigration.Yaml

/-- How a scalar is written. -/
inductive ScalarStyle
  | plain
  | quoted
  | literal
  | folded
  deriving DecidableEq, Repr

/-- A tag, or a part of one. Tags may hold escaped octets, so they need not be text. -/
abbrev Tag := List UInt8

/-- The octets of a text. -/
def octets (text : String) : Tag :=
  text.toUTF8.toList

/-- A tag of the core schema. -/
def coreTag (suffix : String) : Tag :=
  octets ("tag:yaml.org,2002:" ++ suffix)

/-- A token. -/
inductive Token
  /-- The version of the language that a document uses. -/
  | version (major minor : Nat)
  /-- What a handle of tags stands for. -/
  | handle (handle : String) (meaning : Tag)
  | documentStart
  | documentEnd
  /-- A sequence by indentation starts. -/
  | blockSequenceStart
  /-- A mapping by indentation starts. -/
  | blockMappingStart
  /-- A collection by indentation ends. -/
  | blockEnd
  | flowSequenceStart
  | flowSequenceEnd
  | flowMappingStart
  | flowMappingEnd
  /-- An item of a sequence by indentation follows. -/
  | blockEntry
  /-- An item of a collection in brackets has ended. -/
  | flowEntry
  /-- A key follows. -/
  | key
  /-- A value follows. -/
  | value
  /-- A reference to the node with an anchor. -/
  | alias (name : String)
  /-- The name of the node that follows. -/
  | anchor (name : String)
  /-- The tag of the node that follows: what its handle stands for, and then the suffix. An empty
  handle stands for nothing. -/
  | tag (handle : String) (suffix : Tag)
  | scalar (style : ScalarStyle) (text : String)
  deriving DecidableEq, Repr

end SuiteMigration.Yaml
