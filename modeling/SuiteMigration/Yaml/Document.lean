import SuiteMigration.Yaml.Tokenizer

/-!
# Settings documents

A settings text holds at most one document. The document is a scalar or a mapping from scalars to
scalars, where a scalar may also be given by reference to an anchor. A sequence, and a collection
inside another, are refused, because they give no value to a setting.

A reference leads to the node that has the number of its anchor at the end of the document. An anchor
gets as its number the number of names known before it, so a name that is given twice lets a later
anchor take over the number.

## Main definitions

* `Scalar`, `Leaf` - a scalar, and a node that is a scalar or a reference
* `Shape` - how a document arranges its nodes
* `readNode?` - the node at the start of a list of tokens
* `readDocument?` - the document of a list of tokens
* `Anchors` - the nodes that can be referred to
* `document?` - the document of a text
-/

namespace SuiteMigration.Yaml

/-- A scalar. -/
structure Scalar where
  /-- The text that the scalar stands for. -/
  text : String := ""
  /-- How it is written. -/
  style : ScalarStyle := .plain
  /-- Its tag, if one is given. -/
  tag : Option Tag := none
  deriving DecidableEq, Repr

/-- A node that is no collection. -/
inductive Leaf
  | scalar (anchor : Option String) (scalar : Scalar)
  | alias (name : String)
  deriving DecidableEq, Repr

/-- How a document arranges its nodes. -/
inductive Shape (α : Type)
  /-- There is no document. -/
  | empty
  | single (node : α)
  | mapping (anchor : Option String) (entries : List (α × α))
  deriving DecidableEq, Repr

/-- What the handles of tags stand for. -/
abbrev Handles := List (String × Tag)

/-- The handles that need not be declared. -/
def standardHandles : Handles :=
  [("!", octets "!"), ("!!", coreTag "")]

/-! ### Nodes -/

/-- What stands in front of a node. -/
structure Properties where
  anchor : Option String := none
  tag : Option Tag := none
  deriving DecidableEq, Repr

/-- The tag that a handle and a suffix stand for. -/
def resolveTag? (handles : Handles) (handle : String) (suffix : Tag) : Option Tag :=
  if handle.isEmpty then some suffix else (handles.lookup handle).map (· ++ suffix)

/-- The anchor and the tag in front of a node, in either order, and the tokens after them. -/
def readProperties? (handles : Handles) : List Token → Option (Properties × List Token)
  | .anchor name :: .tag handle suffix :: rest
  | .tag handle suffix :: .anchor name :: rest => do
    let tag ← resolveTag? handles handle suffix
    some (⟨some name, some tag⟩, rest)
  | .anchor name :: rest => some (⟨some name, none⟩, rest)
  | .tag handle suffix :: rest => do
    let tag ← resolveTag? handles handle suffix
    some (⟨none, some tag⟩, rest)
  | rest => some ({}, rest)

/-- The scalar without a text and without properties. -/
def Leaf.blank : Leaf :=
  .scalar none {}

/-- Where a node stands. -/
inductive Position
  /-- As a key or a value of a mapping by indentation. A sequence there needs no indentation of its
  own, so that it starts with its first item. -/
  | blockEntry
  /-- Anywhere else. -/
  | elsewhere
  deriving DecidableEq, Repr

/-- Whether a collection starts with the token. -/
def Position.startsCollection (position : Position) : Token → Bool
  | .blockSequenceStart | .blockMappingStart | .flowSequenceStart | .flowMappingStart => true
  | .blockEntry => position = .blockEntry
  | _ => false

/-- The scalar after its properties, and the tokens after it. With properties, the text may be
missing. -/
def readScalar? (position : Position) (properties : Properties) :
    List Token → Option (Leaf × List Token)
  | .scalar style text :: rest =>
    some (.scalar properties.anchor { text, style, tag := properties.tag }, rest)
  | rest =>
    if properties = {} || rest.head?.any position.startsCollection then none
    else some (.scalar properties.anchor { tag := properties.tag }, rest)

/-- The node at the start of the tokens, which is a scalar or a reference, and the tokens after it. -/
def readNode? (handles : Handles) (position : Position) : List Token → Option (Leaf × List Token)
  | .alias name :: rest => some (.alias name, rest)
  | tokens => do
    let (properties, rest) ← readProperties? handles tokens
    readScalar? position properties rest

/-- The node at the start of the tokens, or a blank one if the next token ends it. -/
def readNodeBefore? (handles : Handles) (position : Position) (ends : Token → Bool)
    (tokens : List Token) : Option (Leaf × List Token) :=
  if tokens.head?.any ends then some (.blank, tokens) else readNode? handles position tokens

/-- The value after a key, or a blank one if there is none. -/
def readValueBefore? (handles : Handles) (position : Position) (ends : Token → Bool) :
    List Token → Option (Leaf × List Token)
  | .value :: rest => readNodeBefore? handles position ends rest
  | tokens => some (.blank, tokens)

/-! ### Mappings -/

/-- The tokens that end a key or a value of a mapping by indentation. -/
def endsBlockNode (token : Token) : Bool :=
  token ∈ [.key, .value, .blockEnd]

/-- The entries of a mapping by indentation. -/
def readBlockEntries? (handles : Handles) :
    Nat → List Token → Option (List (Leaf × Leaf) × List Token)
  | 0, _ => none
  | fuel + 1, .key :: rest => do
    let (key, rest) ← readNodeBefore? handles .blockEntry endsBlockNode rest
    let (value, rest) ← readValueBefore? handles .blockEntry endsBlockNode rest
    let (entries, rest) ← readBlockEntries? handles fuel rest
    some ((key, value) :: entries, rest)
  | _ + 1, .blockEnd :: rest => some ([], rest)
  | _ + 1, _ => none

/-- The tokens after the comma that divides two entries in brackets. The first entry has none. -/
def afterComma? (first : Bool) : List Token → Option (List Token)
  | .flowEntry :: rest => if first then none else some rest
  | tokens => if first then some tokens else none

/-- The tokens that end a value of a mapping in brackets. -/
def endsFlowNode (token : Token) : Bool :=
  token ∈ [.flowEntry, .flowMappingEnd]

/-- An entry of a mapping in brackets. Only a marked key has a value. -/
def readFlowEntry? (handles : Handles) : List Token → Option ((Leaf × Leaf) × List Token)
  | .key :: rest => do
    let (key, rest) ←
      readNodeBefore? handles .elsewhere (fun token => endsFlowNode token || token == .value) rest
    let (value, rest) ← readValueBefore? handles .elsewhere endsFlowNode rest
    some ((key, value), rest)
  | tokens => do
    let (key, rest) ← readNode? handles .elsewhere tokens
    some ((key, .blank), rest)

/-- The entries of a mapping in brackets. -/
def readFlowEntries? (handles : Handles) :
    Nat → (first : Bool) → List Token → Option (List (Leaf × Leaf) × List Token)
  | 0, _, _ => none
  | _ + 1, _, .flowMappingEnd :: rest => some ([], rest)
  | fuel + 1, first, tokens => do
    match ← afterComma? first tokens with
    | .flowMappingEnd :: rest => some ([], rest)
    | tokens =>
      let (entry, rest) ← readFlowEntry? handles tokens
      let (entries, rest) ← readFlowEntries? handles fuel false rest
      some (entry :: entries, rest)

/-! ### Documents -/

/-- The outermost node of a document, and the tokens after it. -/
def readRoot? (handles : Handles) (tokens : List Token) : Option (Shape Leaf × List Token) :=
  match tokens with
  | .alias name :: rest => some (.single (.alias name), rest)
  | _ => do
    let (properties, rest) ← readProperties? handles tokens
    let fuel := rest.length + 1
    match rest with
    | .blockMappingStart :: rest =>
      let (entries, rest) ← readBlockEntries? handles fuel rest
      some (.mapping properties.anchor entries, rest)
    | .flowMappingStart :: rest =>
      let (entries, rest) ← readFlowEntries? handles fuel true rest
      some (.mapping properties.anchor entries, rest)
    | _ =>
      let (leaf, rest) ← readScalar? .elsewhere properties rest
      some (.single leaf, rest)

/-- The handles of a document after its directives, and the tokens after them. Each handle is
declared once. The version is stated once, and is 1.1 or 1.2. -/
def readDirectives? (versioned : Bool) (handles : Handles) :
    List Token → Option (Handles × List Token)
  | .version major minor :: rest =>
    if versioned || major != 1 || !(minor == 1 || minor == 2) then none
    else readDirectives? true handles rest
  | .handle handle meaning :: rest =>
    if (handles.lookup handle).isSome then none
    else readDirectives? versioned ((handle, meaning) :: handles) rest
  | rest => some (handles ++ standardHandles, rest)

/-- Whether the token stands between documents. -/
def isBetween : Token → Bool
  | .version _ _ | .handle _ _ | .documentStart | .documentEnd => true
  | _ => false

/-- The outermost node of the only document. A document that is not started by a marker has no
directives. -/
def readDocument? (tokens : List Token) : Option (Shape Leaf × List Token) :=
  match tokens with
  | [] => some (.empty, [])
  | .version _ _ :: _ | .handle _ _ :: _ | .documentStart :: _ => do
    let (handles, rest) ← readDirectives? false [] tokens
    match rest with
    | .documentStart :: rest =>
      if rest.isEmpty || rest.head?.any isBetween then some (.single .blank, rest)
      else readRoot? handles rest
    | _ => none
  | _ => readRoot? standardHandles tokens

/-! ### References -/

/-- The nodes that can be referred to. -/
structure Anchors where
  /-- The names with their numbers, each name once. -/
  numbers : List (String × Nat) := []
  /-- The nodes with their numbers, the latest first. A collection is not kept. -/
  nodes : List (Nat × Option Scalar) := []

/-- A node gets a name. -/
def Anchors.add (anchors : Anchors) (name : Option String) (node : Option Scalar) : Anchors :=
  match name with
  | none => anchors
  | some name =>
    { numbers := (name, anchors.numbers.length) :: anchors.numbers.filter (·.1 != name)
      nodes := (anchors.numbers.length, node) :: anchors.nodes }

/-- A scalar, or the number of the node it is given by. -/
abbrev Numbered := Scalar ⊕ Nat

/-- A node with the name of its reference replaced by the number that it has so far. -/
def Leaf.number? : Leaf → StateT Anchors Option Numbered
  | .scalar anchor content => do
    modify (·.add anchor (some content))
    return .inl content
  | .alias name => do
    return .inr (← ((← get).numbers.lookup name : Option Nat))

/-- The scalar that is given. A reference to a collection gives none. -/
def Anchors.scalar? (anchors : Anchors) : Numbered → Option Scalar
  | .inl content => some content
  | .inr number => (anchors.nodes.lookup number).join

/-- The document with an action applied to its nodes in their order. A collection is named before its
nodes. -/
def Shape.traverse [Monad m] (name : Option String → m Unit) (act : α → m β) :
    Shape α → m (Shape β)
  | .empty => return .empty
  | .single node => return .single (← act node)
  | .mapping anchor entries => do
    name anchor
    return .mapping anchor (← entries.mapM fun (key, value) => return (← act key, ← act value))

/-- The document with its references replaced by what they lead to. -/
def Shape.resolve? (document : Shape Leaf) : Option (Shape Scalar) := do
  let (numbered, anchors) ←
    (document.traverse (fun anchor => modify (·.add anchor none)) Leaf.number?).run {}
  numbered.traverse (fun _ => some ()) anchors.scalar?

/-- The only document of a text. -/
def document? (text : String) : Option (Shape Scalar) := do
  let (document, rest) ← readDocument? (← tokens? text)
  if rest.all (· == .documentEnd) then document.resolve? else none

end SuiteMigration.Yaml
