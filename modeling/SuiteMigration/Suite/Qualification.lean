import SuiteMigration.Suite.Symbols
import SuiteMigration.Tree.Transform

/-!
# Qualified references

In a class, a reference to a member inside a closure must name the instance. Bare references to the
members of a suite are qualified with `self` inside the closures of a method, except where the name
is bound in some scope around the reference. Nested functions and types are left alone.

Scopes are kept as a stack of frames. A block, a closure, a loop, a handler of errors and the head of
a conditional statement open a frame, and declarations and the conditions of a guard bind in the
frame that is innermost where they stand.

## Main definitions

* `QualifierState` - the frames, whether a closure is open, and the number of changes
* `qualified` - a reference with `self` in front
* `qualifier` - the transformer
* `qualifyBody` - the body of a method with its references qualified
-/

namespace SuiteMigration

/-- The state of qualifying references. -/
structure QualifierState where
  /-- The names bound in the open scopes, the innermost first. -/
  frames : List (List String)
  insideClosure : Bool := false
  changes : Nat := 0
  deriving DecidableEq, Repr

namespace QualifierState

/-- A scope opens that binds the given names. -/
def enter (names : List String) (state : QualifierState) : QualifierState :=
  { state with frames := names :: state.frames }

/-- The innermost scope closes. -/
def leave (state : QualifierState) : QualifierState :=
  { state with frames := state.frames.tail }

/-- The innermost scope binds further names. -/
def bind (names : List String) (state : QualifierState) : QualifierState :=
  match state.frames with
  | [] => state
  | frame :: outer => { state with frames := (frame ++ names) :: outer }

/-- Some open scope binds the name. -/
def binds (state : QualifierState) (name : String) : Bool :=
  state.frames.any (·.contains name)

/-- A reference by the given name is to be qualified. -/
def qualifies (table : SymbolTable) (state : QualifierState) (name : String) : Bool :=
  state.insideClosure && table.contains name && !state.binds name

end QualifierState

/-- The reference with `self` in front, which takes over its leading trivia. -/
def qualified (token : Token) : Expr :=
  .member (some (.identifier ((Token.ofName "self").withLeading token.leading)))
    (.ofPunctuation '.') (token.withLeading "")

/-- References to the symbols of a suite are qualified. -/
def qualifier (table : SymbolTable) : Transformer QualifierState where
  expr expr parts :=
    match expr with
    | .identifier token => do
      if (← get).qualifies table token.text then
        modify fun state => { state with changes := state.changes + 1 }
        return qualified token
      else parts
    | _ => parts
  closure closure parts := do
    let outside := (← get).insideClosure
    modify fun state =>
      { (state.enter closure.parameterNames) with insideClosure := true }
    let closure ← parts
    modify fun state => { state.leave with insideClosure := outside }
    return closure
  decl decl parts :=
    match decl with
    | .variable _ bindings => do
      let decl ← parts
      modify (·.bind (bindingNames bindings))
      return decl
    -- A local function is named in its scope, and its body is left alone.
    | .function header _ => do
      modify (·.bind [header.name.text])
      return decl
    | _ => pure decl
  enter := .enter
  leave := .leave
  bind := .bind

/-- The body of a method with its references qualified, and the number of changes. -/
def qualifyBody (table : SymbolTable) (header : FunctionHeader) (body : Option CodeBlock) :
    Option CodeBlock × Nat :=
  let (body, state) := (transformBlock? (qualifier table) body).run
    { frames := [header.parameters.names] }
  (body, state.changes)

end SuiteMigration
