import SuiteMigration.Tree.Transform

/-!
# Passes

A pass takes the tree of a file and gives it back with the number of its changes. It may also end
the migration of the file, after which the passes behind it do not run.

## Main definitions

* `Pass`, `Outcome`, `Flow` - a pass and what it answers
* `Outcome.ofTransformer` - the outcome of a transformer that counts its changes
-/

namespace SuiteMigration

/-- Whether the migration of a file goes on. -/
inductive Flow
  | proceed
  | halt
  deriving DecidableEq, Repr

/-- What a pass answers. -/
structure Outcome where
  file : SourceFile
  changes : Nat
  flow : Flow := .proceed

/-- A step of the migration. -/
structure Pass where
  name : String
  run : SourceFile → Outcome

/-- The outcome of a transformer whose state holds the number of its changes. -/
def Outcome.ofTransformer (t : Transformer σ) (initial : σ) (changes : σ → Nat)
    (file : SourceFile) : Outcome :=
  let (file, state) := (file.transform t).run initial
  { file, changes := changes state }

end SuiteMigration
