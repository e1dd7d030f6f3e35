import Mathlib.Tactic.Common
import SuiteMigration.Import
import SuiteMigration.Proofs.Tree.Visits

/-!
# Calls of legacy names

The passes look for calls of names of the legacy framework. Whether such a call is migrated depends
on little: the name, the parenthesis that closes the arguments, the labels of the arguments, whether
the values are there, the trivia at the end of the values, and whether a closure follows. Two calls
that agree on these are alike, and a property that cannot tell them apart is a property of calls.

## Main definitions

* `endTrivia` - the trivia after the last of some tokens
* `Expr.Alike` - two expressions that stand in for each other as parts of a call
* `Expr.CallsAlike` - the second expression is a call only if the first is one like it
* `CallProperty` - the properties of expressions that only depend on calls of legacy names
-/

namespace SuiteMigration

/-- The name begins like the names of the legacy framework. -/
def isLegacyName (name : String) : Bool :=
  legacyStart.toList.isPrefixOf name.toList

/-! ### The trivia at the end -/

/-- The trivia after the last token. -/
def endTrivia (tokens : List Token) : Option Trivia :=
  tokens.getLast?.map Token.trailing

@[simp] theorem endTrivia_nil : endTrivia [] = none := rfl

/-- The trivia at the end of two lists is that of the second, unless it is empty. -/
@[simp] theorem endTrivia_append (first second : List Token) :
    endTrivia (first ++ second) = (endTrivia second).or (endTrivia first) := by
  simp [endTrivia, List.getLast?_append, Option.map_or]

/-- A token ends the list only if none comes after it. -/
@[simp] theorem endTrivia_cons (token : Token) (tokens : List Token) :
    endTrivia (token :: tokens) = some ((endTrivia tokens).getD token.trailing) := by
  have split := endTrivia_append [token] tokens
  simpa [show endTrivia [token] = some token.trailing from rfl] using split

/-- The trailing trivia of a node is that of its last token. -/
theorem Node.trailing_eq [Node α] (node : α) :
    Node.trailing node = (endTrivia (Node.tokens node)).getD "" := by
  unfold Node.trailing endTrivia
  cases (Node.tokens node).getLast? <;> rfl

/-! ### Calls that are alike -/

/-- The new expression can stand where the old one stood without making a call of a legacy name
migratable that was not. -/
structure Expr.Alike (old new : Expr) : Prop where
  /-- A legacy name was there already. -/
  name : ∀ name, isLegacyName name → new.name? = some name → old.name? = some name
  isEmpty : new.isEmpty = old.isEmpty
  ending : endTrivia new.tokens = endTrivia old.tokens

/-- Arguments with and without a label, whose values are alike. -/
structure Argument.Alike (old new : Argument) : Prop where
  label : new.label.isNone = old.label.isNone
  value : old.value.Alike new.value

/-- Arguments of the same number, both closed or both not. -/
structure CallArguments.Alike (old new : CallArguments) : Prop where
  isClosed : new.isClosed = old.isClosed
  arguments : List.Forall₂ Argument.Alike old.arguments new.arguments

/-- The new expression is a closed call only if the old one is a call like it. -/
def Expr.CallsAlike (old : Expr) : Expr → Prop
  | .call newCallee newList newClosure =>
    newList.isClosed = true → ∃ callee list closure, old = .call callee list closure ∧
      callee.Alike newCallee ∧ list.Alike newList ∧ newClosure.isSome = closure.isSome
  | _ => True

theorem Expr.Alike.refl (expr : Expr) : expr.Alike expr :=
  ⟨fun _ _ named => named, rfl, rfl⟩

theorem Expr.Alike.trans {first second third : Expr} (left : first.Alike second)
    (right : second.Alike third) : first.Alike third where
  name name legacy named := left.name name legacy (right.name name legacy named)
  isEmpty := right.isEmpty.trans left.isEmpty
  ending := right.ending.trans left.ending

/-! ### Properties of calls -/

/-- The expression calls a legacy name, with both parentheses. -/
def Expr.isLegacyCall : Expr → Bool
  | .call callee list _ => list.isClosed && callee.name?.any isLegacyName
  | _ => false

/-- A call by another name is none of the old calls. -/
theorem Expr.isLegacyCall_eq_false {callee : Expr} {name : String}
    {arguments : CallArguments} {closure : Option Closure} (named : callee.name? = some name)
    (other : isLegacyName name = false) :
    (Expr.call callee arguments closure).isLegacyCall = false := by
  simp [Expr.isLegacyCall, named, other]

/-- A property that holds of everything but some calls of legacy names, and that calls that are
alike have in common. -/
structure CallProperty (p : Expr → Prop) : Prop where
  other : ∀ expr, expr.isLegacyCall = false → p expr
  alike : ∀ old new, old.CallsAlike new → p old → p new

/-- An expression that is no call of a legacy name adds nothing to its parts. -/
theorem CallProperty.throughout_of_parts {p : Expr → Prop} (law : CallProperty p) {expr : Expr}
    (other : expr.isLegacyCall = false) (parts : Throughout p (expr.walk .everywhere).tail) :
    Throughout p (expr.walk .everywhere) :=
  throughout_walk.2 ⟨law.other expr other, parts⟩

end SuiteMigration
