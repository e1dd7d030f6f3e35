/-!
# Strategies

What a converted suite is: a class as before, or a structure.

## Main definitions

* `Strategy` - the two strategies
* `Strategy.name` - the name of a strategy
* `Strategy.ofName?` - the strategy with a given name
* `Strategy.unknownMessage` - what is said of a name that no strategy has
-/

namespace SuiteMigration

/-- What a converted suite is. -/
inductive Strategy
  /-- A class, in which references inside closures are qualified. -/
  | reference
  /-- A structure, in which methods that write stored properties are marked. -/
  | value
  deriving DecidableEq, Repr

namespace Strategy

/-- The name of a strategy. -/
def name : Strategy → String
  | .reference => "class"
  | .value => "struct"

/-- The strategy with the given name, or with its longer name. -/
def ofName? : String → Option Strategy
  | "class" | "reference" => some .reference
  | "struct" | "value" => some .value
  | _ => none

/-- What is said of a name that no strategy has. -/
def unknownMessage (name : String) : String :=
  "unknown strategy `" ++ name ++ "` (expected `class` or `struct`)"

theorem ofName?_name (strategy : Strategy) : ofName? strategy.name = some strategy := by
  cases strategy <;> rfl

end Strategy

end SuiteMigration
