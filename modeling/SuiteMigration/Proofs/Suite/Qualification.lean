import Mathlib.Tactic.Common
import SuiteMigration.Proofs.Tree.Rebuilding
import SuiteMigration.Proofs.Tree.Spots
import SuiteMigration.Suite.Qualification

/-!
# What qualifying references does to a body

The qualifier puts `self.` in front of names inside the closures of a body, counts them, and touches
no other token. A second time it finds nothing to do: a name behind `self.` is no reference, `self`
is no symbol of a suite, and the names that are bound stand where they stood.

The qualifier opens and closes scopes throughout the tree, but it never looks at the count, and it
leaves every node with the closures open that were open before. This is shown of each way in which
nodes are put together, and the recursion follows.

## Main definitions

* `Inserted` - tokens with `self.` in front of some names
* `Reading`, `Reading.Qualifies` - how nodes of one kind are qualified, and the law of it
* `Reading.pair`, `Reading.before`, `Reading.within`, ... - the ways of putting nodes together

## Main results

* `Reading.Qualifies.pair`, `Reading.Qualifies.within`, ... - the law of nodes that are put together
* `qualifies_expr`, `qualifies_statements`, `qualifies_block?` - the law of the recursion
* `qualifyBody_inserts` - a function with its references qualified
-/

namespace SuiteMigration

variable {α β : Type}

/-! ### Insertions -/

/-- The tokens are those of the places, in the same order, except that so many of the names inside
closures have `self.` in front, which takes over their leading trivia. -/
inductive Inserted : List Spot → List Token → Nat → Prop
  | nil : Inserted [] [] 0
  | keep {spots : List Spot} {tokens : List Token} {count : Nat} (spot : Spot)
      (later : Inserted spots tokens count) :
    Inserted (spot :: spots) (spot.token :: tokens) count
  | qualify {spots : List Spot} {tokens : List Token} {count : Nat} (token : Token)
      (later : Inserted spots tokens count) :
    Inserted (.reference token :: spots)
      ((Token.ofName "self").withLeading token.leading :: .ofPunctuation '.' ::
        token.withLeading "" :: tokens) (count + 1)

namespace Inserted

variable {spots spots' : List Spot} {tokens tokens' : List Token} {count count' : Nat}

/-- Insertions into two parts in a row add up. -/
theorem append (first : Inserted spots tokens count) (second : Inserted spots' tokens' count') :
    Inserted (spots ++ spots') (tokens ++ tokens') (count + count') := by
  induction first with
  | nil => simpa using second
  | keep spot _ ih => exact .keep spot ih
  | qualify token _ ih =>
    rw [Nat.add_right_comm]
    exact .qualify token ih

/-- Nothing has to be inserted. -/
theorem none (spots : List Spot) : Inserted spots (spots.map Spot.token) 0 := by
  induction spots with
  | nil => exact .nil
  | cons spot later ih => exact .keep spot ih

theorem others (tokens : List Token) : Inserted (others tokens) tokens 0 := by
  simpa using none (SuiteMigration.others tokens)

end Inserted

/-! ### The law of the qualifier -/

/-- The state with another count. -/
def QualifierState.withChanges (state : QualifierState) (changes : Nat) : QualifierState :=
  { state with changes }

/-- How nodes of one kind are read and qualified. -/
structure Reading (α : Type) where
  /-- The tokens in their places, given whether the node stands inside a closure. -/
  spots : Bool → α → List Spot
  tokens : α → List Token
  /-- The node with its references qualified. -/
  run : α → StateM QualifierState α

/-- What may come of qualifying a node. The node inside the same closures has only `self.` inserted,
and the count tells how often. Qualified again from the same scopes, it stays as it is, and the same
scopes are left behind. -/
structure Reading.Outcome (reading : Reading α) (node : α) (state : QualifierState)
    (result : α × QualifierState) : Prop where
  inside : result.2.insideClosure = state.insideClosure
  inserts : ∃ count, result.2.changes = state.changes + count ∧
    Inserted (reading.spots state.insideClosure node) (reading.tokens result.1) count
  again : ∀ changes, reading.run result.1 (state.withChanges changes) =
    (result.1, result.2.withChanges changes)

/-- The places of a node hold its tokens, and only `self.` is inserted, and only once. -/
structure Reading.Qualifies (reading : Reading α) (node : α) : Prop where
  tokens_spots : ∀ inside, (reading.spots inside node).map Spot.token = reading.tokens node
  outcome : ∀ state, reading.Outcome node state (reading.run node state)

/-! ### Putting readings together -/

namespace Reading

/-- Tokens that are left alone. -/
def still (tokens : List Token) : Reading Unit where
  spots _ _ := others tokens
  tokens _ := tokens
  run := pure

/-- Two nodes in a row. -/
def pair (first : Reading α) (second : Reading β) : Reading (α × β) where
  spots inside parts := first.spots inside parts.1 ++ second.spots inside parts.2
  tokens parts := first.tokens parts.1 ++ second.tokens parts.2
  run parts := do
    let one ← first.run parts.1
    let two ← second.run parts.2
    return (one, two)

/-- Nodes with other tokens before them. -/
def before (tokens : List Token) (reading : Reading α) : Reading α where
  spots inside node := others tokens ++ reading.spots inside node
  tokens node := tokens ++ reading.tokens node
  run := reading.run

/-- Nodes with other tokens behind them. -/
def behind (tokens : List Token) (reading : Reading α) : Reading α where
  spots inside node := reading.spots inside node ++ others tokens
  tokens node := reading.tokens node ++ tokens
  run := reading.run

/-- Nodes in a scope of their own. The scope closes with a look at whether a closure was open. -/
def within (inner : Bool → Bool) (opens : QualifierState → QualifierState)
    (closes : Bool → QualifierState → QualifierState) (reading : Reading α) : Reading α where
  spots inside node := reading.spots (inner inside) node
  tokens := reading.tokens
  run node := do
    let outside := (← get).insideClosure
    modify opens
    let node ← reading.run node
    modify (closes outside)
    return node

/-- Nodes that bind names in the scope around them. -/
def naming (names : α → List String) (reading : Reading α) : Reading α where
  spots := reading.spots
  tokens := reading.tokens
  run node := do
    let new ← reading.run node
    modify (·.bind (names node))
    return new

/-- The function makes nodes of their parts. -/
structure Makes (parts : Reading α) (reading : Reading β) (make : α → β) : Prop where
  spots_eq : (fun inside node => reading.spots inside (make node)) = parts.spots
  tokens_eq : (fun node => reading.tokens (make node)) = parts.tokens
  run_eq : (fun node => reading.run (make node)) = fun node => make <$> parts.run node

end Reading

/-- How a scope opens and closes. Neither looks at the count, and a closed scope leaves open the
closures that were open before it. -/
structure Bracket (inner : Bool → Bool) (opens : QualifierState → QualifierState)
    (closes : Bool → QualifierState → QualifierState) : Prop where
  inside_opens : ∀ state, (opens state).insideClosure = inner state.insideClosure
  inside_closes : ∀ outside state, state.insideClosure = inner outside →
    (closes outside state).insideClosure = outside
  opens_withChanges : ∀ state changes,
    opens (state.withChanges changes) = (opens state).withChanges changes
  closes_withChanges : ∀ outside state changes,
    closes outside (state.withChanges changes) = (closes outside state).withChanges changes

namespace Bracket

/-- A scope that binds the given names. -/
theorem scope (names : List String) :
    Bracket id (QualifierState.enter names) fun _ => QualifierState.leave :=
  ⟨fun _ => rfl, fun _ _ same => same, fun _ _ => rfl, fun _ _ _ => rfl⟩

/-- The scope of a closure that binds the given names. -/
theorem closure (names : List String) :
    Bracket (fun _ => true) (fun state => { state.enter names with insideClosure := true })
      fun outside state => { state.leave with insideClosure := outside } :=
  ⟨fun _ => rfl, fun _ _ _ => rfl, fun _ _ => rfl, fun _ _ _ => rfl⟩

end Bracket

/-- Binding names changes the frames only, and does not look at the count. -/
theorem QualifierState.bind_eq (names : List String) (state : QualifierState) :
    ∃ frames, state.bind names = { state with frames } ∧ ∀ changes,
      (state.withChanges changes).bind names = { state with frames, changes } := by
  obtain ⟨_ | ⟨frame, outer⟩, inside, changes⟩ := state
  · exact ⟨[], rfl, fun _ => rfl⟩
  · exact ⟨_, rfl, fun _ => rfl⟩

/-- A change of the state that does not look at the count keeps the count. -/
theorem QualifierState.changes_eq {change : QualifierState → QualifierState}
    (blind : ∀ state changes,
      change (state.withChanges changes) = (change state).withChanges changes)
    (state : QualifierState) : (change state).changes = state.changes :=
  (congrArg QualifierState.changes (blind state state.changes) :)

namespace Reading

variable {reading : Reading α} {second : Reading β} {node : α} {other : β}

/-- A pair is run part by part. -/
theorem run_pair (node : α × β) (state : QualifierState) :
    (reading.pair second).run node state =
      (((reading.run node.1 state).1, (second.run node.2 (reading.run node.1 state).2).1),
        (second.run node.2 (reading.run node.1 state).2).2) :=
  rfl

theorem run_within (inner : Bool → Bool) (opens : QualifierState → QualifierState)
    (closes : Bool → QualifierState → QualifierState) (node : α) (state : QualifierState) :
    (reading.within inner opens closes).run node state =
      ((reading.run node (opens state)).1,
        closes state.insideClosure (reading.run node (opens state)).2) :=
  rfl

theorem run_naming (names : α → List String) (node : α) (state : QualifierState) :
    (reading.naming names).run node state =
      ((reading.run node state).1, (reading.run node state).2.bind (names node)) :=
  rfl

namespace Qualifies

theorem still (tokens : List Token) : (Reading.still tokens).Qualifies () where
  tokens_spots _ := map_token_others _
  outcome _ := ⟨rfl, ⟨0, rfl, .others _⟩, fun _ => rfl⟩

theorem pair (one : reading.Qualifies node) (two : second.Qualifies other) :
    (reading.pair second).Qualifies (node, other) where
  tokens_spots inside := by
    rw [Reading.pair, List.map_append, one.tokens_spots, two.tokens_spots]
  outcome state := by
    obtain ⟨insideOne, ⟨countOne, countsOne, insertsOne⟩, againOne⟩ := one.outcome state
    obtain ⟨insideTwo, ⟨countTwo, countsTwo, insertsTwo⟩, againTwo⟩ :=
      two.outcome (reading.run node state).2
    refine ⟨insideTwo.trans insideOne, ⟨countOne + countTwo, ?_, ?_⟩, fun changes => ?_⟩
    · rw [run_pair, countsTwo, countsOne, Nat.add_assoc]
    -- The first node leaves open the closures that were open, so the second stands inside them too.
    · rw [insideOne] at insertsTwo
      exact insertsOne.append insertsTwo
    · simp only [run_pair, againOne, againTwo]

theorem before (tokens : List Token) (qualifies : reading.Qualifies node) :
    (reading.before tokens).Qualifies node where
  tokens_spots inside := by
    rw [Reading.before, List.map_append, qualifies.tokens_spots, map_token_others]
  outcome state := by
    obtain ⟨inside, ⟨count, counts, inserts⟩, again⟩ := qualifies.outcome state
    refine ⟨inside, ⟨count, counts, ?_⟩, again⟩
    rw [← Nat.zero_add count]
    exact (Inserted.others tokens).append inserts

theorem behind (tokens : List Token) (qualifies : reading.Qualifies node) :
    (reading.behind tokens).Qualifies node where
  tokens_spots inside := by
    rw [Reading.behind, List.map_append, qualifies.tokens_spots, map_token_others]
  outcome state := by
    obtain ⟨inside, ⟨count, counts, inserts⟩, again⟩ := qualifies.outcome state
    exact ⟨inside, ⟨count, counts, inserts.append (.others tokens)⟩, again⟩

theorem within {inner : Bool → Bool} {opens : QualifierState → QualifierState}
    {closes : Bool → QualifierState → QualifierState} (bracket : Bracket inner opens closes)
    (qualifies : reading.Qualifies node) :
    (reading.within inner opens closes).Qualifies node where
  tokens_spots inside := qualifies.tokens_spots (inner inside)
  outcome state := by
    obtain ⟨inside, ⟨count, counts, inserts⟩, again⟩ := qualifies.outcome (opens state)
    rw [bracket.inside_opens] at inside inserts
    refine ⟨bracket.inside_closes _ _ inside, ⟨count, ?_, inserts⟩, fun changes => ?_⟩
    · rw [run_within, QualifierState.changes_eq (bracket.closes_withChanges _), counts,
        QualifierState.changes_eq bracket.opens_withChanges]
    · simp only [run_within, bracket.opens_withChanges, again, bracket.closes_withChanges]
      rfl

theorem naming (names : α → List String) (qualifies : reading.Qualifies node)
    (keeps : ∀ state, names (reading.run node state).1 = names node) :
    (reading.naming names).Qualifies node where
  tokens_spots := qualifies.tokens_spots
  outcome state := by
    obtain ⟨inside, ⟨count, counts, inserts⟩, again⟩ := qualifies.outcome state
    obtain ⟨frames, bound, rebound⟩ :=
      QualifierState.bind_eq (names node) (reading.run node state).2
    rw [run_naming, bound]
    refine ⟨inside, ⟨count, counts, inserts⟩, fun changes => ?_⟩
    -- The new node has the same names, so the second run binds what the first one bound.
    rw [run_naming, again, keeps, rebound]
    rfl

/-- A node is qualified if the tuple of its parts is. -/
theorem make {parts : Reading β} {node : β} {whole : α} (qualifies : parts.Qualifies node)
    (make : β → α) (makes : parts.Makes reading make) (isWhole : make node = whole) :
    reading.Qualifies whole := by
  have spots_make : ∀ inside node, reading.spots inside (make node) = parts.spots inside node :=
    fun inside => congrFun (congrFun makes.spots_eq inside)
  have tokens_make : ∀ node, reading.tokens (make node) = parts.tokens node :=
    congrFun makes.tokens_eq
  have run_make : ∀ node state, reading.run (make node) state =
      (make (parts.run node state).1, (parts.run node state).2) :=
    fun node => congrFun (congrFun makes.run_eq node)
  subst isWhole
  refine ⟨fun inside => ?_, fun state => ?_⟩
  · rw [spots_make, tokens_make, qualifies.tokens_spots]
  · obtain ⟨inside, ⟨count, counts, inserts⟩, again⟩ := qualifies.outcome state
    rw [run_make]
    refine ⟨inside, ⟨count, counts, ?_⟩, fun changes => ?_⟩
    · rw [spots_make, tokens_make]
      exact inserts
    · rw [run_make, again]

end Qualifies

end Reading

/-! ### The recursion -/

section Recursion

variable {table : SymbolTable}

/-- A name is qualified and counted when the state says so, and otherwise left alone. -/
theorem qualify_identifier (token : Token) (state : QualifierState) :
    (Expr.identifier token).transform (qualifier table) state =
      if state.qualifies table token.text then
        (qualified token, state.withChanges (state.changes + 1))
      else (.identifier token, state) := by
  rw [Expr.transform.eq_def]
  show (if _ then _ else _ : StateM QualifierState Expr) state = _
  split <;> rfl

/-- A reference with `self` in front is not qualified again. -/
theorem qualify_qualified (noSelf : table.contains "self" = false) (token : Token)
    (state : QualifierState) :
    (qualified token).transform (qualifier table) state = (qualified token, state) := by
  have untouched : state.qualifies table "self" = false := by
    simp [QualifierState.qualifies, noSelf]
  let base := (Token.ofName "self").withLeading token.leading
  have base_eq : (Expr.identifier base).transform (qualifier table) state =
      (.identifier base, state) := by
    rw [qualify_identifier, if_neg]
    exact Bool.eq_false_iff.1 untouched
  show (Expr.member (some ((Expr.identifier base).transform (qualifier table) state).1) _ _,
    ((Expr.identifier base).transform (qualifier table) state).2) = _
  rw [base_eq]
  rfl

open Reading (Qualifies)

/-- A name meets the account of the qualifier. -/
theorem qualifies_identifier (noSelf : table.contains "self" = false) (token : Token) :
    Qualifies ⟨Expr.spots, Expr.tokens, Expr.transform (qualifier table)⟩ (.identifier token) where
  tokens_spots inside := by
    simp [Expr.spots, Expr.tokens]
  outcome state := by
    show Reading.Outcome _ _ state ((Expr.identifier token).transform (qualifier table) state)
    rw [qualify_identifier]
    split
    case isTrue qualifies =>
      have inside : state.insideClosure = true := by
        simp_all [QualifierState.qualifies]
      refine ⟨rfl, ⟨1, rfl, ?_⟩, fun changes => qualify_qualified noSelf token _⟩
      show Inserted [.ofName state.insideClosure token] _ 1
      rw [inside]
      exact .qualify token .nil
    case isFalse stays =>
      refine ⟨rfl, ⟨0, rfl, ?_⟩, fun changes => ?_⟩
      · have kept := Inserted.keep (.ofName state.insideClosure token) .nil
        rwa [Spot.token_ofName] at kept
      · exact (qualify_identifier token _).trans (if_neg stays)

-- The induction follows the transformer. Every node is made of its parts, and the tokens around
-- them are left alone.
mutual

/-- Every expression meets the account of the qualifier. -/
theorem qualifies_expr (noSelf : table.contains "self" = false) (expr : Expr) :
    Qualifies ⟨Expr.spots, Expr.tokens, Expr.transform (qualifier table)⟩ expr := by
  -- A node is made of its parts, one after the other. Only names insert anything.
  match expr with
  | .identifier token => exact qualifies_identifier noSelf token
  | .literal token =>
    exact (Qualifies.still [token]).make (fun _ => .literal token) ⟨rfl, rfl, rfl⟩ rfl
  | .raw tokens =>
    exact (Qualifies.still tokens).make (fun _ => .raw tokens) ⟨rfl, rfl, rfl⟩ rfl
  | .member base period name =>
    exact ((qualifies_expr? noSelf base).behind [period, name]).make
      (fun base => .member base period name) ⟨rfl, rfl, rfl⟩ rfl
  | .call callee arguments closure =>
    exact (((qualifies_expr noSelf callee).pair (qualifies_callArguments noSelf arguments)).pair
      (qualifies_closure? noSelf closure)).make
        (fun ((callee, arguments), closure) => .call callee arguments closure) ⟨rfl, rfl, rfl⟩ rfl
  | .index base arguments =>
    exact ((qualifies_expr noSelf base).pair (qualifies_argumentList noSelf arguments)).make
      (fun (base, arguments) => .index base arguments) ⟨rfl, rfl, rfl⟩ rfl
  | .sequence operands operators =>
    exact (qualifies_operands noSelf operands operators).make (.sequence · operators)
      ⟨rfl, rfl, rfl⟩ rfl
  | .prefixed operator operand =>
    exact ((qualifies_expr noSelf operand).before [operator]).make (.prefixed operator)
      ⟨rfl, rfl, rfl⟩ rfl
  | .suffixed operand operator =>
    exact ((qualifies_expr noSelf operand).behind [operator]).make (.suffixed · operator)
      ⟨rfl, rfl, rfl⟩ rfl
  | .trying keyword mark operand =>
    exact ((qualifies_expr noSelf operand).before (keyword :: Node.tokens mark)).make
      (.trying keyword mark) ⟨rfl, rfl, rfl⟩ rfl
  | .awaiting keyword operand =>
    exact ((qualifies_expr noSelf operand).before [keyword]).make (.awaiting keyword)
      ⟨rfl, rfl, rfl⟩ rfl
  | .tuple elements =>
    exact (qualifies_argumentList noSelf elements).make .tuple ⟨rfl, rfl, rfl⟩ rfl
  | .collection left elements right =>
    exact (((qualifies_elements noSelf elements).before [left]).behind [right]).make
      (.collection left · right) ⟨rfl, rfl, rfl⟩ rfl
  | .closure closure => exact (qualifies_closure noSelf closure).make .closure ⟨rfl, rfl, rfl⟩ rfl
  | .specialized base arguments =>
    exact ((qualifies_expr noSelf base).behind arguments).make (.specialized · arguments)
      ⟨rfl, rfl, rfl⟩ rfl

theorem qualifies_expr? (noSelf : table.contains "self" = false) (expr : Option Expr) :
    Qualifies ⟨spotsOfExpr?, tokensOfExpr?, transformExpr? (qualifier table)⟩ expr := by
  match expr with
  | none => exact (Qualifies.still []).make (fun _ => none) ⟨rfl, rfl, rfl⟩ rfl
  | some expr => exact (qualifies_expr noSelf expr).make some ⟨rfl, rfl, rfl⟩ rfl

theorem qualifies_argumentList (noSelf : table.contains "self" = false) (list : ArgumentList) :
    Qualifies ⟨ArgumentList.spots, ArgumentList.tokens, ArgumentList.transform (qualifier table)⟩
      list := by
  match list with
  | ⟨opener, arguments, closer⟩ =>
    exact (((qualifies_arguments noSelf arguments).before [opener]).behind [closer]).make
      (⟨opener, ·, closer⟩) ⟨rfl, rfl, rfl⟩ rfl

theorem qualifies_callArguments (noSelf : table.contains "self" = false) (list : CallArguments) :
    Qualifies ⟨CallArguments.spots, CallArguments.tokens, CallArguments.transform (qualifier table)⟩
      list := by
  match list with
  | ⟨left, arguments, right⟩ =>
    exact (((qualifies_arguments noSelf arguments).before (Node.tokens left)).behind
      (Node.tokens right)).make (⟨left, ·, right⟩) ⟨rfl, rfl, rfl⟩ rfl

theorem qualifies_arguments (noSelf : table.contains "self" = false) (arguments : List Argument) :
    Qualifies ⟨spotsOfArguments, tokensOfArguments, transformArguments (qualifier table)⟩
      arguments := by
  match arguments with
  | [] => exact (Qualifies.still []).make (fun _ => []) ⟨rfl, rfl, rfl⟩ rfl
  | ⟨label, value, comma⟩ :: later =>
    have first := ((qualifies_expr noSelf value).before (Node.tokens label)).behind
      (Node.tokens comma)
    exact (first.pair (qualifies_arguments noSelf later)).make
      (fun (value, later) => ⟨label, value, comma⟩ :: later) ⟨rfl, rfl, rfl⟩ rfl

theorem qualifies_operands (noSelf : table.contains "self" = false) (operands : List Expr)
    (operators : List Token) :
    Qualifies ⟨(spotsOfOperands · · operators), (tokensOfOperands · operators),
      transformOperands (qualifier table)⟩ operands := by
  match operands with
  | [] => exact (Qualifies.still []).make (fun _ => []) ⟨rfl, rfl, rfl⟩ rfl
  | operand :: later =>
    have first := (qualifies_expr noSelf operand).behind (Node.tokens operators.head?)
    exact (first.pair (qualifies_operands noSelf later operators.tail)).make
      (fun (operand, later) => operand :: later) ⟨rfl, rfl, rfl⟩ rfl

theorem qualifies_elements (noSelf : table.contains "self" = false)
    (elements : List CollectionElement) :
    Qualifies ⟨spotsOfElements, tokensOfElements, transformElements (qualifier table)⟩
      elements := by
  match elements with
  | [] => exact (Qualifies.still []).make (fun _ => []) ⟨rfl, rfl, rfl⟩ rfl
  | .value value comma :: later =>
    have first := (qualifies_expr noSelf value).behind (Node.tokens comma)
    exact (first.pair (qualifies_elements noSelf later)).make
      (fun (value, later) => .value value comma :: later) ⟨rfl, rfl, rfl⟩ rfl
  | .entry key colon value comma :: later =>
    have first := ((qualifies_expr noSelf key).pair
      ((qualifies_expr noSelf value).before [colon])).behind (Node.tokens comma)
    exact (first.pair (qualifies_elements noSelf later)).make
      (fun ((key, value), later) => .entry key colon value comma :: later) ⟨rfl, rfl, rfl⟩ rfl

theorem qualifies_closure (noSelf : table.contains "self" = false) (closure : Closure) :
    Qualifies ⟨fun _ => Closure.spots, Closure.tokens, Closure.transform (qualifier table)⟩
      closure := by
  match closure with
  | ⟨left, signature, statements, right⟩ =>
    have scope := (qualifies_statements noSelf statements).within
      (.closure (Closure.parameterNames ⟨left, signature, statements, right⟩))
    exact ((scope.before (left :: Node.tokens signature)).behind [right]).make
      (⟨left, signature, ·, right⟩) ⟨rfl, rfl, rfl⟩ rfl

theorem qualifies_closure? (noSelf : table.contains "self" = false) (closure : Option Closure) :
    Qualifies ⟨fun _ => spotsOfClosure?, tokensOfClosure?,
      transformClosure? (qualifier table)⟩ closure := by
  match closure with
  | none => exact (Qualifies.still []).make (fun _ => none) ⟨rfl, rfl, rfl⟩ rfl
  | some closure => exact (qualifies_closure noSelf closure).make some ⟨rfl, rfl, rfl⟩ rfl

theorem qualifies_statement (noSelf : table.contains "self" = false) (statement : Statement) :
    Qualifies ⟨Statement.spots, Statement.tokens, Statement.transform (qualifier table)⟩
      statement := by
  match statement with
  | ⟨item, semicolon⟩ =>
    exact ((qualifies_item noSelf item).behind (Node.tokens semicolon)).make (⟨·, semicolon⟩)
      ⟨rfl, rfl, rfl⟩ rfl

/-- Every statement list meets the account of the qualifier. -/
theorem qualifies_statements (noSelf : table.contains "self" = false)
    (statements : List Statement) :
    Qualifies ⟨spotsOfStatements, tokensOfStatements, transformStatements (qualifier table)⟩
      statements := by
  match statements with
  | [] => exact (Qualifies.still []).make (fun _ => []) ⟨rfl, rfl, rfl⟩ rfl
  | statement :: later =>
    exact ((qualifies_statement noSelf statement).pair (qualifies_statements noSelf later)).make
      (fun (statement, later) => statement :: later) ⟨rfl, rfl, rfl⟩ rfl

theorem qualifies_item (noSelf : table.contains "self" = false) (item : Item) :
    Qualifies ⟨Item.spots, Item.tokens, Item.transform (qualifier table)⟩ item := by
  match item with
  | .expr expr => exact (qualifies_expr noSelf expr).make .expr ⟨rfl, rfl, rfl⟩ rfl
  | .decl decl => exact (qualifies_decl noSelf decl).make .decl ⟨rfl, rfl, rfl⟩ rfl
  | .returning keyword value =>
    exact ((qualifies_expr? noSelf value).before [keyword]).make (.returning keyword)
      ⟨rfl, rfl, rfl⟩ rfl
  | .throwing keyword value =>
    exact ((qualifies_expr noSelf value).before [keyword]).make (.throwing keyword)
      ⟨rfl, rfl, rfl⟩ rfl
  | .conditional statement =>
    exact (qualifies_ifStatement noSelf statement).make .conditional ⟨rfl, rfl, rfl⟩ rfl
  | .guarding keyword conditions elseKeyword body =>
    exact (((qualifies_conditions noSelf conditions).before [keyword]).pair
      ((qualifies_block noSelf body).before [elseKeyword])).make
        (fun (conditions, body) => .guarding keyword conditions elseKeyword body)
        ⟨rfl, rfl, rfl⟩ rfl
  | .forIn keyword modifiers pattern type inKeyword sequence filter body =>
    -- The sequence is looked at before the loop binds its names.
    have head := ((qualifies_expr noSelf sequence).before [inKeyword]).before
      (keyword :: modifiers ++ Node.tokens pattern ++ Node.tokens type)
    have loop := ((qualifies_clause? noSelf filter).pair (qualifies_block noSelf body)).within
      (.scope (loopNames modifiers pattern))
    exact (head.pair loop).make (fun (sequence, filter, body) =>
        .forIn keyword modifiers pattern type inKeyword sequence filter body)
      ⟨funext fun _ => funext fun _ => List.append_assoc .., funext fun _ =>
        List.append_assoc .., rfl⟩ rfl
  | .whileLoop keyword conditions body =>
    have scope := (((qualifies_conditions noSelf conditions).before [keyword]).pair
      (qualifies_block noSelf body)).within (.scope [])
    exact scope.make (fun (conditions, body) => .whileLoop keyword conditions body)
      ⟨rfl, rfl, rfl⟩ rfl
  | .repeatLoop keyword body whileKeyword condition =>
    exact (((qualifies_block noSelf body).before [keyword]).pair
      ((qualifies_expr noSelf condition).before [whileKeyword])).make
        (fun (body, condition) => .repeatLoop keyword body whileKeyword condition)
        ⟨rfl, rfl, rfl⟩ rfl
  | .doCatch keyword throwsClause body catches =>
    exact (((qualifies_block noSelf body).before (keyword :: throwsClause)).pair
      (qualifies_catches noSelf catches)).make
        (fun (body, catches) => .doCatch keyword throwsClause body catches) ⟨rfl, rfl, rfl⟩ rfl
  | .switching keyword subject left cases right =>
    exact ((((qualifies_expr noSelf subject).before [keyword]).pair
      ((qualifies_cases noSelf cases).before [left])).behind [right]).make
        (fun (subject, cases) => .switching keyword subject left cases right)
        ⟨rfl, rfl, rfl⟩ rfl
  | .deferring keyword body =>
    exact ((qualifies_block noSelf body).before [keyword]).make (.deferring keyword)
      ⟨rfl, rfl, rfl⟩ rfl
  | .raw tokens => exact (Qualifies.still tokens).make (fun _ => .raw tokens) ⟨rfl, rfl, rfl⟩ rfl

theorem qualifies_block (noSelf : table.contains "self" = false) (block : CodeBlock) :
    Qualifies ⟨CodeBlock.spots, CodeBlock.tokens, CodeBlock.transform (qualifier table)⟩
      block := by
  match block with
  | ⟨left, statements, right⟩ =>
    have scope := (qualifies_statements noSelf statements).within (.scope [])
    exact ((scope.before [left]).behind [right]).make (⟨left, ·, right⟩) ⟨rfl, rfl, rfl⟩ rfl

theorem qualifies_block? (noSelf : table.contains "self" = false) (block : Option CodeBlock) :
    Qualifies ⟨spotsOfBlock?, tokensOfBlock?, transformBlock? (qualifier table)⟩ block := by
  match block with
  | none => exact (Qualifies.still []).make (fun _ => none) ⟨rfl, rfl, rfl⟩ rfl
  | some block => exact (qualifies_block noSelf block).make some ⟨rfl, rfl, rfl⟩ rfl

theorem qualifies_ifStatement (noSelf : table.contains "self" = false) (statement : IfStatement) :
    Qualifies ⟨IfStatement.spots, IfStatement.tokens, IfStatement.transform (qualifier table)⟩
      statement := by
  match statement with
  | ⟨keyword, conditions, body, alternative⟩ =>
    -- The alternative does not see what the conditions bind.
    have scope := (((qualifies_conditions noSelf conditions).before [keyword]).pair
      (qualifies_block noSelf body)).within (.scope [])
    exact (scope.pair (qualifies_elseClause noSelf alternative)).make
      (fun ((conditions, body), alternative) => ⟨keyword, conditions, body, alternative⟩)
      ⟨rfl, rfl, rfl⟩ rfl

theorem qualifies_elseClause (noSelf : table.contains "self" = false) (alternative : ElseClause) :
    Qualifies ⟨ElseClause.spots, ElseClause.tokens, ElseClause.transform (qualifier table)⟩
      alternative := by
  match alternative with
  | .absent => exact (Qualifies.still []).make (fun _ => .absent) ⟨rfl, rfl, rfl⟩ rfl
  | .block keyword body =>
    exact ((qualifies_block noSelf body).before [keyword]).make (.block keyword) ⟨rfl, rfl, rfl⟩ rfl
  | .chained keyword next =>
    exact ((qualifies_ifStatement noSelf next).before [keyword]).make (.chained keyword)
      ⟨rfl, rfl, rfl⟩ rfl

theorem qualifies_conditions (noSelf : table.contains "self" = false)
    (conditions : List Condition) :
    Qualifies ⟨spotsOfConditions, tokensOfConditions, transformConditions (qualifier table)⟩
      conditions := by
  match conditions with
  | [] => exact (Qualifies.still []).make (fun _ => []) ⟨rfl, rfl, rfl⟩ rfl
  | .expr expr comma :: later =>
    have first := (qualifies_expr noSelf expr).behind (Node.tokens comma)
    exact (first.pair (qualifies_conditions noSelf later)).make
      (fun (expr, later) => .expr expr comma :: later) ⟨rfl, rfl, rfl⟩ rfl
  | .binding specifier pattern type initializer comma :: later =>
    have bound := (qualifies_clause? noSelf initializer).naming (fun _ => pattern.names)
      fun _ => rfl
    have first := (bound.before (specifier :: Node.tokens pattern ++ Node.tokens type)).behind
      (Node.tokens comma)
    exact (first.pair (qualifies_conditions noSelf later)).make
      (fun (initializer, later) => .binding specifier pattern type initializer comma :: later)
      ⟨rfl, rfl, rfl⟩ rfl

theorem qualifies_clause (noSelf : table.contains "self" = false) (clause : Clause) :
    Qualifies ⟨Clause.spots, Clause.tokens, Clause.transform (qualifier table)⟩ clause := by
  match clause with
  | ⟨mark, value⟩ =>
    exact ((qualifies_expr noSelf value).before [mark]).make (⟨mark, ·⟩) ⟨rfl, rfl, rfl⟩ rfl

theorem qualifies_clause? (noSelf : table.contains "self" = false) (clause : Option Clause) :
    Qualifies ⟨spotsOfClause?, tokensOfClause?, transformClause? (qualifier table)⟩ clause := by
  match clause with
  | none => exact (Qualifies.still []).make (fun _ => none) ⟨rfl, rfl, rfl⟩ rfl
  | some clause => exact (qualifies_clause noSelf clause).make some ⟨rfl, rfl, rfl⟩ rfl

theorem qualifies_catches (noSelf : table.contains "self" = false) (catches : List CatchClause) :
    Qualifies ⟨spotsOfCatches, tokensOfCatches, transformCatches (qualifier table)⟩ catches := by
  match catches with
  | [] => exact (Qualifies.still []).make (fun _ => []) ⟨rfl, rfl, rfl⟩ rfl
  | ⟨keyword, pattern, body⟩ :: later =>
    have scope := (qualifies_block noSelf body).within (.scope (catchNames pattern))
    exact ((scope.before (keyword :: pattern)).pair (qualifies_catches noSelf later)).make
      (fun (body, later) => ⟨keyword, pattern, body⟩ :: later) ⟨rfl, rfl, rfl⟩ rfl

theorem qualifies_cases (noSelf : table.contains "self" = false) (cases : List SwitchCase) :
    Qualifies ⟨spotsOfCases, tokensOfCases, transformCases (qualifier table)⟩ cases := by
  match cases with
  | [] => exact (Qualifies.still []).make (fun _ => []) ⟨rfl, rfl, rfl⟩ rfl
  | ⟨label, statements⟩ :: later =>
    have first := (qualifies_statements noSelf statements).before label
    exact (first.pair (qualifies_cases noSelf later)).make
      (fun (statements, later) => ⟨label, statements⟩ :: later) ⟨rfl, rfl, rfl⟩ rfl

theorem qualifies_decl (noSelf : table.contains "self" = false) (decl : Decl) :
    Qualifies ⟨Decl.spots, Decl.tokens, Decl.transform (qualifier table)⟩ decl := by
  match decl with
  | .variable header bindings =>
    exact (((qualifies_bindings noSelf bindings).naming bindingNames
      (yields_bindingNames _ bindings)).before (Node.tokens header)).make (.variable header)
        ⟨rfl, rfl, rfl⟩ rfl
  | .function header body =>
    have bound := (Qualifies.still (Decl.function header body).tokens).naming
      (fun _ => [header.name.text]) fun _ => rfl
    exact bound.make (fun _ => .function header body) ⟨rfl, rfl, rfl⟩ rfl
  | .importing _ | .raw _ | .type _ _ | .initializer _ _ | .finalizer _ _ =>
    -- These are left alone, and so is the body of a function.
    exact (Qualifies.still (Decl.tokens _)).make (fun _ => _) ⟨rfl, rfl, rfl⟩ rfl

theorem qualifies_bindings (noSelf : table.contains "self" = false)
    (bindings : List PatternBinding) :
    Qualifies ⟨spotsOfBindings, tokensOfBindings, transformBindings (qualifier table)⟩
      bindings := by
  match bindings with
  | [] => exact (Qualifies.still []).make (fun _ => []) ⟨rfl, rfl, rfl⟩ rfl
  | ⟨pattern, type, initializer, accessor, comma⟩ :: later =>
    have first := ((qualifies_clause? noSelf initializer).before
      (Node.tokens pattern ++ Node.tokens type)).pair (qualifies_block? noSelf accessor)
    exact ((first.behind (Node.tokens comma)).pair (qualifies_bindings noSelf later)).make
      (fun ((initializer, accessor), later) =>
        ⟨pattern, type, initializer, accessor, comma⟩ :: later) ⟨rfl, rfl, rfl⟩ rfl

end

end Recursion

/-! ### Functions -/

/-- The references of a function are qualified by inserting `self.` in front of names that stand
inside closures of its body, as often as the count tells, and a second time nothing is inserted. -/
theorem qualifyBody_inserts {table : SymbolTable} (noSelf : table.contains "self" = false)
    (header : FunctionHeader) (body : Option CodeBlock) :
    let new := qualifyBody table header body
    (spotsOfFunction header body).map Spot.token = (Decl.function header body).tokens ∧
      Inserted (spotsOfFunction header body) (Decl.function header new.1).tokens new.2 ∧
      qualifyBody table header new.1 = (new.1, 0) := by
  intro new
  let start : QualifierState := { frames := [header.parameters.names] }
  have whole := (qualifies_block? noSelf body).before (Node.tokens header)
  obtain ⟨-, ⟨count, counts, inserts⟩, again⟩ := whole.outcome start
  have changes_eq : new.2 = count := counts.trans (Nat.zero_add count)
  refine ⟨whole.tokens_spots false, ?_, ?_⟩
  · rw [changes_eq]
    exact inserts
  · exact congrArg (fun result => (result.1, result.2.changes)) (again 0)

/-- A closure that reads the stored property `count` twice. -/
theorem qualifyBody_inserts_count :
    let table : SymbolTable := { stored := ["count"] }
    let header : FunctionHeader :=
      { attributes := [], modifiers := [], keyword := .ofName "func", name := .ofName "twice",
        genericParameters := [],
        parameters := ⟨.ofPunctuation '(', [], .ofPunctuation ')'⟩, signature := [] }
    let count : Expr := .identifier (.ofName "count")
    let sum : Expr := .sequence [count, count] [.ofOperator "+"]
    let closure : Closure :=
      ⟨.ofPunctuation '\x7b', none, [.ofItem (.expr sum)], .ofPunctuation '\x7d'⟩
    let body : CodeBlock :=
      ⟨.ofPunctuation '\x7b', [.ofItem (.expr (.closure closure))], .ofPunctuation '\x7d'⟩
    let new := qualifyBody table header (some body)
    table.contains "self" = false ∧ new.2 = 2 ∧
      Inserted (spotsOfFunction header (some body)) (Decl.function header new.1).tokens 2 ∧
      qualifyBody table header new.1 = (new.1, 0) := by
  intro table header count sum closure body new
  have noSelf : table.contains "self" = false := by decide
  obtain ⟨-, inserts, again⟩ := qualifyBody_inserts noSelf header (some body)
  have changes_eq : new.2 = 2 := by decide
  exact ⟨noSelf, changes_eq, changes_eq ▸ inserts, again⟩

end SuiteMigration
