import Mathlib.Tactic.Common
import SuiteMigration.Proofs.Suite.Qualification
import SuiteMigration.Proofs.Tree.Scopes

/-!
# Names that are shadowed

The qualifier puts `self.` in front of a name only where nothing around the name binds it: no
parameter of the function or of a closure, no variable or local function declared earlier in a block
around the name, no pattern of a loop or condition, and no handler of errors. In the other direction
it is not too careful either. If no other token of the function is written like the name, then every
reference to a member that stands inside a closure by that name is qualified.

The frames of the qualifier follow the scopes of the tree from above. They hold what the scope
binds, and all they hold is written somewhere in the function. Both hold at the start, and both are
shown of each way in which nodes are put together, so the recursion follows.

What a closure captures and what the label of a case binds is in no frame. Such a name is qualified
like any other.

## Main definitions

* `Resolved` - tokens in which the free names of members inside closures have `self.` in front
* `QualifierState.Sees` - the frames follow a scope
* `Scoping`, `Scoping.Lawful` - how nodes of one kind are resolved, and the law of it

## Main results

* `Scoping.Lawful.pair`, `Scoping.Lawful.within`, ... - the law of nodes that are put together
* `lawful_expr`, `lawful_statements`, `lawful_block?` - the law of the recursion
* `qualifyBody_resolves` - a function with its references qualified
* `qualify_closure_captures`, `qualify_cases_labels` - captures and labels shadow nothing
* `qualifyBody_resolves_captured` - names that a capture list or a label binds
-/

namespace SuiteMigration

variable {α β : Type} {table : SymbolTable} {written known : List Token}

/-! ### Resolved names -/

/-- The tokens are those of the sites, in the same order, except that names have `self.` in front. A
name has it only if it is a member of the suite inside a closure and nothing in its scope binds it,
and a name that lacks it is outside of closures, or no member, or written among the given tokens. -/
inductive Resolved (table : SymbolTable) (written : List Token) : List Site → List Token → Prop
  | nil : Resolved table written [] []
  | other {sites : List Site} {tokens : List Token} (token : Token)
      (later : Resolved table written sites tokens) :
    Resolved table written (.other token :: sites) (token :: tokens)
  | kept {sites : List Site} {tokens : List Token} {scope : Scope} {token : Token}
      (reason : scope.insideClosure = false ∨ table.contains token.text = false ∨
        IsKnown written token.text)
      (later : Resolved table written sites tokens) :
    Resolved table written (.reference scope token :: sites) (token :: tokens)
  | qualified {sites : List Site} {tokens : List Token} {scope : Scope} {token : Token}
      (inside : scope.insideClosure = true) (symbol : table.contains token.text = true)
      (free : ¬ scope.Binds token.text) (later : Resolved table written sites tokens) :
    Resolved table written (.reference scope token :: sites)
      ((Token.ofName "self").withLeading token.leading :: .ofPunctuation '.' ::
        token.withLeading "" :: tokens)

namespace Resolved

variable {sites sites' : List Site} {tokens tokens' : List Token}

/-- Two parts resolved in a row are resolved together. -/
theorem append (first : Resolved table written sites tokens)
    (second : Resolved table written sites' tokens') :
    Resolved table written (sites ++ sites') (tokens ++ tokens') := by
  induction first with
  | nil => exact second
  | other token _ ih => exact .other token ih
  | kept reason _ ih => exact .kept reason ih
  | qualified inside symbol free _ ih => exact .qualified inside symbol free ih

theorem unscoped (tokens : List Token) :
    Resolved table written (unscoped tokens) tokens := by
  induction tokens with
  | nil => exact .nil
  | cons token later ih => exact .other token ih

end Resolved

/-! ### Frames that follow a scope -/

/-- An extended scope binds what the new binders bind and what it bound before. -/
theorem Scope.binds_extend_iff {scope : Scope} {binders : List Binder} {name : String} :
    (scope.extend binders).Binds name ↔
      (∃ binder ∈ binders, binder.Binds name) ∨ scope.Binds name := by
  simp [Scope.Binds, Scope.extend, or_and_right, exists_or]

namespace QualifierState

theorem binds_congr {state other : QualifierState} (same : state.frames = other.frames)
    (name : String) : state.binds name = other.binds name := by
  rw [binds, binds, same]

/-- Once a frame is open, binding names adds just these. -/
theorem binds_bind {state : QualifierState} (opened : state.frames ≠ []) (names : List String)
    (name : String) :
    (state.bind names).binds name = (names.contains name || state.binds name) := by
  obtain ⟨frame, outer, frames_eq⟩ := List.exists_cons_of_ne_nil opened
  simp only [binds, bind, frames_eq, List.any_cons, List.contains_eq_mem, List.mem_append]
  grind

theorem insideClosure_bind (names : List String) (state : QualifierState) :
    (state.bind names).insideClosure = state.insideClosure := by
  obtain ⟨_ | ⟨frame, outer⟩, inside, changes⟩ := state <;> rfl

theorem frames_bind_nil (state : QualifierState) : (state.bind []).frames = state.frames := by
  obtain ⟨_ | ⟨frame, outer⟩, inside, changes⟩ := state
  · rfl
  · simp [bind]

theorem frames_bind_bind {state middle : QualifierState} {names more : List String}
    (first : middle.frames = (state.bind names).frames) :
    (middle.bind more).frames = (state.bind (names ++ more)).frames := by
  obtain ⟨_ | ⟨frame, outer⟩, inside, changes⟩ := state
  · simp [bind, show middle.frames = [] from first]
  · simp [bind, show middle.frames = (frame ++ names) :: outer from first]

/-- The frames follow the scope. A closure is open if one is open in the scope, the frames hold what
the scope binds, and what they hold is written among the tokens. -/
structure Sees (state : QualifierState) (written : List Token) (scope : Scope) : Prop where
  inside : state.insideClosure = scope.insideClosure
  opened : state.frames ≠ []
  bound : ∀ name, scope.Binds name → state.binds name = true
  known : ∀ name, state.binds name = true → IsKnown written name

namespace Sees

variable {state after : QualifierState} {scope : Scope} {names : List String}
  {binders : List Binder}

/-- The frames follow every scope that binds less. -/
theorem of_extend (sees : state.Sees written (scope.extend binders)) : state.Sees written scope :=
  ⟨sees.inside, sees.opened,
    fun name binds => sees.bound name (Scope.binds_extend_iff.2 (.inr binds)), sees.known⟩

/-- Binding the names of binders keeps step with extending the scope by them. -/
theorem extend (sees : state.Sees written scope) (finds : Finds names binders written)
    (inside : after.insideClosure = state.insideClosure) (opened : after.frames ≠ [])
    (binds : ∀ name, after.binds name = (names.contains name || state.binds name)) :
    after.Sees written (scope.extend binders) where
  inside := inside.trans sees.inside
  opened := opened
  bound name bound := by
    rw [binds, Bool.or_eq_true, List.contains_iff_mem]
    rcases Scope.binds_extend_iff.1 bound with ⟨binder, isBinder, bound⟩ | bound
    · exact .inl (finds.bound binder isBinder name bound)
    · exact .inr (sees.bound name bound)
  known name found := by
    rw [binds, Bool.or_eq_true, List.contains_iff_mem] at found
    exact found.elim (finds.known name) (sees.known name)

/-- A scope opens. -/
theorem enter (sees : state.Sees written scope) (finds : Finds names binders written) :
    (state.enter names).Sees written (scope.extend binders) :=
  sees.extend finds rfl (List.cons_ne_nil _ _) fun _ => rfl

/-- Further names come into scope. -/
theorem bind (sees : state.Sees written scope) (finds : Finds names binders written)
    (inside : after.insideClosure = state.insideClosure)
    (frames : after.frames = (state.bind names).frames) :
    after.Sees written (scope.extend binders) := by
  have binds name : after.binds name = (names.contains name || state.binds name) :=
    (binds_congr frames name).trans (binds_bind sees.opened names name)
  refine sees.extend finds inside ?_ binds
  obtain ⟨frame, outer, frames_eq⟩ := List.exists_cons_of_ne_nil sees.opened
  rw [frames, QualifierState.bind, frames_eq]
  exact List.cons_ne_nil _ _

end Sees

end QualifierState

/-! ### The law of the qualifier -/

/-- How nodes of one kind are read and resolved. -/
structure Scoping (α : Type) where
  /-- The tokens with the scopes of names, given the scope around the node. -/
  sites : Scope → α → List Site
  /-- What the node binds for what comes after it. -/
  binders : α → List Binder
  tokens : α → List Token
  /-- The node with its references qualified. -/
  run : α → StateM QualifierState α

/-- What comes of qualifying a node. Its names are resolved, the innermost frame has got names that
the node binds, and everything else about the frames is as it was. -/
structure Scoping.Outcome (scoping : Scoping α) (table : SymbolTable) (written : List Token)
    (scope : Scope) (state : QualifierState) (node : α) (result : α × QualifierState) : Prop where
  inside : result.2.insideClosure = state.insideClosure
  found : ∃ names, Finds names (scoping.binders node) written ∧
    result.2.frames = (state.bind names).frames
  resolved : Resolved table written (scoping.sites scope node) (scoping.tokens result.1)

/-- The sites of a node hold its tokens, and qualifying resolves its names wherever the frames
follow the scope. The tokens that are known, and those of the node, are written in the function. -/
structure Scoping.Lawful (scoping : Scoping α) (table : SymbolTable) (written known : List Token)
    (node : α) : Prop where
  tokens_sites : ∀ scope, (scoping.sites scope node).map Site.token = scoping.tokens node
  outcome : ∀ scope state, known ⊆ written → otherTokens (scoping.sites scope node) ⊆ written →
    state.Sees written scope →
    scoping.Outcome table written scope state node (scoping.run node state)

/-! ### Putting nodes together -/

namespace Scoping

/-- Tokens that are left alone. -/
def still (tokens : List Token) : Scoping Unit where
  sites _ _ := unscoped tokens
  binders _ := []
  tokens _ := tokens
  run := pure

/-- Two nodes in a row, the second in the scope of what the first binds. -/
def pair (first : Scoping α) (second : Scoping β) : Scoping (α × β) where
  sites scope parts :=
    first.sites scope parts.1 ++ second.sites (scope.extend (first.binders parts.1)) parts.2
  binders parts := first.binders parts.1 ++ second.binders parts.2
  tokens parts := first.tokens parts.1 ++ second.tokens parts.2
  run parts := do
    let one ← first.run parts.1
    let two ← second.run parts.2
    return (one, two)

/-- Two nodes in a row, the second out of the scope of what the first binds. -/
def aside (first : Scoping α) (second : Scoping β) : Scoping (α × β) where
  sites scope parts := first.sites scope parts.1 ++ second.sites scope parts.2
  binders parts := first.binders parts.1
  tokens := (first.pair second).tokens
  run := (first.pair second).run

/-- Nodes with other tokens before them. -/
def before (tokens : List Token) (scoping : Scoping α) : Scoping α where
  sites scope node := unscoped tokens ++ scoping.sites scope node
  binders := scoping.binders
  tokens node := tokens ++ scoping.tokens node
  run := scoping.run

/-- Nodes with other tokens behind them. -/
def behind (tokens : List Token) (scoping : Scoping α) : Scoping α where
  sites scope node := scoping.sites scope node ++ unscoped tokens
  binders := scoping.binders
  tokens node := scoping.tokens node ++ tokens
  run := scoping.run

/-- Nodes in a scope of their own. The scope closes with a look at whether a closure was open. -/
def within (inner : Scope → Scope) (opens : QualifierState → QualifierState)
    (closes : Bool → QualifierState → QualifierState) (scoping : Scoping α) : Scoping α where
  sites scope node := scoping.sites (inner scope) node
  binders _ := []
  tokens := scoping.tokens
  run node := do
    let outside := (← get).insideClosure
    modify opens
    let node ← scoping.run node
    modify (closes outside)
    return node

/-- Nodes that bind names in the scope around them. -/
def naming (binders : α → List Binder) (names : α → List String) (scoping : Scoping α) :
    Scoping α where
  sites := scoping.sites
  binders node := scoping.binders node ++ binders node
  tokens := scoping.tokens
  run node := do
    let new ← scoping.run node
    modify (·.bind (names node))
    return new

/-- Nodes that bind nothing as far as others are concerned. -/
def closed (scoping : Scoping α) : Scoping α where
  sites := scoping.sites
  binders _ := []
  tokens := scoping.tokens
  run := scoping.run

/-- The function makes nodes of their parts. -/
structure Makes (parts : Scoping α) (scoping : Scoping β) (make : α → β) : Prop where
  sites_eq : (fun scope node => scoping.sites scope (make node)) = parts.sites
  binders_eq : (fun node => scoping.binders (make node)) = parts.binders
  tokens_eq : (fun node => scoping.tokens (make node)) = parts.tokens
  run_eq : (fun node => scoping.run (make node)) = fun node => make <$> parts.run node

/-- How a scope opens and closes, if certain tokens are known. While it is open the frames follow
the inner scope, and closing it leaves the frames that were there before. -/
structure Opens (known : List Token) (inner : Scope → Scope)
    (opens : QualifierState → QualifierState)
    (closes : Bool → QualifierState → QualifierState) : Prop where
  sees : ∀ {written scope state}, known ⊆ written → state.Sees written scope →
    (opens state).Sees written (inner scope)
  inside : ∀ {state after}, after.insideClosure = (opens state).insideClosure →
    (closes state.insideClosure after).insideClosure = state.insideClosure
  frames : ∀ {state after names outside}, after.frames = ((opens state).bind names).frames →
    (closes outside after).frames = state.frames

namespace Opens

variable {names : List String} {binders : List Binder}

/-- A scope that binds names. -/
theorem scope (finds : Finds names binders known) :
    Opens known (·.extend binders) (QualifierState.enter names) fun _ => QualifierState.leave where
  sees subset sees := sees.enter (finds.mono subset)
  inside same := same
  frames same := congrArg List.tail same

/-- The scope of a closure. -/
theorem closure {signature : Option ClosureSignature}
    (finds : Finds names (signature.toList.map .closure) known) :
    Opens known (·.ofClosure signature)
      (fun state => { state.enter names with insideClosure := true })
      fun outside state => { state.leave with insideClosure := outside } where
  sees subset sees :=
    have entered := sees.enter (finds.mono subset)
    ⟨rfl, entered.opened, entered.bound, entered.known⟩
  inside _ := rfl
  frames same := congrArg List.tail same

end Opens

namespace Lawful

variable {scoping : Scoping α} {second : Scoping β} {node : α} {other : β}

theorem still (tokens : List Token) : (Scoping.still tokens).Lawful table written known () where
  tokens_sites _ := map_token_unscoped tokens
  outcome _ _ _ _ _ :=
    ⟨rfl, ⟨[], .none _, (QualifierState.frames_bind_nil _).symm⟩, .unscoped tokens⟩

theorem pair (one : scoping.Lawful table written known node)
    (two : second.Lawful table written known other) :
    (scoping.pair second).Lawful table written known (node, other) where
  tokens_sites scope := by
    rw [Scoping.pair, List.map_append, one.tokens_sites, two.tokens_sites]
  outcome scope state subset owned sees := by
    obtain ⟨ownedOne, ownedTwo⟩ := List.append_subset.1 (otherTokens_append _ _ ▸ owned)
    obtain ⟨insideOne, ⟨names, finds, frames⟩, resolvedOne⟩ :=
      one.outcome scope state subset ownedOne sees
    -- The first node leaves the frames that follow the scope of the second.
    obtain ⟨insideTwo, ⟨more, findsMore, framesMore⟩, resolvedTwo⟩ :=
      two.outcome _ _ subset ownedTwo (sees.bind finds insideOne frames)
    exact ⟨insideTwo.trans insideOne, ⟨names ++ more, finds.append findsMore,
      framesMore.trans (QualifierState.frames_bind_bind frames)⟩, resolvedOne.append resolvedTwo⟩

theorem before (tokens : List Token)
    (lawful : scoping.Lawful table written (tokens ++ known) node) :
    (scoping.before tokens).Lawful table written known node where
  tokens_sites scope := by
    rw [Scoping.before, List.map_append, lawful.tokens_sites, map_token_unscoped]
  outcome scope state subset owned sees := by
    obtain ⟨ownedTokens, owned⟩ := List.append_subset.1 (otherTokens_append _ _ ▸ owned)
    rw [otherTokens_unscoped] at ownedTokens
    obtain ⟨inside, found, resolved⟩ :=
      lawful.outcome scope state (List.append_subset.2 ⟨ownedTokens, subset⟩) owned sees
    exact ⟨inside, found, (Resolved.unscoped tokens).append resolved⟩

theorem aside (one : scoping.Lawful table written known node)
    (two : second.Lawful table written known other) :
    (scoping.aside second).Lawful table written known (node, other) where
  tokens_sites scope := by
    rw [Scoping.aside, List.map_append, one.tokens_sites, two.tokens_sites]
    rfl
  outcome scope state subset owned sees := by
    obtain ⟨ownedOne, ownedTwo⟩ := List.append_subset.1 (otherTokens_append _ _ ▸ owned)
    obtain ⟨insideOne, ⟨names, finds, frames⟩, resolvedOne⟩ :=
      one.outcome scope state subset ownedOne sees
    -- The frames hold more than the second node sees.
    obtain ⟨insideTwo, ⟨more, findsMore, framesMore⟩, resolvedTwo⟩ :=
      two.outcome scope _ subset ownedTwo (sees.bind finds insideOne frames).of_extend
    refine ⟨insideTwo.trans insideOne, ⟨names ++ more, (finds.append findsMore).of_append,
      framesMore.trans (QualifierState.frames_bind_bind frames)⟩, resolvedOne.append resolvedTwo⟩

theorem behind (tokens : List Token) (lawful : scoping.Lawful table written known node) :
    (scoping.behind tokens).Lawful table written known node where
  tokens_sites scope := by
    rw [Scoping.behind, List.map_append, lawful.tokens_sites, map_token_unscoped]
  outcome scope state subset owned sees := by
    obtain ⟨owned, -⟩ := List.append_subset.1 (otherTokens_append _ _ ▸ owned)
    obtain ⟨inside, found, resolved⟩ := lawful.outcome scope state subset owned sees
    exact ⟨inside, found, resolved.append (.unscoped tokens)⟩

theorem within {inner : Scope → Scope} {opens : QualifierState → QualifierState}
    {closes : Bool → QualifierState → QualifierState} (opening : Opens known inner opens closes)
    (lawful : scoping.Lawful table written known node) :
    (scoping.within inner opens closes).Lawful table written known node where
  tokens_sites scope := lawful.tokens_sites (inner scope)
  outcome scope state subset owned sees := by
    obtain ⟨inside, ⟨_, _, frames⟩, resolved⟩ :=
      lawful.outcome (inner scope) (opens state) subset owned (opening.sees subset sees)
    refine ⟨opening.inside inside, ⟨[], .none _, ?_⟩, resolved⟩
    rw [QualifierState.frames_bind_nil]
    exact opening.frames frames

theorem naming (binders : α → List Binder) (names : α → List String)
    (lawful : scoping.Lawful table written known node)
    (finds : ∀ scope, Finds (names node) (binders node)
      (known ++ otherTokens (scoping.sites scope node))) :
    (scoping.naming binders names).Lawful table written known node where
  tokens_sites := lawful.tokens_sites
  outcome scope state subset owned sees := by
    obtain ⟨inside, ⟨bound, findsBound, frames⟩, resolved⟩ :=
      lawful.outcome scope state subset owned sees
    have findsNames := (finds scope).mono (List.append_subset.2 ⟨subset, owned⟩)
    refine ⟨?_, ⟨bound ++ names node, findsBound.append findsNames, ?_⟩, resolved⟩
    · exact (QualifierState.insideClosure_bind _ _).trans inside
    · exact QualifierState.frames_bind_bind frames

theorem closed (lawful : scoping.Lawful table written known node) :
    scoping.closed.Lawful table written known node where
  tokens_sites := lawful.tokens_sites
  outcome scope state subset owned sees := by
    obtain ⟨inside, ⟨names, finds, frames⟩, resolved⟩ :=
      lawful.outcome scope state subset owned sees
    exact ⟨inside, ⟨names, ⟨List.forall_mem_nil _, finds.known⟩, frames⟩, resolved⟩

/-- A node obeys the law if the tuple of its parts does. -/
theorem make {parts : Scoping β} {node : β} {whole : α}
    (lawful : parts.Lawful table written known node) (make : β → α)
    (makes : parts.Makes scoping make) (isWhole : make node = whole) :
    scoping.Lawful table written known whole := by
  have sites_make : ∀ scope node, scoping.sites scope (make node) = parts.sites scope node :=
    fun scope => congrFun (congrFun makes.sites_eq scope)
  have binders_make : ∀ node, scoping.binders (make node) = parts.binders node :=
    congrFun makes.binders_eq
  have tokens_make : ∀ node, scoping.tokens (make node) = parts.tokens node :=
    congrFun makes.tokens_eq
  have run_make : ∀ node state, scoping.run (make node) state =
      (make (parts.run node state).1, (parts.run node state).2) :=
    fun node => congrFun (congrFun makes.run_eq node)
  subst isWhole
  refine ⟨fun scope => ?_, fun scope state subset owned sees => ?_⟩
  · rw [sites_make, tokens_make, lawful.tokens_sites]
  · rw [sites_make] at owned
    obtain ⟨inside, found, resolved⟩ := lawful.outcome scope state subset owned sees
    rw [run_make]
    refine ⟨inside, ?_, ?_⟩
    · rw [binders_make]
      exact found
    · rw [sites_make, tokens_make]
      exact resolved

end Lawful

end Scoping

/-! ### The recursion -/

section Recursion

open Scoping (Lawful)

/-- A name is resolved as its scope says. -/
theorem lawful_identifier (token : Token) :
    Lawful ⟨Expr.sites, fun _ => [], Expr.tokens, Expr.transform (qualifier table)⟩ table written
      known (.identifier token) where
  tokens_sites scope := by
    simp [Expr.sites, Expr.tokens, Site.token]
  outcome scope state subset owned sees := by
    show Scoping.Outcome _ _ _ _ state _
      ((Expr.identifier token).transform (qualifier table) state)
    have same := (QualifierState.frames_bind_nil state).symm
    rw [qualify_identifier]
    split
    case isTrue qualifies =>
      simp only [QualifierState.qualifies, Bool.and_eq_true, Bool.not_eq_true'] at qualifies
      obtain ⟨⟨inside, symbol⟩, free⟩ := qualifies
      refine ⟨rfl, ⟨[], .none _, same⟩, ?_⟩
      refine .qualified (sees.inside ▸ inside) symbol (fun binds => ?_) .nil
      exact Bool.eq_false_iff.1 free (sees.bound _ binds)
    case isFalse stays =>
      refine ⟨rfl, ⟨[], .none _, same⟩, .kept ?_ .nil⟩
      rw [← sees.inside]
      by_cases found : state.binds token.text = true
      · exact .inr (.inr (sees.known _ found))
      · simp only [QualifierState.qualifies, Bool.and_eq_true, Bool.not_eq_true'] at stays
        grind

/-- The names of a variable declaration are written in its patterns. -/
theorem finds_bindings (scope : Scope) (bindings : List PatternBinding) :
    Finds (bindingNames bindings) (bindingBinders bindings)
      (otherTokens (sitesOfBindings scope bindings)) := by
  induction bindings with
  | nil => exact .none _
  | cons binding later ih =>
    obtain ⟨pattern, type, initializer, accessor, comma⟩ := binding
    refine ((Finds.binder (.pattern pattern)).mono ?_).append (ih.mono ?_)
    · simp [sitesOfBindings, Binder.tokens]
    · rw [sitesOfBindings, otherTokens_append]
      exact List.subset_append_right _ _

/-- The name of a function is written in its header. -/
theorem finds_function (known : List Token) (header : FunctionHeader) (body : Option CodeBlock) :
    Finds [header.name.text] [.function header.name]
      (known ++ otherTokens (unscoped (Decl.function header body).tokens)) := by
  refine (Finds.binder (.function header.name)).mono ?_
  simp [Binder.tokens, Decl.tokens, Node.tokens]

-- The induction follows the transformer. Every node is made of its parts, and the tokens around
-- them are left alone.
mutual

/-- Every expression is resolved as its scopes say. -/
theorem lawful_expr {known : List Token} (expr : Expr) :
    Lawful ⟨Expr.sites, fun _ => [], Expr.tokens, Expr.transform (qualifier table)⟩ table written
      known expr := by
  -- A node is made of its parts, in scopes that an expression does not change; only closures open
  -- one, and they are behind their own law.
  match expr with
  | .identifier token => exact lawful_identifier token
  | .literal token =>
    exact (Lawful.still [token]).make (fun _ => .literal token) ⟨rfl, rfl, rfl, rfl⟩ rfl
  | .raw tokens =>
    exact (Lawful.still tokens).make (fun _ => .raw tokens) ⟨rfl, rfl, rfl, rfl⟩ rfl
  | .member base period name =>
    exact ((lawful_expr? base).behind [period, name]).make
      (fun base => .member base period name) ⟨rfl, rfl, rfl, rfl⟩ rfl
  | .call callee arguments closure =>
    exact (((lawful_expr callee).pair (lawful_callArguments arguments)).pair
      (lawful_closure? closure)).make
        (fun ((callee, arguments), closure) => .call callee arguments closure)
        ⟨rfl, rfl, rfl, rfl⟩ rfl
  | .index base arguments =>
    exact ((lawful_expr base).pair (lawful_argumentList arguments)).make
      (fun (base, arguments) => .index base arguments) ⟨rfl, rfl, rfl, rfl⟩ rfl
  | .sequence operands operators =>
    exact (lawful_operands operands operators).make (.sequence · operators)
      ⟨rfl, rfl, rfl, rfl⟩ rfl
  | .prefixed operator operand =>
    exact ((lawful_expr operand).before [operator]).make (.prefixed operator)
      ⟨rfl, rfl, rfl, rfl⟩ rfl
  | .suffixed operand operator =>
    exact ((lawful_expr operand).behind [operator]).make (.suffixed · operator)
      ⟨rfl, rfl, rfl, rfl⟩ rfl
  | .trying keyword mark operand =>
    exact ((lawful_expr operand).before (keyword :: Node.tokens mark)).make
      (.trying keyword mark) ⟨rfl, rfl, rfl, rfl⟩ rfl
  | .awaiting keyword operand =>
    exact ((lawful_expr operand).before [keyword]).make (.awaiting keyword)
      ⟨rfl, rfl, rfl, rfl⟩ rfl
  | .tuple elements =>
    exact (lawful_argumentList elements).make .tuple ⟨rfl, rfl, rfl, rfl⟩ rfl
  | .collection left elements right =>
    exact (((lawful_elements elements).before [left]).behind [right]).make
      (.collection left · right) ⟨rfl, rfl, rfl, rfl⟩ rfl
  | .closure closure => exact (lawful_closure closure).make .closure ⟨rfl, rfl, rfl, rfl⟩ rfl
  | .specialized base arguments =>
    exact ((lawful_expr base).behind arguments).make (.specialized · arguments)
      ⟨rfl, rfl, rfl, rfl⟩ rfl

theorem lawful_expr? {known : List Token} (expr : Option Expr) :
    Lawful ⟨sitesOfExpr?, fun _ => [], tokensOfExpr?, transformExpr? (qualifier table)⟩ table
      written known expr := by
  match expr with
  | none => exact (Lawful.still []).make (fun _ => none) ⟨rfl, rfl, rfl, rfl⟩ rfl
  | some expr => exact (lawful_expr expr).make some ⟨rfl, rfl, rfl, rfl⟩ rfl

theorem lawful_argumentList {known : List Token} (list : ArgumentList) :
    Lawful ⟨ArgumentList.sites, fun _ => [], ArgumentList.tokens,
      ArgumentList.transform (qualifier table)⟩ table written known list := by
  match list with
  | ⟨opener, arguments, closer⟩ =>
    exact (((lawful_arguments arguments).before [opener]).behind [closer]).make
      (⟨opener, ·, closer⟩) ⟨rfl, rfl, rfl, rfl⟩ rfl

theorem lawful_callArguments {known : List Token} (list : CallArguments) :
    Lawful ⟨CallArguments.sites, fun _ => [], CallArguments.tokens,
      CallArguments.transform (qualifier table)⟩ table written known list := by
  match list with
  | ⟨left, arguments, right⟩ =>
    exact (((lawful_arguments arguments).before (Node.tokens left)).behind
      (Node.tokens right)).make (⟨left, ·, right⟩) ⟨rfl, rfl, rfl, rfl⟩ rfl

theorem lawful_arguments {known : List Token} (arguments : List Argument) :
    Lawful ⟨sitesOfArguments, fun _ => [], tokensOfArguments,
      transformArguments (qualifier table)⟩ table written known arguments := by
  match arguments with
  | [] => exact (Lawful.still []).make (fun _ => []) ⟨rfl, rfl, rfl, rfl⟩ rfl
  | ⟨label, value, comma⟩ :: later =>
    exact ((((lawful_expr value).before (Node.tokens label)).behind (Node.tokens comma)).pair
      (lawful_arguments later)).make
        (fun (value, later) => ⟨label, value, comma⟩ :: later) ⟨rfl, rfl, rfl, rfl⟩ rfl

theorem lawful_operands {known : List Token} (operands : List Expr) (operators : List Token) :
    Lawful ⟨(sitesOfOperands · · operators), fun _ => [], (tokensOfOperands · operators),
      transformOperands (qualifier table)⟩ table written known operands := by
  match operands with
  | [] => exact (Lawful.still []).make (fun _ => []) ⟨rfl, rfl, rfl, rfl⟩ rfl
  | operand :: later =>
    exact (((lawful_expr operand).behind (Node.tokens operators.head?)).pair
      (lawful_operands later operators.tail)).make
        (fun (operand, later) => operand :: later) ⟨rfl, rfl, rfl, rfl⟩ rfl

theorem lawful_elements {known : List Token} (elements : List CollectionElement) :
    Lawful ⟨sitesOfElements, fun _ => [], tokensOfElements, transformElements (qualifier table)⟩
      table written known elements := by
  match elements with
  | [] => exact (Lawful.still []).make (fun _ => []) ⟨rfl, rfl, rfl, rfl⟩ rfl
  | .value value comma :: later =>
    exact (((lawful_expr value).behind (Node.tokens comma)).pair (lawful_elements later)).make
      (fun (value, later) => .value value comma :: later) ⟨rfl, rfl, rfl, rfl⟩ rfl
  | .entry key colon value comma :: later =>
    exact ((((lawful_expr key).pair ((lawful_expr value).before [colon])).behind
      (Node.tokens comma)).pair (lawful_elements later)).make
        (fun ((key, value), later) => .entry key colon value comma :: later)
        ⟨rfl, rfl, rfl, rfl⟩ rfl

theorem lawful_closure {known : List Token} (closure : Closure) :
    Lawful ⟨Closure.sites, fun _ => [], Closure.tokens, Closure.transform (qualifier table)⟩ table
      written known closure := by
  match closure with
  | ⟨left, signature, statements, right⟩ =>
    have finds := (Finds.closure ⟨left, signature, statements, right⟩).mono
      (List.subset_append_of_subset_left known (List.subset_cons_self left _))
    have scope := (lawful_statements statements).within (.closure finds)
    exact ((scope.before (left :: Node.tokens signature)).behind [right]).make
      (⟨left, signature, ·, right⟩) ⟨rfl, rfl, rfl, rfl⟩ rfl

theorem lawful_closure? {known : List Token} (closure : Option Closure) :
    Lawful ⟨sitesOfClosure?, fun _ => [], tokensOfClosure?,
      transformClosure? (qualifier table)⟩ table written known closure := by
  match closure with
  | none => exact (Lawful.still []).make (fun _ => none) ⟨rfl, rfl, rfl, rfl⟩ rfl
  | some closure => exact (lawful_closure closure).make some ⟨rfl, rfl, rfl, rfl⟩ rfl

theorem lawful_statement {known : List Token} (statement : Statement) :
    Lawful ⟨Statement.sites, fun statement => statement.item.binders, Statement.tokens,
      Statement.transform (qualifier table)⟩ table written known statement := by
  match statement with
  | ⟨item, semicolon⟩ =>
    exact ((lawful_item item).behind (Node.tokens semicolon)).make (⟨·, semicolon⟩)
      ⟨rfl, rfl, rfl, rfl⟩ rfl

/-- Every statement list is resolved as its scopes say. -/
theorem lawful_statements {known : List Token} (statements : List Statement) :
    Lawful ⟨sitesOfStatements, fun _ => [], tokensOfStatements,
      transformStatements (qualifier table)⟩ table written known statements := by
  match statements with
  | [] => exact (Lawful.still []).make (fun _ => []) ⟨rfl, rfl, rfl, rfl⟩ rfl
  | statement :: later =>
    exact ((lawful_statement statement).pair (lawful_statements later)).closed.make
      (fun (statement, later) => statement :: later) ⟨rfl, rfl, rfl, rfl⟩ rfl

theorem lawful_item {known : List Token} (item : Item) :
    Lawful ⟨Item.sites, Item.binders, Item.tokens, Item.transform (qualifier table)⟩ table written
      known item := by
  match item with
  | .expr expr => exact (lawful_expr expr).make .expr ⟨rfl, rfl, rfl, rfl⟩ rfl
  | .decl decl => exact (lawful_decl decl).make .decl ⟨rfl, rfl, rfl, rfl⟩ rfl
  | .returning keyword value =>
    exact ((lawful_expr? value).before [keyword]).make (.returning keyword)
      ⟨rfl, rfl, rfl, rfl⟩ rfl
  | .throwing keyword value =>
    exact ((lawful_expr value).before [keyword]).make (.throwing keyword) ⟨rfl, rfl, rfl, rfl⟩ rfl
  | .conditional statement =>
    exact (lawful_ifStatement statement).make .conditional ⟨rfl, rfl, rfl, rfl⟩ rfl
  | .guarding keyword conditions elseKeyword body =>
    -- The body is left when the conditions fail, so it does not see what they bind.
    exact (((lawful_conditions conditions).before [keyword]).aside
      ((lawful_block body).before [elseKeyword])).make
        (fun (conditions, body) => .guarding keyword conditions elseKeyword body)
        ⟨rfl, rfl, rfl, rfl⟩ rfl
  | .forIn keyword modifiers pattern type inKeyword sequence filter body =>
    -- The sequence is looked at before the loop binds its names.
    let head := keyword :: modifiers ++ Node.tokens pattern ++ Node.tokens type
    have finds : Finds _ _ (head ++ known) := (Finds.loop modifiers pattern).mono fun _ member =>
      List.mem_append_left known (List.mem_cons_of_mem keyword (List.mem_append_left _ member))
    have loop := ((lawful_clause? filter).pair (lawful_block body)).within (.scope finds)
    have sequenced := ((lawful_expr sequence).before [inKeyword]).pair loop
    exact (sequenced.before head).make (fun (sequence, filter, body) =>
        .forIn keyword modifiers pattern type inKeyword sequence filter body)
      ⟨rfl, rfl, funext fun _ => (List.append_assoc ..).trans (List.append_assoc ..), rfl⟩ rfl
  | .whileLoop keyword conditions body =>
    exact ((((lawful_conditions conditions).before [keyword]).pair
      (lawful_block body)).within (.scope (.none known))).make
        (fun (conditions, body) => .whileLoop keyword conditions body)
      ⟨rfl, rfl, rfl, rfl⟩ rfl
  | .repeatLoop keyword body whileKeyword condition =>
    exact (((lawful_block body).before [keyword]).pair
      ((lawful_expr condition).before [whileKeyword])).make
        (fun (body, condition) => .repeatLoop keyword body whileKeyword condition)
        ⟨rfl, rfl, rfl, rfl⟩ rfl
  | .doCatch keyword throwsClause body catches =>
    exact (((lawful_block body).before (keyword :: throwsClause)).pair
      (lawful_catches catches)).make
        (fun (body, catches) => .doCatch keyword throwsClause body catches)
        ⟨rfl, rfl, rfl, rfl⟩ rfl
  | .switching keyword subject left cases right =>
    exact ((((lawful_expr subject).before [keyword]).pair
      ((lawful_cases cases).before [left])).behind [right]).make
        (fun (subject, cases) => .switching keyword subject left cases right)
        ⟨rfl, rfl, rfl, rfl⟩ rfl
  | .deferring keyword body =>
    exact ((lawful_block body).before [keyword]).make (.deferring keyword) ⟨rfl, rfl, rfl, rfl⟩ rfl
  | .raw tokens =>
    exact (Lawful.still tokens).make (fun _ => .raw tokens) ⟨rfl, rfl, rfl, rfl⟩ rfl

theorem lawful_block {known : List Token} (block : CodeBlock) :
    Lawful ⟨CodeBlock.sites, fun _ => [], CodeBlock.tokens,
      CodeBlock.transform (qualifier table)⟩ table written known block := by
  match block with
  | ⟨left, statements, right⟩ =>
    have scope := (lawful_statements statements).within (.scope (.none ([left] ++ known)))
    exact ((scope.before [left]).behind [right]).make (⟨left, ·, right⟩) ⟨rfl, rfl, rfl, rfl⟩ rfl

theorem lawful_block? {known : List Token} (block : Option CodeBlock) :
    Lawful ⟨sitesOfBlock?, fun _ => [], tokensOfBlock?, transformBlock? (qualifier table)⟩ table
      written known block := by
  match block with
  | none => exact (Lawful.still []).make (fun _ => none) ⟨rfl, rfl, rfl, rfl⟩ rfl
  | some block => exact (lawful_block block).make some ⟨rfl, rfl, rfl, rfl⟩ rfl

theorem lawful_ifStatement {known : List Token} (statement : IfStatement) :
    Lawful ⟨IfStatement.sites, fun _ => [], IfStatement.tokens,
      IfStatement.transform (qualifier table)⟩ table written known statement := by
  match statement with
  | ⟨keyword, conditions, body, alternative⟩ =>
    -- The alternative does not see what the conditions bind.
    have scope := (((lawful_conditions conditions).before [keyword]).pair
      (lawful_block body)).within (.scope (.none known))
    exact (scope.pair (lawful_elseClause alternative)).make
      (fun ((conditions, body), alternative) => ⟨keyword, conditions, body, alternative⟩)
      ⟨rfl, rfl, rfl, rfl⟩ rfl

theorem lawful_elseClause {known : List Token} (alternative : ElseClause) :
    Lawful ⟨ElseClause.sites, fun _ => [], ElseClause.tokens,
      ElseClause.transform (qualifier table)⟩ table written known alternative := by
  match alternative with
  | .absent => exact (Lawful.still []).make (fun _ => .absent) ⟨rfl, rfl, rfl, rfl⟩ rfl
  | .block keyword body =>
    exact ((lawful_block body).before [keyword]).make (.block keyword) ⟨rfl, rfl, rfl, rfl⟩ rfl
  | .chained keyword next =>
    exact ((lawful_ifStatement next).before [keyword]).make (.chained keyword)
      ⟨rfl, rfl, rfl, rfl⟩ rfl

theorem lawful_conditions {known : List Token} (conditions : List Condition) :
    Lawful ⟨sitesOfConditions, conditionBinders, tokensOfConditions,
      transformConditions (qualifier table)⟩ table written known conditions := by
  match conditions with
  | [] => exact (Lawful.still []).make (fun _ => []) ⟨rfl, rfl, rfl, rfl⟩ rfl
  | .expr expr comma :: later =>
    exact (((lawful_expr expr).behind (Node.tokens comma)).pair (lawful_conditions later)).make
      (fun (expr, later) => .expr expr comma :: later) ⟨rfl, rfl, rfl, rfl⟩ rfl
  | .binding specifier pattern type initializer comma :: later =>
    let head := specifier :: Node.tokens pattern ++ Node.tokens type
    have finds : Finds pattern.names [.pattern pattern] (head ++ known) :=
      (Finds.binder (.pattern pattern)).mono fun _ member =>
        List.mem_append_left known (List.mem_append_left _ (List.mem_cons_of_mem specifier member))
    have bound := Lawful.naming (fun _ => [.pattern pattern]) (fun _ => pattern.names)
      (lawful_clause? initializer) fun _ => finds.mono (List.subset_append_left _ _)
    exact (((bound.before head).behind (Node.tokens comma)).pair (lawful_conditions later)).make
      (fun (initializer, later) => .binding specifier pattern type initializer comma :: later)
      ⟨rfl, rfl, rfl, rfl⟩ rfl

theorem lawful_clause {known : List Token} (clause : Clause) :
    Lawful ⟨Clause.sites, fun _ => [], Clause.tokens, Clause.transform (qualifier table)⟩ table
      written known clause := by
  match clause with
  | ⟨mark, value⟩ =>
    exact ((lawful_expr value).before [mark]).make (⟨mark, ·⟩) ⟨rfl, rfl, rfl, rfl⟩ rfl

theorem lawful_clause? {known : List Token} (clause : Option Clause) :
    Lawful ⟨sitesOfClause?, fun _ => [], tokensOfClause?, transformClause? (qualifier table)⟩ table
      written known clause := by
  match clause with
  | none => exact (Lawful.still []).make (fun _ => none) ⟨rfl, rfl, rfl, rfl⟩ rfl
  | some clause => exact (lawful_clause clause).make some ⟨rfl, rfl, rfl, rfl⟩ rfl

theorem lawful_catches {known : List Token} (catches : List CatchClause) :
    Lawful ⟨sitesOfCatches, fun _ => [], tokensOfCatches, transformCatches (qualifier table)⟩ table
      written known catches := by
  match catches with
  | [] => exact (Lawful.still []).make (fun _ => []) ⟨rfl, rfl, rfl, rfl⟩ rfl
  | ⟨keyword, pattern, body⟩ :: later =>
    have finds : Finds (catchNames pattern) [.handler pattern] (keyword :: pattern ++ known) :=
      (Finds.binder (.handler pattern)).mono
        (List.subset_append_of_subset_left known (List.subset_cons_self keyword _))
    have scope := (lawful_block body).within (.scope finds)
    exact ((scope.before (keyword :: pattern)).pair (lawful_catches later)).make
      (fun (body, later) => ⟨keyword, pattern, body⟩ :: later) ⟨rfl, rfl, rfl, rfl⟩ rfl

theorem lawful_cases {known : List Token} (cases : List SwitchCase) :
    Lawful ⟨sitesOfCases, fun _ => [], tokensOfCases, transformCases (qualifier table)⟩ table
      written known cases := by
  match cases with
  | [] => exact (Lawful.still []).make (fun _ => []) ⟨rfl, rfl, rfl, rfl⟩ rfl
  | ⟨label, statements⟩ :: later =>
    exact (((lawful_statements statements).before label).pair (lawful_cases later)).make
      (fun (statements, later) => ⟨label, statements⟩ :: later) ⟨rfl, rfl, rfl, rfl⟩ rfl

theorem lawful_decl {known : List Token} (decl : Decl) :
    Lawful ⟨Decl.sites, Decl.binders, Decl.tokens, Decl.transform (qualifier table)⟩ table written
      known decl := by
  match decl with
  | .variable header bindings =>
    have bound := Lawful.naming bindingBinders bindingNames (lawful_bindings bindings)
      fun scope => (finds_bindings scope bindings).mono
        (List.subset_append_right (Node.tokens header ++ known) _)
    exact (bound.before (Node.tokens header)).make (.variable header) ⟨rfl, rfl, rfl, rfl⟩ rfl
  | .function header body =>
    exact (Lawful.naming (fun _ => [.function header.name]) (fun _ => [header.name.text])
      (.still (Decl.function header body).tokens) fun _ => finds_function known header body).make
        (fun _ => .function header body) ⟨rfl, rfl, rfl, rfl⟩ rfl
  | .importing _ | .raw _ | .type _ _ | .initializer _ _ | .finalizer _ _ =>
    -- These are left alone, and so is the body of a function.
    exact (Lawful.still (Decl.tokens _)).make (fun _ => _) ⟨rfl, rfl, rfl, rfl⟩ rfl

theorem lawful_bindings {known : List Token} (bindings : List PatternBinding) :
    Lawful ⟨sitesOfBindings, fun _ => [], tokensOfBindings, transformBindings (qualifier table)⟩
      table written known bindings := by
  match bindings with
  | [] => exact (Lawful.still []).make (fun _ => []) ⟨rfl, rfl, rfl, rfl⟩ rfl
  | ⟨pattern, type, initializer, accessor, comma⟩ :: later =>
    exact (((((lawful_clause? initializer).before (Node.tokens pattern ++ Node.tokens type)).pair
      (lawful_block? accessor)).behind (Node.tokens comma)).pair (lawful_bindings later)).make
        (fun ((initializer, accessor), later) =>
          ⟨pattern, type, initializer, accessor, comma⟩ :: later) ⟨rfl, rfl, rfl, rfl⟩ rfl

end

end Recursion

/-! ### Functions -/

/-- The references of a function are resolved. Those that have `self.` in front are members inside
closures that nothing in their scopes binds. Those that lack it stand outside of closures, or are no
members, or some other token of the function is written like them. -/
theorem qualifyBody_resolves (table : SymbolTable) (header : FunctionHeader)
    (body : Option CodeBlock) :
    let sites := sitesOfFunction header body
    let new := qualifyBody table header body
    sites.map Site.token = (Decl.function header body).tokens ∧
      Resolved table (otherTokens sites) sites (Decl.function header new.1).tokens := by
  intro sites new
  let start : QualifierState := { frames := [header.parameters.names] }
  have whole : (Scoping.before (Node.tokens header) _).Lawful table (otherTokens sites) [] body :=
    (lawful_block? body).before (Node.tokens header)
  have owned : Node.tokens header ⊆ otherTokens sites := by
    simp [sites, sitesOfFunction]
  have finds : Finds header.parameters.names [.parameters header.parameters] (otherTokens sites) :=
    (Finds.binder (.parameters header.parameters)).mono fun token member => owned (by
      simp only [Binder.tokens] at member
      simp [Node.tokens, member])
  have holds name : start.binds name = true ↔ name ∈ header.parameters.names := by
    simp [start, QualifierState.binds]
  have sees : start.Sees (otherTokens sites) { binders := [.parameters header.parameters] } :=
    ⟨rfl, List.cons_ne_nil _ _,
      fun name ⟨binder, isBinder, binds⟩ => (holds name).2 (finds.bound binder isBinder name binds),
      fun name found => finds.known name ((holds name).1 found)⟩
  obtain ⟨-, -, resolved⟩ := whole.outcome _ start (List.nil_subset _) (List.Subset.refl _) sees
  exact ⟨whole.tokens_sites _, resolved⟩

/-! ### Names that shadow nothing -/

/-- Of the signature of a closure only the names of its parameters matter for how its statements are
qualified, and for what the scopes around it are afterwards. -/
theorem qualify_closure_congr {closure other : Closure}
    (statements : closure.statements = other.statements)
    (names : closure.parameterNames = other.parameterNames) (state : QualifierState) :
    let new := closure.transform (qualifier table) state
    let new' := other.transform (qualifier table) state
    new.1.statements = new'.1.statements ∧ new.2 = new'.2 := by
  obtain ⟨left, signature, inside, right⟩ := closure
  obtain ⟨left', signature', inside', right'⟩ := other
  obtain rfl : inside = inside' := statements
  -- Only the frame that opens depends on the signature.
  have run (left right : Token) (signature : Option ClosureSignature) :
      Closure.transform (qualifier table) ⟨left, signature, inside, right⟩ state =
        let names := (Closure.mk left signature inside right).parameterNames
        let inner := transformStatements (qualifier table) inside
          { state.enter names with insideClosure := true }
        (⟨left, signature, inner.1, right⟩,
          { inner.2.leave with insideClosure := state.insideClosure }) := rfl
  intro new new'
  simp only [new, new', run, names, and_self]

/-- What a closure captures shadows nothing. With a capture list in front of its parameters the
statements are qualified as they are without it. -/
theorem qualify_closure_captures {captures parameters : List Token}
    (isList : IsCaptureList captures)
    (only : ∀ first ∈ parameters.head?, first.kind ≠ .leftBracket)
    (left keyword : Token) (statements : List Statement) (right : Token) (state : QualifierState) :
    let closure (tokens : List Token) : Closure := ⟨left, some ⟨tokens, keyword⟩, statements, right⟩
    let new := (closure (captures ++ parameters)).transform (qualifier table) state
    let plain := (closure parameters).transform (qualifier table) state
    new.1.statements = plain.1.statements ∧ new.2 = plain.2 := by
  intro closure
  refine qualify_closure_congr ?_ ?_ state
  · rfl
  · exact ClosureSignature.parameterNames_captures isList only keyword

/-- What the labels of cases bind shadows nothing. The statements of cases are qualified alike,
whatever their labels are. -/
theorem qualify_cases_labels {cases others : List SwitchCase}
    (statements : cases.map SwitchCase.statements = others.map SwitchCase.statements)
    (state : QualifierState) :
    let new := transformCases (qualifier table) cases state
    let new' := transformCases (qualifier table) others state
    new.1.map SwitchCase.statements = new'.1.map SwitchCase.statements ∧ new.2 = new'.2 := by
  induction cases generalizing others state with
  | nil =>
    obtain rfl := List.map_eq_nil_iff.1 statements.symm
    exact ⟨rfl, rfl⟩
  | cons case later ih =>
    obtain ⟨case', later', rfl, same, rest⟩ := List.map_eq_cons_iff.1 statements.symm
    obtain ⟨label, inside⟩ := case
    obtain ⟨label', inside'⟩ := case'
    obtain rfl : inside' = inside := same
    obtain ⟨laterStatements, laterState⟩ :=
      ih rest.symm (transformStatements (qualifier table) inside' state).2
    exact ⟨congrArg (_ :: ·) laterStatements, laterState⟩

/-- A closure that captures `count`, and a case that binds `item`. Both names are qualified, as they
would be if nothing bound them. -/
theorem qualifyBody_resolves_captured :
    let table : SymbolTable := { stored := ["count", "item"] }
    let header : FunctionHeader :=
      { attributes := [], modifiers := [], keyword := .ofName "func", name := .ofName "read",
        genericParameters := [],
        parameters := ⟨.ofPunctuation '(', [], .ofPunctuation ')'⟩, signature := [] }
    let name (text : String) : Statement := .ofItem (.expr (.identifier (.ofName text)))
    let run (signature : Option ClosureSignature) (statement : Statement) : Statement :=
      .ofItem (.expr (.call (.identifier (.ofName "run")) .absent
        (some ⟨.ofPunctuation '\x7b', signature, [statement], .ofPunctuation '\x7d'⟩)))
    let captures : ClosureSignature :=
      ⟨[.ofPunctuation '[', .ofName "count", .ofPunctuation ']'], .ofName "in"⟩
    let label : List Token :=
      [.ofName "case", .ofPunctuation '.', .ofName "some", .ofPunctuation '(', .ofName "let",
        .ofName "item", .ofPunctuation ')', .ofPunctuation ':']
    let choice : Statement :=
      .ofItem (.switching (.ofName "switch") (.identifier (.ofName "next"))
        (.ofPunctuation '\x7b') [⟨label, [run none (name "item")]⟩] (.ofPunctuation '\x7d'))
    let body : CodeBlock :=
      ⟨.ofPunctuation '\x7b', [run (some captures) (name "count"), choice],
        .ofPunctuation '\x7d'⟩
    let new := qualifyBody table header (some body)
    new.2 = 2 ∧ (tokensOfBlock? new.1).map Token.text =
      ["\x7b", "run", "\x7b", "[", "count", "]", "in", "self", ".", "count", "\x7d",
        "switch", "next", "\x7b", "case", ".", "some", "(", "let", "item", ")", ":",
        "run", "\x7b", "self", ".", "item", "\x7d", "\x7d", "\x7d"] := by
  decide

end SuiteMigration
