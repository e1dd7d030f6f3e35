import Mathlib.Tactic.Common
import SuiteMigration.Tree.Tokens
import SuiteMigration.Tree.Transform

/-!
# Transformers that count their changes

A transformer that counts its changes is honest if the count stays as it was just where the tree
does. Two trees that differ in one part differ as a whole, so honesty only has to be shown of the
four actions of a transformer; the recursion carries it to the whole tree.

The same recursion also carries why a count stays: there are runs of tokens that an action must find
in a node before it changes anything, and a node free of such runs has only parts that are free of
them.

## Main definitions

* `Counts` - a condition on the result of an action and on whether the count stayed
* `Free` - no run of the tokens is of a given kind
* `Accounts` - the count stays just where a node does, and it stays for a free node
* `Transformer.Honest` - the law of a transformer

## Main results

* `Transformer.Honest.counts_statements` - a list of statements after the transformation
-/

namespace SuiteMigration

variable {σ α β : Type}

/-! ### Conditions on results and counts -/

/-- Whatever the state, the action does not lower the count, and the condition holds of whether it
stayed and of the result. -/
def Counts (count : σ → Nat) (action : StateM σ α) (post : Prop → α → Prop) : Prop :=
  ∀ state, count state ≤ count (action state).2 ∧
    post (count (action state).2 = count state) (action state).1

namespace Counts

variable {count : σ → Nat} {action : StateM σ α} {next : α → StateM σ β} {change : σ → σ}
  {post post' : Prop → α → Prop} {goal : Prop → β → Prop}

theorem pure {value : α} (holds : post True value) :
    Counts count (Pure.pure value : StateM σ α) post := by
  intro state
  refine ⟨Nat.le_refl _, ?_⟩
  rw [← eq_self (count state)] at holds
  exact holds

/-- The count stays over two actions if it stays over each, because neither lowers it. -/
theorem bind (first : Counts count action post)
    (second : ∀ kept value, post kept value →
      Counts count (next value) fun keptLater => goal (kept ∧ keptLater)) :
    Counts count (action >>= next) goal := by
  intro state
  obtain ⟨grows, holds⟩ := first state
  obtain ⟨growsLater, holdsLater⟩ := second _ _ holds (action state).2
  refine ⟨Nat.le_trans grows growsLater, ?_⟩
  have both : (count (next (action state).1 (action state).2).2 = count state) =
      (count (action state).2 = count state ∧
        count (next (action state).1 (action state).2).2 = count (action state).2) :=
    propext (by omega)
  exact both ▸ holdsLater

/-- A weaker postcondition is met as well. -/
theorem mono (counts : Counts count action post)
    (weaker : ∀ kept value, post kept value → post' kept value) : Counts count action post' :=
  fun state => ⟨(counts state).1, weaker _ _ (counts state).2⟩

/-- Reading the state counts nothing. -/
theorem read {next : σ → StateM σ β} (later : ∀ state, Counts count (next state) goal) :
    Counts count (get >>= next) goal :=
  fun state => later state state

/-- A change of the state that does not touch the count comes first. -/
theorem after {action : StateM σ α} (still : ∀ state, count (change state) = count state)
    (later : Counts count action post) :
    Counts count (modify change >>= fun _ => action) post := by
  intro state
  have holds := later (change state)
  rw [still] at holds
  exact holds

/-- A change is counted and made. The condition is met if the count has not stayed. -/
theorem counted {value : α} (grows : ∀ state, count state < count (change state))
    (holds : post False value) :
    Counts count (modify change >>= fun _ => Pure.pure value) post := by
  intro state
  refine ⟨Nat.le_of_lt (grows state), ?_⟩
  have moved : (count (change state) = count state) = False :=
    eq_false (Nat.ne_of_gt (grows state))
  exact moved ▸ holds

end Counts

/-! ### Runs of tokens -/

/-- No run of the tokens is bad. -/
def Free (bad : List Token → Prop) (tokens : List Token) : Prop :=
  ∀ run, run <:+: tokens → ¬ bad run

namespace Free

variable {bad : List Token → Prop} {first second : List Token} {token : Token}

theorem mono (free : Free bad second) (within : first <:+: second) : Free bad first :=
  fun run member => free run (member.trans within)

theorem left (free : Free bad (first ++ second)) : Free bad first :=
  free.mono (List.prefix_append first second).isInfix

theorem right (free : Free bad (first ++ second)) : Free bad second :=
  free.mono (List.suffix_append first second).isInfix

theorem tail (free : Free bad (token :: second)) : Free bad second :=
  free.mono (List.suffix_cons token second).isInfix

end Free

/-! ### The law of a transformer -/

/-- The count stays just where the node does, and it stays if the tokens of the node are free. -/
structure Accounts (bad : List Token → Prop) (tokens : List Token) (old : α) (kept : Prop)
    (new : α) : Prop where
  kept_iff : kept ↔ new = old
  kept_of_free : Free bad tokens → kept

/-- A node given back is accounted for, whatever was looked for. -/
theorem Accounts.refl (bad : List Token → Prop) (tokens : List Token) (node : α) :
    Accounts bad tokens node True node :=
  ⟨by simp, fun _ => trivial⟩

/-- The name that an expression calls. -/
def Expr.calleeName? : Expr → Option String
  | .call callee _ _ => callee.name?
  | _ => none

/-- What is known of an expression once its parts are transformed. -/
structure Expr.Accounted (bad : List Token → Prop) (old : Expr) (kept : Prop) (new : Expr) :
    Prop where
  accounts : Accounts bad old.tokens old kept new
  name : new.name? = old.name?
  callee : new.calleeName? = old.calleeName?

/-- What is known of a statement once its parts are transformed. -/
structure Statement.Accounted (bad : List Token → Prop) (old : Statement) (kept : Prop)
    (new : Statement) : Prop where
  accounts : Accounts bad old.tokens old kept new
  expr : new.expr?.isSome = old.expr?.isSome

/-- What is known of statements that take the place of others: there are at least as many. -/
structure StatementsAccounted (bad : List Token → Prop) (tokens : List Token)
    (old : List Statement) (kept : Prop) (new : List Statement) : Prop where
  accounts : Accounts bad tokens old kept new
  length : old.length ≤ new.length

/-- The actions of the transformer are honest if those for the parts are. The names of expressions
stay, and the scopes do not count. -/
structure Transformer.Honest (t : Transformer σ) (count : σ → Nat) (bad : List Token → Prop) :
    Prop where
  expr : ∀ expr parts, Counts count parts (expr.Accounted bad) →
    Counts count (t.expr expr parts) fun kept new =>
      Accounts bad expr.tokens expr kept new ∧ new.name? = expr.name?
  closure : ∀ closure parts, Counts count parts (Accounts bad closure.tokens closure) →
    Counts count (t.closure closure parts) (Accounts bad closure.tokens closure)
  decl : ∀ decl parts, Counts count parts (Accounts bad decl.tokens decl) →
    Counts count (t.decl decl parts) (Accounts bad decl.tokens decl)
  statement : ∀ statement parts, Counts count parts (statement.Accounted bad) →
    Counts count (t.statement statement parts)
      (StatementsAccounted bad statement.tokens [statement])
  enter : ∀ names state, count (t.enter names state) = count state
  leave : ∀ state, count (t.leave state) = count state
  bind : ∀ names state, count (t.bind names state) = count state

/-- A transformer that does nothing with statements keeps each as the only one in its place. -/
theorem Counts.singleton {count : σ → Nat} {bad : List Token → Prop} {statement : Statement}
    {parts : StateM σ Statement} (counts : Counts count parts (statement.Accounted bad)) :
    Counts count (return [← parts]) (StatementsAccounted bad statement.tokens [statement]) := by
  refine counts.bind fun kept new accounted => .pure ⟨⟨?_, ?_⟩, Nat.le_refl _⟩
  · simp [accounted.accounts.kept_iff]
  · exact fun free => ⟨accounted.accounts.kept_of_free free, trivial⟩

/-! ### The recursion -/

namespace Transformer.Honest

variable {t : Transformer σ} {count : σ → Nat} {bad : List Token → Prop}

-- The induction follows the transformer. The parts that are not transformed are the same on both
-- sides, so that two nodes are equal just where their transformed parts are.
mutual

/-- An honest transformer accounts for every expression, and keeps the name of one that is a name.
-/
theorem counts_expr (laws : t.Honest count bad) (expr : Expr) :
    Counts count (expr.transform t) fun kept new =>
      Accounts bad expr.tokens expr kept new ∧ new.name? = expr.name? := by
  rw [Expr.transform.eq_def]
  refine laws.expr expr _ ?_
  match expr with
  | .identifier token | .literal token | .raw tokens =>
    exact .pure ⟨.refl _ _ _, rfl, rfl⟩
  | .member base period name =>
    refine (laws.counts_expr? base).bind fun _ _ new => .pure ⟨⟨?_, ?_⟩, rfl, rfl⟩
    · simp [new.kept_iff]
    · exact fun free => ⟨new.kept_of_free free.left, trivial⟩
  | .call callee arguments closure =>
    refine (laws.counts_expr callee).bind fun _ _ calleeNew =>
      (laws.counts_callArguments arguments).bind fun _ _ argumentsNew =>
      (laws.counts_closure? closure).bind fun _ _ closureNew =>
      .pure ⟨⟨?_, ?_⟩, rfl, calleeNew.2⟩
    · simp [calleeNew.1.kept_iff, argumentsNew.kept_iff, closureNew.kept_iff]
    · exact fun free => ⟨calleeNew.1.kept_of_free free.left.left,
        argumentsNew.kept_of_free free.left.right, closureNew.kept_of_free free.right, trivial⟩
  | .index base arguments =>
    refine (laws.counts_expr base).bind fun _ _ baseNew =>
      (laws.counts_argumentList arguments).bind fun _ _ argumentsNew =>
      .pure ⟨⟨?_, ?_⟩, rfl, rfl⟩
    · simp [baseNew.1.kept_iff, argumentsNew.kept_iff]
    · exact fun free => ⟨baseNew.1.kept_of_free free.left,
        argumentsNew.kept_of_free free.right, trivial⟩
  | .sequence operands operators =>
    refine (laws.counts_operands operands operators).bind fun _ _ new => .pure ⟨⟨?_, ?_⟩, rfl, rfl⟩
    · simp [new.kept_iff]
    · exact fun free => ⟨new.kept_of_free free, trivial⟩
  | .prefixed operator operand | .awaiting operator operand =>
    refine (laws.counts_expr operand).bind fun _ _ new => .pure ⟨⟨?_, ?_⟩, rfl, rfl⟩
    · simp [new.1.kept_iff]
    · exact fun free => ⟨new.1.kept_of_free free.tail, trivial⟩
  | .suffixed operand _ | .specialized operand _ =>
    refine (laws.counts_expr operand).bind fun _ _ new => .pure ⟨⟨?_, ?_⟩, rfl, rfl⟩
    · simp [new.1.kept_iff]
    · exact fun free => ⟨new.1.kept_of_free free.left, trivial⟩
  | .trying keyword mark operand =>
    refine (laws.counts_expr operand).bind fun _ _ new => .pure ⟨⟨?_, ?_⟩, rfl, rfl⟩
    · simp [new.1.kept_iff]
    · exact fun free => ⟨new.1.kept_of_free free.right, trivial⟩
  | .tuple elements =>
    refine (laws.counts_argumentList elements).bind fun _ _ new => .pure ⟨⟨?_, ?_⟩, rfl, rfl⟩
    · simp [new.kept_iff]
    · exact fun free => ⟨new.kept_of_free free, trivial⟩
  | .collection left elements right =>
    refine (laws.counts_elements elements).bind fun _ _ new => .pure ⟨⟨?_, ?_⟩, rfl, rfl⟩
    · simp [new.kept_iff]
    · exact fun free => ⟨new.kept_of_free free.left.tail, trivial⟩
  | .closure closure =>
    refine (laws.counts_closure closure).bind fun _ _ new => .pure ⟨⟨?_, ?_⟩, rfl, rfl⟩
    · simp [new.kept_iff]
    · exact fun free => ⟨new.kept_of_free free, trivial⟩

theorem counts_expr? (laws : t.Honest count bad) (expr : Option Expr) :
    Counts count (transformExpr? t expr) (Accounts bad (tokensOfExpr? expr) expr) := by
  match expr with
  | none => exact .pure (.refl _ _ _)
  | some expr =>
    refine (laws.counts_expr expr).bind fun _ _ new => .pure ⟨?_, ?_⟩
    · simp [new.1.kept_iff]
    · exact fun free => ⟨new.1.kept_of_free free, trivial⟩

theorem counts_argumentList (laws : t.Honest count bad) (list : ArgumentList) :
    Counts count (list.transform t) (Accounts bad list.tokens list) := by
  match list with
  | ⟨opener, arguments, closer⟩ =>
    refine (laws.counts_arguments arguments).bind fun _ _ new => .pure ⟨?_, ?_⟩
    · simp [new.kept_iff]
    · exact fun free => ⟨new.kept_of_free free.left.tail, trivial⟩

theorem counts_callArguments (laws : t.Honest count bad) (list : CallArguments) :
    Counts count (list.transform t) (Accounts bad list.tokens list) := by
  match list with
  | ⟨left, arguments, right⟩ =>
    refine (laws.counts_arguments arguments).bind fun _ _ new => .pure ⟨?_, ?_⟩
    · simp [new.kept_iff]
    · exact fun free => ⟨new.kept_of_free free.left.right, trivial⟩

theorem counts_arguments (laws : t.Honest count bad) (arguments : List Argument) :
    Counts count (transformArguments t arguments)
      (Accounts bad (tokensOfArguments arguments) arguments) := by
  match arguments with
  | [] => exact .pure (.refl _ _ _)
  | ⟨label, value, comma⟩ :: later =>
    refine (laws.counts_expr value).bind fun _ _ new =>
      (laws.counts_arguments later).bind fun _ _ laterNew => .pure ⟨?_, ?_⟩
    · simp [new.1.kept_iff, laterNew.kept_iff]
    · exact fun free => ⟨new.1.kept_of_free free.left.left.right,
        laterNew.kept_of_free free.right, trivial⟩

theorem counts_operands (laws : t.Honest count bad) (operands : List Expr)
    (operators : List Token) :
    Counts count (transformOperands t operands)
      (Accounts bad (tokensOfOperands operands operators) operands) := by
  match operands with
  | [] => exact .pure (.refl _ _ _)
  | operand :: later =>
    refine (laws.counts_expr operand).bind fun _ _ new =>
      (laws.counts_operands later operators.tail).bind fun _ _ laterNew => .pure ⟨?_, ?_⟩
    · simp [new.1.kept_iff, laterNew.kept_iff]
    · exact fun free => ⟨new.1.kept_of_free free.left.left, laterNew.kept_of_free free.right, trivial⟩

theorem counts_elements (laws : t.Honest count bad) (elements : List CollectionElement) :
    Counts count (transformElements t elements)
      (Accounts bad (tokensOfElements elements) elements) := by
  match elements with
  | [] => exact .pure (.refl _ _ _)
  | .value value comma :: later =>
    refine (laws.counts_expr value).bind fun _ _ new =>
      (laws.counts_elements later).bind fun _ _ laterNew => .pure ⟨?_, ?_⟩
    · simp [new.1.kept_iff, laterNew.kept_iff]
    · exact fun free => ⟨new.1.kept_of_free free.left.left,
        laterNew.kept_of_free free.right, trivial⟩
  | .entry key colon value comma :: later =>
    refine (laws.counts_expr key).bind fun _ _ keyNew =>
      (laws.counts_expr value).bind fun _ _ new =>
      (laws.counts_elements later).bind fun _ _ laterNew => .pure ⟨?_, ?_⟩
    · simp [keyNew.1.kept_iff, new.1.kept_iff, laterNew.kept_iff, and_assoc]
    · exact fun free => ⟨keyNew.1.kept_of_free free.left.left.left,
        new.1.kept_of_free free.left.left.right.tail, laterNew.kept_of_free free.right, trivial⟩

theorem counts_closure (laws : t.Honest count bad) (closure : Closure) :
    Counts count (closure.transform t) (Accounts bad closure.tokens closure) := by
  match closure with
  | ⟨left, signature, statements, right⟩ =>
    refine laws.closure _ _ ?_
    refine (laws.counts_statements statements).bind fun _ _ new => .pure ⟨?_, ?_⟩
    · simp [new.accounts.kept_iff]
    · exact fun free => ⟨new.accounts.kept_of_free free.left.right, trivial⟩

theorem counts_closure? (laws : t.Honest count bad) (closure : Option Closure) :
    Counts count (transformClosure? t closure)
      (Accounts bad (tokensOfClosure? closure) closure) := by
  match closure with
  | none => exact .pure (.refl _ _ _)
  | some closure =>
    refine (laws.counts_closure closure).bind fun _ _ new => .pure ⟨?_, ?_⟩
    · simp [new.kept_iff]
    · exact fun free => ⟨new.kept_of_free free, trivial⟩

theorem counts_statement (laws : t.Honest count bad) (statement : Statement) :
    Counts count (statement.transform t) (statement.Accounted bad) := by
  match statement with
  | ⟨item, semicolon⟩ =>
    refine (laws.counts_item item).bind fun _ _ new => .pure ⟨⟨?_, ?_⟩, new.2⟩
    · simp [new.1.kept_iff]
    · exact fun free => ⟨new.1.kept_of_free free.left, trivial⟩

/-- An honest transformer accounts for every statement list. -/
theorem counts_statements (laws : t.Honest count bad) (statements : List Statement) :
    Counts count (transformStatements t statements)
      (StatementsAccounted bad (tokensOfStatements statements) statements) := by
  match statements with
  | [] => exact .pure ⟨.refl _ _ _, Nat.le_refl _⟩
  | statement :: later =>
    have expanded := laws.statement statement _ (laws.counts_statement statement)
    refine expanded.bind fun _ newStatements new =>
      (laws.counts_statements later).bind fun _ newLater laterNew => .pure ⟨⟨?_, ?_⟩, ?_⟩
    · rw [new.accounts.kept_iff, laterNew.accounts.kept_iff, and_true]
      constructor
      · rintro ⟨rfl, rfl⟩
        rfl
      · -- Neither list is shorter than the one it replaces, so the two halves are of equal length.
        intro same
        have lengths := congrArg List.length same
        have newLength := new.length
        have laterLength := laterNew.length
        simp only [List.length_append, List.length_cons, List.length_nil] at lengths newLength
        exact List.append_inj (same.trans (List.singleton_append).symm) (by simp; omega)
    · exact fun free => ⟨new.accounts.kept_of_free free.left,
        laterNew.accounts.kept_of_free free.right, trivial⟩
    · have newLength := new.length
      have laterLength := laterNew.length
      simp only [List.length_append, List.length_cons, List.length_nil] at newLength ⊢
      omega

theorem counts_item (laws : t.Honest count bad) (item : Item) :
    Counts count (item.transform t) fun kept new => Accounts bad item.tokens item kept new ∧
      (Statement.ofItem new).expr?.isSome = (Statement.ofItem item).expr?.isSome := by
  -- In each case the new node is the old one exactly when its parts are, and they are when none of
  -- them has a bad token.
  match item with
  | .expr expr =>
    refine (laws.counts_expr expr).bind fun _ _ new => .pure ⟨⟨?_, ?_⟩, rfl⟩
    · simp [new.1.kept_iff]
    · exact fun free => ⟨new.1.kept_of_free free, trivial⟩
  | .decl decl =>
    refine (laws.counts_decl decl).bind fun _ _ new => .pure ⟨⟨?_, ?_⟩, rfl⟩
    · simp [new.kept_iff]
    · exact fun free => ⟨new.kept_of_free free, trivial⟩
  | .returning keyword value =>
    refine (laws.counts_expr? value).bind fun _ _ new => .pure ⟨⟨?_, ?_⟩, rfl⟩
    · simp [new.kept_iff]
    · exact fun free => ⟨new.kept_of_free free.tail, trivial⟩
  | .throwing keyword value =>
    refine (laws.counts_expr value).bind fun _ _ new => .pure ⟨⟨?_, ?_⟩, rfl⟩
    · simp [new.1.kept_iff]
    · exact fun free => ⟨new.1.kept_of_free free.tail, trivial⟩
  | .conditional statement =>
    refine (laws.counts_ifStatement statement).bind fun _ _ new => .pure ⟨⟨?_, ?_⟩, rfl⟩
    · simp [new.kept_iff]
    · exact fun free => ⟨new.kept_of_free free, trivial⟩
  | .guarding keyword conditions elseKeyword body =>
    refine (laws.counts_conditions conditions).bind fun _ _ conditionsNew =>
      (laws.counts_block body).bind fun _ _ bodyNew => .pure ⟨⟨?_, ?_⟩, rfl⟩
    · simp [conditionsNew.kept_iff, bodyNew.kept_iff]
    · exact fun free => ⟨conditionsNew.kept_of_free free.left.tail,
        bodyNew.kept_of_free free.right.tail, trivial⟩
  | .forIn keyword modifiers pattern type inKeyword sequence filter body =>
    refine (laws.counts_expr sequence).bind fun _ _ sequenceNew => .after (laws.enter _) <|
      (laws.counts_clause? filter).bind fun _ _ filterNew =>
      (laws.counts_block body).bind fun _ _ bodyNew => .after laws.leave <|
      .pure ⟨⟨?_, ?_⟩, rfl⟩
    · simp [sequenceNew.1.kept_iff, filterNew.kept_iff, bodyNew.kept_iff]
    · exact fun free => ⟨sequenceNew.1.kept_of_free free.left.left.right.tail,
        filterNew.kept_of_free free.left.right, bodyNew.kept_of_free free.right, trivial⟩
  | .whileLoop keyword conditions body =>
    refine .after (laws.enter _) <|
      (laws.counts_conditions conditions).bind fun _ _ conditionsNew =>
      (laws.counts_block body).bind fun _ _ bodyNew => .after laws.leave <|
      .pure ⟨⟨?_, ?_⟩, rfl⟩
    · simp [conditionsNew.kept_iff, bodyNew.kept_iff]
    · exact fun free => ⟨conditionsNew.kept_of_free free.left.tail,
        bodyNew.kept_of_free free.right, trivial⟩
  | .repeatLoop keyword body whileKeyword condition =>
    refine (laws.counts_block body).bind fun _ _ bodyNew =>
      (laws.counts_expr condition).bind fun _ _ conditionNew => .pure ⟨⟨?_, ?_⟩, rfl⟩
    · simp [bodyNew.kept_iff, conditionNew.1.kept_iff]
    · exact fun free => ⟨bodyNew.kept_of_free free.left.tail,
        conditionNew.1.kept_of_free free.right.tail, trivial⟩
  | .doCatch keyword throwsClause body catches =>
    refine (laws.counts_block body).bind fun _ _ bodyNew =>
      (laws.counts_catches catches).bind fun _ _ catchesNew => .pure ⟨⟨?_, ?_⟩, rfl⟩
    · simp [bodyNew.kept_iff, catchesNew.kept_iff]
    · exact fun free => ⟨bodyNew.kept_of_free free.left.right,
        catchesNew.kept_of_free free.right, trivial⟩
  | .switching keyword subject left cases right =>
    refine (laws.counts_expr subject).bind fun _ _ subjectNew =>
      (laws.counts_cases cases).bind fun _ _ casesNew => .pure ⟨⟨?_, ?_⟩, rfl⟩
    · simp [subjectNew.1.kept_iff, casesNew.kept_iff]
    · exact fun free => ⟨subjectNew.1.kept_of_free free.left.left.tail,
        casesNew.kept_of_free free.left.right.tail, trivial⟩
  | .deferring keyword body =>
    refine (laws.counts_block body).bind fun _ _ new => .pure ⟨⟨?_, ?_⟩, rfl⟩
    · simp [new.kept_iff]
    · exact fun free => ⟨new.kept_of_free free.tail, trivial⟩
  | .raw tokens => exact .pure ⟨.refl _ _ _, rfl⟩

theorem counts_block (laws : t.Honest count bad) (block : CodeBlock) :
    Counts count (block.transform t) (Accounts bad block.tokens block) := by
  match block with
  | ⟨left, statements, right⟩ =>
    refine .after (laws.enter _) <| (laws.counts_statements statements).bind fun _ _ new =>
      .after laws.leave <| .pure ⟨?_, ?_⟩
    · simp [new.accounts.kept_iff]
    · exact fun free => ⟨new.accounts.kept_of_free free.left.tail, trivial⟩

theorem counts_block? (laws : t.Honest count bad) (block : Option CodeBlock) :
    Counts count (transformBlock? t block) (Accounts bad (tokensOfBlock? block) block) := by
  match block with
  | none => exact .pure (.refl _ _ _)
  | some block =>
    refine (laws.counts_block block).bind fun _ _ new => .pure ⟨?_, ?_⟩
    · simp [new.kept_iff]
    · exact fun free => ⟨new.kept_of_free free, trivial⟩

theorem counts_ifStatement (laws : t.Honest count bad) (statement : IfStatement) :
    Counts count (statement.transform t) (Accounts bad statement.tokens statement) := by
  match statement with
  | ⟨keyword, conditions, body, alternative⟩ =>
    refine .after (laws.enter _) <|
      (laws.counts_conditions conditions).bind fun _ _ conditionsNew =>
      (laws.counts_block body).bind fun _ _ bodyNew => .after laws.leave <|
      (laws.counts_elseClause alternative).bind fun _ _ alternativeNew => .pure ⟨?_, ?_⟩
    · simp [conditionsNew.kept_iff, bodyNew.kept_iff, alternativeNew.kept_iff]
    · exact fun free => ⟨conditionsNew.kept_of_free free.left.left.tail,
        bodyNew.kept_of_free free.left.right, alternativeNew.kept_of_free free.right, trivial⟩

theorem counts_elseClause (laws : t.Honest count bad) (alternative : ElseClause) :
    Counts count (alternative.transform t) (Accounts bad alternative.tokens alternative) := by
  match alternative with
  | .absent => exact .pure (.refl _ _ _)
  | .block keyword body =>
    refine (laws.counts_block body).bind fun _ _ new => .pure ⟨?_, ?_⟩
    · simp [new.kept_iff]
    · exact fun free => ⟨new.kept_of_free free.tail, trivial⟩
  | .chained keyword next =>
    refine (laws.counts_ifStatement next).bind fun _ _ new => .pure ⟨?_, ?_⟩
    · simp [new.kept_iff]
    · exact fun free => ⟨new.kept_of_free free.tail, trivial⟩

theorem counts_conditions (laws : t.Honest count bad) (conditions : List Condition) :
    Counts count (transformConditions t conditions)
      (Accounts bad (tokensOfConditions conditions) conditions) := by
  match conditions with
  | [] => exact .pure (.refl _ _ _)
  | .expr expr comma :: later =>
    refine (laws.counts_expr expr).bind fun _ _ new =>
      (laws.counts_conditions later).bind fun _ _ laterNew => .pure ⟨?_, ?_⟩
    · simp [new.1.kept_iff, laterNew.kept_iff]
    · exact fun free => ⟨new.1.kept_of_free free.left.left,
        laterNew.kept_of_free free.right, trivial⟩
  | .binding specifier pattern type initializer comma :: later =>
    refine (laws.counts_clause? initializer).bind fun _ _ new => .after (laws.bind _) <|
      (laws.counts_conditions later).bind fun _ _ laterNew => .pure ⟨?_, ?_⟩
    · simp [new.kept_iff, laterNew.kept_iff]
    · exact fun free => ⟨new.kept_of_free free.left.left.right,
        laterNew.kept_of_free free.right, trivial⟩

theorem counts_clause (laws : t.Honest count bad) (clause : Clause) :
    Counts count (clause.transform t) (Accounts bad clause.tokens clause) := by
  match clause with
  | ⟨mark, value⟩ =>
    refine (laws.counts_expr value).bind fun _ _ new => .pure ⟨?_, ?_⟩
    · simp [new.1.kept_iff]
    · exact fun free => ⟨new.1.kept_of_free free.tail, trivial⟩

theorem counts_clause? (laws : t.Honest count bad) (clause : Option Clause) :
    Counts count (transformClause? t clause) (Accounts bad (tokensOfClause? clause) clause) := by
  match clause with
  | none => exact .pure (.refl _ _ _)
  | some clause =>
    refine (laws.counts_clause clause).bind fun _ _ new => .pure ⟨?_, ?_⟩
    · simp [new.kept_iff]
    · exact fun free => ⟨new.kept_of_free free, trivial⟩

theorem counts_catches (laws : t.Honest count bad) (catches : List CatchClause) :
    Counts count (transformCatches t catches)
      (Accounts bad (tokensOfCatches catches) catches) := by
  match catches with
  | [] => exact .pure (.refl _ _ _)
  | ⟨keyword, pattern, body⟩ :: later =>
    refine .after (laws.enter _) <| (laws.counts_block body).bind fun _ _ bodyNew =>
      .after laws.leave <| (laws.counts_catches later).bind fun _ _ laterNew => .pure ⟨?_, ?_⟩
    · simp [bodyNew.kept_iff, laterNew.kept_iff]
    · exact fun free => ⟨bodyNew.kept_of_free free.left.right,
        laterNew.kept_of_free free.right, trivial⟩

theorem counts_cases (laws : t.Honest count bad) (cases : List SwitchCase) :
    Counts count (transformCases t cases) (Accounts bad (tokensOfCases cases) cases) := by
  match cases with
  | [] => exact .pure (.refl _ _ _)
  | ⟨label, statements⟩ :: later =>
    refine (laws.counts_statements statements).bind fun _ _ statementsNew =>
      (laws.counts_cases later).bind fun _ _ laterNew => .pure ⟨?_, ?_⟩
    · simp [statementsNew.accounts.kept_iff, laterNew.kept_iff]
    · exact fun free => ⟨statementsNew.accounts.kept_of_free free.left.right,
        laterNew.kept_of_free free.right, trivial⟩

theorem counts_decl (laws : t.Honest count bad) (decl : Decl) :
    Counts count (decl.transform t) (Accounts bad decl.tokens decl) := by
  rw [Decl.transform.eq_def]
  refine laws.decl decl _ ?_
  match decl with
  | .importing decl | .raw decl => exact .pure (.refl _ _ _)
  | .type header members =>
    refine (laws.counts_block members).bind fun _ _ new => .pure ⟨?_, ?_⟩
    · simp [new.kept_iff]
    · exact fun free => ⟨new.kept_of_free free.right, trivial⟩
  | .function header body | .initializer header body | .finalizer header body =>
    refine (laws.counts_block? body).bind fun _ _ new => .pure ⟨?_, ?_⟩
    · simp [new.kept_iff]
    · exact fun free => ⟨new.kept_of_free free.right, trivial⟩
  | .variable header bindings =>
    refine (laws.counts_bindings bindings).bind fun _ _ new => .pure ⟨?_, ?_⟩
    · simp [new.kept_iff]
    · exact fun free => ⟨new.kept_of_free free.right, trivial⟩

theorem counts_bindings (laws : t.Honest count bad) (bindings : List PatternBinding) :
    Counts count (transformBindings t bindings)
      (Accounts bad (tokensOfBindings bindings) bindings) := by
  match bindings with
  | [] => exact .pure (.refl _ _ _)
  | ⟨pattern, type, initializer, accessor, comma⟩ :: later =>
    refine (laws.counts_clause? initializer).bind fun _ _ initializerNew =>
      (laws.counts_block? accessor).bind fun _ _ accessorNew =>
      (laws.counts_bindings later).bind fun _ _ laterNew => .pure ⟨?_, ?_⟩
    · simp [initializerNew.kept_iff, accessorNew.kept_iff, laterNew.kept_iff, and_assoc]
    · exact fun free => ⟨initializerNew.kept_of_free free.left.left.left.right,
        accessorNew.kept_of_free free.left.left.right, laterNew.kept_of_free free.right, trivial⟩

end

end Transformer.Honest

end SuiteMigration
