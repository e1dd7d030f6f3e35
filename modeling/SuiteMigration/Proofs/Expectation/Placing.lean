import Mathlib.Data.List.Basic
import Mathlib.Tactic.Common
import SuiteMigration.Proofs.Expectation.Redirecting
import SuiteMigration.Proofs.Tree.Lenses

/-!
# Redirecting a statement in another place

The statements of a handler are moved, with other trivia before them, and then redirected. It makes
no difference which of the two comes first: what redirecting does depends on the texts of names and
on the signatures of closures, and it keeps the first token of a statement the first.

The trivia before a node are those before the first of its parts that has tokens. So what is
to be shown of a node follows from the same of its parts up to this one. Redirecting does more than
to rebuild a node only at a name, alone or with a member behind it.

## Main definitions

* `Node.KeepsStart` - a change that does not depend on the trivia before a node

## Main results

* `Node.KeepsStart.ofPair`, `Node.KeepsStart.ofFirst` - the change of a node, given its parts
* `redirected_setLeading` - a statement may be redirected before it is moved
-/

namespace SuiteMigration

/-! ### Changes that do not depend on the trivia before a node -/

namespace Node

variable {α β γ : Type} [Node α] [Node β] [Node γ]

/-- The function changes a node in the same way whatever trivia stand before it, and it keeps
whether the node has tokens. -/
structure KeepsStart (change : α → α) (node : α) : Prop where
  tokens_eq_nil : tokens (change node) = [] ↔ tokens node = []
  setLeading : ∀ trivia, change (setLeading node trivia) = setLeading (change node) trivia

namespace KeepsStart

/-- Nothing is changed. -/
theorem refl (node : α) : KeepsStart id node :=
  ⟨Iff.rfl, fun _ => rfl⟩

theorem token {change : Token → Token} (token : Token)
    (commutes : ∀ trivia, change (token.withLeading trivia) = (change token).withLeading trivia) :
    KeepsStart change token :=
  ⟨iff_of_false (List.cons_ne_nil _ _) (List.cons_ne_nil _ _), commutes⟩

/-- A node is changed like its parts if it is put together from changed parts, also with other
trivia before them. -/
theorem ofStart {make : β → α} {change : α → α} {changeParts : β → β} {parts : β}
    (assembles : Assembles make) (keeps : KeepsStart changeParts parts)
    (change_eq : change (make parts) = make (changeParts parts))
    (moved_eq : ∀ trivia, change (make (Node.setLeading parts trivia)) =
      make (changeParts (Node.setLeading parts trivia))) :
    KeepsStart change (make parts) := by
  constructor
  · rw [change_eq, assembles.tokens_eq, assembles.tokens_eq]
    exact keeps.tokens_eq_nil
  · intro trivia
    rw [assembles.setLeading, moved_eq, change_eq, keeps.setLeading, assembles.setLeading]

/-- A node keeps its start if its parts do. -/
theorem ofParts {make : β → α} {change : α → α} {changeParts : β → β} {parts : β}
    (assembles : Assembles make) (keeps : KeepsStart changeParts parts)
    (change_eq : ∀ parts, change (make parts) = make (changeParts parts)) :
    KeepsStart change (make parts) :=
  ofStart assembles keeps (change_eq parts) fun _ => change_eq _

variable [Refillable α] [Refillable β] {changeFirst : α → α} {changeRest : β → β} {first : α}
  {rest : β}

/-- The first of two parts keeps its start and the rest keeps its own, for where the first is empty.
-/
theorem pair (keepsFirst : KeepsStart changeFirst first)
    (keepsRest : KeepsStart changeRest rest) :
    KeepsStart (Prod.map changeFirst changeRest) (first, rest) := by
  by_cases empty : tokens first = []
  · -- The trivia before the pair are those before the second part, before and after the change.
    have newEmpty := keepsFirst.tokens_eq_nil.2 empty
    constructor
    · show tokens (changeFirst first) ++ tokens (changeRest rest) = [] ↔
        tokens first ++ tokens rest = []
      rw [newEmpty, empty, List.nil_append, List.nil_append]
      exact keepsRest.tokens_eq_nil
    · intro trivia
      rw [setLeading_pair_of_eq_nil empty, Prod.map_apply, Prod.map_apply,
        setLeading_pair_of_eq_nil newEmpty, keepsRest.setLeading]
  · -- They are those before the first part, and the second part does not matter.
    have newNonempty := mt keepsFirst.tokens_eq_nil.1 empty
    constructor
    · show tokens (changeFirst first) ++ tokens (changeRest rest) = [] ↔
        tokens first ++ tokens rest = []
      rw [List.append_eq_nil_iff, List.append_eq_nil_iff]
      exact iff_of_false (mt And.left newNonempty) (mt And.left empty)
    · intro trivia
      rw [setLeading_pair_of_ne_nil empty, Prod.map_apply, Prod.map_apply,
        setLeading_pair_of_ne_nil newNonempty, keepsFirst.setLeading]

theorem ofPair {make : α × β → γ} {change : γ → γ} (assembles : Assembles make)
    (keepsFirst : KeepsStart changeFirst first) (keepsRest : KeepsStart changeRest rest)
    (change_eq : ∀ parts, change (make parts) = make (parts.map changeFirst changeRest)) :
    KeepsStart change (make (first, rest)) :=
  ofParts assembles (keepsFirst.pair keepsRest) change_eq

/-- A node that begins with a part that stays. -/
theorem ofFirst {make : α × β → γ} {change : γ → γ} (assembles : Assembles make) (first : α)
    (nonempty : tokens first ≠ []) (rest newRest : β)
    (change_eq : ∀ first, change (make (first, rest)) = make (first, newRest)) :
    KeepsStart change (make (first, rest)) := by
  constructor
  · rw [change_eq, assembles.tokens_eq, assembles.tokens_eq]
    exact iff_of_false (List.append_ne_nil_of_left_ne_nil nonempty _)
      (List.append_ne_nil_of_left_ne_nil nonempty _)
  · intro trivia
    rw [assembles.setLeading_first nonempty, change_eq, change_eq,
      assembles.setLeading_first nonempty]

/-- A node that begins with a token. -/
theorem ofToken {make : Token × β → γ} {change : γ → γ} (assembles : Assembles make)
    (token : Token) (rest newRest : β)
    (change_eq : ∀ token, change (make (token, rest)) = make (token, newRest)) :
    KeepsStart change (make (token, rest)) :=
  ofFirst assembles token (List.cons_ne_nil _ _) rest newRest change_eq

end KeepsStart

end Node

open Node (KeepsStart)

/-! ### Redirecting and the trivia before a statement -/

section

variable (parameter : String)

/-- What redirecting makes of a node. -/
def redirecting {α : Type} (action : Transformer Unit → α → StateM Unit α) (node : α) : α :=
  (action (redirect parameter) node ()).1

theorem ArgumentList.keepsStart (list : ArgumentList) :
    KeepsStart (redirecting parameter ArgumentList.transform) list := by
  obtain ⟨opener, arguments, closer⟩ := list
  exact .ofToken ArgumentList.assembles opener (arguments, closer) (_, _) fun _ => rfl

theorem Closure.keepsStart (closure : Closure) :
    KeepsStart (redirecting parameter Closure.transform) closure := by
  obtain ⟨left, signature, statements, right⟩ := closure
  -- Whether the closure binds the parameter anew depends on its signature.
  by_cases shadows : Closure.shadows ⟨left, signature, statements, right⟩ parameter = true
  · exact .ofToken Closure.assembles left (signature, statements, right)
      (signature, statements, right) fun _ =>
        congrArg (fun action : StateM Unit Closure => (action ()).1) (if_pos shadows)
  · exact .ofToken Closure.assembles left (signature, statements, right) (_, _, _) fun _ =>
      congrArg (fun action : StateM Unit Closure => (action ()).1) (if_neg shadows)

theorem keepsStart_closure? (closure : Option Closure) :
    KeepsStart (redirecting parameter transformClosure?) closure := by
  cases closure with
  | none => exact .ofParts assembles_none (.refl ()) fun _ => rfl
  | some closure => exact .ofParts assembles_some (closure.keepsStart parameter) fun _ => rfl

theorem IfStatement.keepsStart (statement : IfStatement) :
    KeepsStart (redirecting parameter IfStatement.transform) statement := by
  obtain ⟨keyword, conditions, body, alternative⟩ := statement
  exact .ofToken IfStatement.assembles keyword (conditions, body, alternative) (_, _, _)
    fun _ => rfl

/-- It keeps the trivia in front of a declaration. -/
theorem Decl.keepsStart (decl : Decl) :
    KeepsStart (redirecting parameter Decl.transform) decl := by
  rcases decl with decl | ⟨header, members⟩ | ⟨header, body⟩ | ⟨header, bindings⟩ |
    ⟨header, body⟩ | ⟨header, body⟩ | decl
  · exact .ofParts Decl.assembles_importing (.refl decl) fun _ => rfl
  · exact .ofFirst Decl.assembles_type header (by simp [Node.tokens]) members _ fun _ => rfl
  · exact .ofFirst Decl.assembles_function header (by simp [Node.tokens]) body _ fun _ => rfl
  · exact .ofFirst Decl.assembles_variable header (by simp [Node.tokens]) bindings _ fun _ => rfl
  · exact .ofFirst Decl.assembles_initializer header (by simp [Node.tokens]) body _ fun _ => rfl
  · exact .ofFirst Decl.assembles_finalizer header (by simp [Node.tokens]) body _ fun _ => rfl
  · exact .ofParts Decl.assembles_raw (.refl decl) fun _ => rfl

theorem Expr.name?_setLeading (expr : Expr) (trivia : Trivia) :
    (Node.setLeading expr trivia).name? = expr.name? := by
  cases expr <;> rfl

/-- A name that is redirected keeps the trivia in front of it. -/
theorem keepsStart_identifier (token : Token) :
    KeepsStart (redirecting parameter Expr.transform) (.identifier token) := by
  have change_eq (token : Token) : redirecting parameter Expr.transform (.identifier token) =
      .identifier (if token.text == parameter then redirected token else token) := by
    show ((if token.text == parameter then pure (.identifier (redirected token))
      else pure (.identifier token) : StateM Unit Expr) ()).1 = _
    split <;> rfl
  refine .ofParts Expr.assembles_identifier (.token token fun trivia => ?_) change_eq
  show (if token.text == parameter then _ else _) = _
  split <;> rfl

/-- A member of anything but the parameter is redirected in its base. -/
theorem redirecting_member {base : Option Expr} (other : base.bind Expr.name? ≠ some parameter)
    (period name : Token) :
    redirecting parameter Expr.transform (.member base period name) =
      .member (redirecting parameter transformExpr? base) period name := by
  have unreferred : (references parameter).expr (.member base period name) = false := by
    rw [references_expr]
    exact beq_false_of_ne other
  exact congrArg (fun action : StateM Unit Expr => (action ()).1)
    (redirect_expr_of_other unreferred _)

theorem name?_setLeading_base (base : Option Expr) (rest : Token × Token) (trivia : Trivia) :
    (Node.setLeading (base, rest) trivia).1.bind Expr.name? = base.bind Expr.name? := by
  by_cases empty : Node.tokens base = []
  · rw [Node.setLeading_pair_of_eq_nil empty]
  · rw [Node.setLeading_pair_of_ne_nil empty]
    cases base with
    | none => rfl
    | some base => exact Expr.name?_setLeading base trivia

/-- A member of the parameter keeps the trivia in front of the parameter. -/
theorem keepsStart_parameter_member {token : Token} (named : token.text = parameter)
    (period name : Token) :
    KeepsStart (redirecting parameter Expr.transform)
      (.member (some (.identifier token)) period name) := by
  have redirected_eq {token : Token} (named : token.text = parameter) :
      redirecting parameter Expr.transform (.member (some (.identifier token)) period name) =
        .member (some (optionalError token)) period name :=
    transform_member named period name
  constructor
  · rw [redirected_eq named]
    exact iff_of_false (List.cons_ne_nil _ _) (List.cons_ne_nil _ _)
  · intro trivia
    rw [redirected_eq named]
    exact redirected_eq named

theorem keepsStart_member {base : Option Expr}
    (keeps : KeepsStart (redirecting parameter transformExpr?) base) (period name : Token) :
    KeepsStart (redirecting parameter Expr.transform) (.member base period name) := by
  by_cases same : base.bind Expr.name? = some parameter
  · obtain ⟨inner, rfl, named⟩ := Option.bind_eq_some_iff.1 same
    cases inner with
    | identifier token => exact keepsStart_parameter_member parameter (Option.some.inj named) ..
    | _ => cases named
  · -- With other trivia before it the base is no other name, so it is still rebuilt.
    have parts := keeps.pair (.refl (period, name))
    have moved (trivia : Trivia) := redirecting_member parameter
      (ne_of_eq_of_ne (name?_setLeading_base base (period, name) trivia) same)
    exact (KeepsStart.ofStart Expr.assembles_member parts
      (redirecting_member parameter same period name) fun trivia => moved trivia _ _ :)

/-- What redirecting makes of the operands of a sequence. -/
def OperatorRow.redirecting (row : OperatorRow) : OperatorRow :=
  { row with operands := SuiteMigration.redirecting parameter transformOperands row.operands }

-- The recursion goes down to the parts that can come first. Behind a token that comes first, anything
-- may change.
mutual

/-- Redirecting references keeps the trivia in front of an expression. -/
theorem Expr.keepsStart : ∀ expr : Expr,
    KeepsStart (redirecting parameter Expr.transform) expr
  | .identifier token => keepsStart_identifier parameter token
  | .literal token => .ofParts Expr.assembles_literal (.refl token) fun _ => rfl
  | .raw run => .ofParts Expr.assembles_raw (.refl run) fun _ => rfl
  | .member none period name =>
    keepsStart_member parameter (.ofParts assembles_none (.refl ()) fun _ => rfl) period name
  | .member (some base) period name =>
    keepsStart_member parameter
      (.ofParts assembles_some (Expr.keepsStart base) fun _ => rfl) period name
  | .call callee list trailing =>
    .ofPair Expr.assembles_call (Expr.keepsStart callee)
      ((CallArguments.keepsStart list).pair (keepsStart_closure? parameter trailing)) fun _ => rfl
  | .index base arguments =>
    .ofPair Expr.assembles_index (Expr.keepsStart base) (arguments.keepsStart parameter)
      fun _ => rfl
  | .sequence operands operators =>
    have change_eq (row : OperatorRow) :
        redirecting parameter Expr.transform (.sequence row.operands row.operators) =
          .sequence (row.redirecting parameter).operands (row.redirecting parameter).operators := rfl
    (KeepsStart.ofParts Expr.assembles_sequence (keepsStart_operands operands operators) change_eq :)
  | .prefixed operator operand =>
    .ofToken Expr.assembles_prefixed operator operand _ fun _ => rfl
  | .suffixed operand operator =>
    .ofPair Expr.assembles_suffixed (Expr.keepsStart operand) (.refl operator) fun _ => rfl
  | .trying keyword mark operand =>
    .ofToken Expr.assembles_trying keyword (mark, operand) (_, _) fun _ => rfl
  | .awaiting keyword operand =>
    .ofToken Expr.assembles_awaiting keyword operand _ fun _ => rfl
  | .tuple elements =>
    .ofParts Expr.assembles_tuple (elements.keepsStart parameter) fun _ => rfl
  | .collection left elements right =>
    .ofToken Expr.assembles_collection left (elements, right) (_, _) fun _ => rfl
  | .closure inner => .ofParts Expr.assembles_closure (inner.keepsStart parameter) fun _ => rfl
  | .specialized base arguments =>
    .ofPair Expr.assembles_specialized (Expr.keepsStart base) (.refl arguments) fun _ => rfl

theorem CallArguments.keepsStart : ∀ list : CallArguments,
    KeepsStart (redirecting parameter CallArguments.transform) list
  | ⟨left, arguments, right⟩ =>
    .ofPair CallArguments.assembles (.refl left)
      ((keepsStart_arguments arguments).pair (.refl right)) fun _ => rfl

theorem keepsStart_arguments : ∀ arguments : List Argument,
    KeepsStart (redirecting parameter transformArguments) arguments
  | [] => .ofParts assembles_nil (.refl ()) fun _ => rfl
  | ⟨label, value, comma⟩ :: later =>
    have first : KeepsStart (fun argument : Argument =>
        { argument with value := redirecting parameter Expr.transform argument.value })
        ⟨label, value, comma⟩ :=
      .ofPair Argument.assembles (.refl label) ((Expr.keepsStart value).pair (.refl comma))
        fun _ => rfl
    .ofPair assembles_cons first (keepsStart_arguments later) fun (⟨_, _, _⟩, _) => rfl

theorem keepsStart_operands : ∀ (operands : List Expr) (operators : List Token),
    KeepsStart (OperatorRow.redirecting parameter) ⟨operands, operators⟩
  | [], operators =>
    have change_eq (_ : Unit) :
        OperatorRow.redirecting parameter ⟨[], operators⟩ = ⟨[], operators⟩ := rfl
    (KeepsStart.ofParts (OperatorRow.assembles_nil operators) (.refl ()) change_eq :)
  | operand :: later, [] =>
    have keeps : KeepsStart (redirecting parameter transformOperands)
        (operand :: later) :=
      .ofPair assembles_cons (Expr.keepsStart operand) (keepsStart_exprs later) fun _ => rfl
    have change_eq (operands : List Expr) : OperatorRow.redirecting parameter ⟨operands, []⟩ =
        ⟨redirecting parameter transformOperands operands, []⟩ := rfl
    (KeepsStart.ofParts OperatorRow.assembles_operands keeps change_eq :)
  | operand :: later, operator :: operators =>
    .ofPair OperatorRow.assembles_cons (Expr.keepsStart operand)
      ((KeepsStart.refl operator).pair (keepsStart_operands later operators)) fun _ => rfl

theorem keepsStart_exprs : ∀ operands : List Expr,
    KeepsStart (redirecting parameter transformOperands) operands
  | [] => .ofParts assembles_nil (.refl ()) fun _ => rfl
  | operand :: later =>
    .ofPair assembles_cons (Expr.keepsStart operand) (keepsStart_exprs later) fun _ => rfl

end

/-- It keeps the trivia in front of what a statement does. -/
theorem Item.keepsStart (item : Item) :
    KeepsStart (redirecting parameter Item.transform) item := by
  cases item with
  | expr inner => exact .ofParts Item.assembles_expr (inner.keepsStart parameter) fun _ => rfl
  | decl inner => exact .ofParts Item.assembles_decl (inner.keepsStart parameter) fun _ => rfl
  | returning keyword value => exact .ofToken Item.assembles_returning keyword value _ fun _ => rfl
  | throwing keyword value => exact .ofToken Item.assembles_throwing keyword value _ fun _ => rfl
  | conditional statement =>
    exact .ofParts Item.assembles_conditional (statement.keepsStart parameter) fun _ => rfl
  | guarding keyword conditions elseKeyword body =>
    exact .ofToken Item.assembles_guarding keyword (conditions, elseKeyword, body) (_, _, _)
      fun _ => rfl
  | forIn keyword modifiers pattern type inKeyword sequence filter body =>
    exact .ofToken Item.assembles_forIn keyword
      (modifiers, pattern, type, inKeyword, sequence, filter, body) (_, _, _, _, _, _, _)
      fun _ => rfl
  | whileLoop keyword conditions body =>
    exact .ofToken Item.assembles_whileLoop keyword (conditions, body) (_, _) fun _ => rfl
  | repeatLoop keyword body whileKeyword condition =>
    exact .ofToken Item.assembles_repeatLoop keyword (body, whileKeyword, condition) (_, _, _)
      fun _ => rfl
  | doCatch keyword throwsClause body catches =>
    exact .ofToken Item.assembles_doCatch keyword (throwsClause, body, catches) (_, _, _)
      fun _ => rfl
  | switching keyword subject left branches right =>
    exact .ofToken Item.assembles_switching keyword (subject, left, branches, right)
      (_, _, _, _) fun _ => rfl
  | deferring keyword body => exact .ofToken Item.assembles_deferring keyword body _ fun _ => rfl
  | raw run => exact .ofParts Item.assembles_raw (.refl run) fun _ => rfl

/-- It keeps the trivia in front of a statement. -/
theorem Statement.keepsStart (statement : Statement) :
    KeepsStart (redirecting parameter Statement.transform) statement := by
  obtain ⟨item, semicolon⟩ := statement
  exact .ofPair Statement.assembles (item.keepsStart parameter) (.refl semicolon) fun _ => rfl

end

/-- A statement may be redirected before it is moved. -/
theorem redirected_setLeading (statement : Statement) (trivia : Trivia)
    (parameter : Option String) :
    (Node.setLeading statement trivia).redirected parameter =
      Node.setLeading (statement.redirected parameter) trivia := by
  cases parameter with
  | none => rfl
  | some parameter => exact (statement.keepsStart parameter).setLeading trivia

end SuiteMigration
