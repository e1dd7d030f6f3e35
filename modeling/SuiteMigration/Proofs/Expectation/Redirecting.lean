import Mathlib.Data.List.Basic
import Mathlib.Tactic.Common
import SuiteMigration.Expectation.Throwing
import SuiteMigration.Proofs.Tree.Reworking

/-!
# Redirecting the parameter of a handler

The references to the parameter of a handler are redirected to the bound error. A statement is cut
at these references, at the members of the parameter and at the closures that bind the parameter
anew: the first become `error`, the second become members of `error?`, and the last stay as they
are, like every token in between. So no reference is missed, nothing is redirected twice, and a
second redirection finds nothing to do.

## Main definitions

* `references` - the places where a name is redirected, and where redirecting stops
* `Statement.shadowing` - the outermost closures of a statement that bind a name anew
* `Part.redirectedTexts` - the texts of a part with its reference redirected
* `RedirectsReferences` - what redirecting makes of a statement

## Main results

* `reworks_redirect` - the transformer works at the references only
* `redirects_references` - every reference is redirected, just once, and nothing else is
-/

namespace SuiteMigration

/-! ### The places of a name -/

/-- A tree is cut where it refers to a name or to a member of it, and where a closure binds the name
anew. -/
def references (parameter : String) : Stops where
  expr
    | .identifier token => token.text == parameter
    | .member (some (.identifier token)) _ _ => token.text == parameter
    | _ => false
  closure closure := closure.shadows parameter

/-- An expression with the head refers to a name or to a member of it. -/
def Head.refersTo (parameter : String) : Head → Bool
  | .name token => token.text == parameter
  | .member base => base == some parameter
  | _ => false

/-- An expression refers to the parameter when its head does. -/
theorem references_expr (parameter : String) (expr : Expr) :
    (references parameter).expr expr = expr.head.refersTo parameter := by
  cases expr with
  | member base period name =>
    cases base with
    | none => rfl
    | some base => cases base <;> rfl
  | _ => rfl

/-- What becomes of a name. -/
def redirectedName (parameter name : String) : String :=
  if name = parameter then errorName else name

/-- Redirecting names within an expression makes no reference of it. -/
theorem Head.refersTo_rename {parameter : String} {head : Head}
    (other : head.refersTo parameter = false) :
    (head.rename (redirectedName parameter)).refersTo parameter = false := by
  cases head with
  | member base =>
    cases base with
    | none => rfl
    | some name =>
      have ne : name ≠ parameter := by simpa [Head.refersTo] using other
      simp [Head.rename, redirectedName, ne, Head.refersTo]
  | _ => exact other

/-- Renaming the head renames the name of the expression. -/
theorem Head.name?_rename {parameter : String} {head : Head}
    (other : head.refersTo parameter = false) :
    (head.rename (redirectedName parameter)).name? =
      head.name?.map (redirectedName parameter) := by
  cases head with
  | name token =>
    have ne : token.text ≠ parameter := by simpa [Head.refersTo] using other
    simp [Head.rename, Head.name?, redirectedName, ne]
  | _ => rfl

/-- A reference is the name itself or a member of it. -/
theorem exists_of_references {parameter : String} {expr : Expr}
    (stop : (references parameter).expr expr = true) :
    ∃ token : Token, token.text = parameter ∧
      (expr = .identifier token ∨
        ∃ period name, expr = .member (some (.identifier token)) period name) := by
  unfold references at stop
  simp only at stop
  split at stop
  · rename_i token
    exact ⟨token, by simpa using stop, .inl rfl⟩
  · rename_i token period name
    exact ⟨token, by simpa using stop, .inr ⟨period, name, rfl⟩⟩
  · cases stop

/-! ### The transformer -/

/-- An expression that does not refer to the parameter is left to its parts. -/
theorem redirect_expr_of_other {parameter : String} {expr : Expr}
    (other : (references parameter).expr expr = false) (parts : StateM Unit Expr) :
    (redirect parameter).expr expr parts = parts := by
  unfold references at other
  simp only [redirect]
  split
  · simp_all
  · simp_all
  · rfl

theorem redirect_identifier {parameter : String} {token : Token}
    (same : token.text = parameter) (parts : StateM Unit Expr) :
    (redirect parameter).expr (.identifier token) parts =
      pure (.identifier (redirected token)) :=
  if_pos (beq_iff_eq.2 same)

theorem redirect_member {parameter : String} {token : Token} (same : token.text = parameter)
    (period name : Token) (parts : StateM Unit Expr) :
    (redirect parameter).expr (.member (some (.identifier token)) period name) parts =
      pure (.member (some (optionalError token)) period name) :=
  if_pos (beq_iff_eq.2 same)

/-- The renamer reworks the references to the parameter and nothing else. -/
theorem reworks_redirect (parameter : String) :
    (redirect parameter).Reworks (references parameter) (references parameter)
      (redirectedName parameter) where
  pass {old new parts} other head settles := by
    have unreferred := other
    rw [references_expr] at unreferred
    refine ⟨?_, ?_, ?_⟩
    · rwa [redirect_expr_of_other other]
    · rw [references_expr, head]
      exact Head.refersTo_rename unreferred
    · rw [Expr.name?_eq, Expr.name?_eq, head]
      exact Head.name?_rename unreferred
  stop {old parts} stop _ := by
    obtain ⟨token, same, rfl | ⟨period, name, rfl⟩⟩ := exists_of_references stop
    · rw [redirect_identifier same]
      refine .pure (congrArg some ?_)
      rw [redirectedName, if_pos same]
      rfl
    · rw [redirect_member same]
      exact .pure rfl
  passClosure other := if_neg (by simp [show Closure.shadows _ _ = false from other])
  stopClosure shadows := if_pos shadows
  signature _ _ _ _ _ := rfl
  decl _ _ := rfl
  statement _ _ := rfl

/-! ### What becomes of a reference -/

section

variable {parameter : String} {token : Token}

theorem transform_identifier (same : token.text = parameter) :
    ((Expr.identifier token).transform (redirect parameter) ()).1 =
      .identifier (redirected token) :=
  congrArg (fun action => (action ()).1) (redirect_identifier same _)

theorem transform_member (same : token.text = parameter) (period name : Token) :
    ((Expr.member (some (.identifier token)) period name).transform (redirect parameter) ()).1 =
      .member (some (optionalError token)) period name :=
  congrArg (fun action => (action ()).1) (redirect_member same period name _)

/-- The part is a token, or the parameter is `error` and the part is a reference to it. -/
def Part.IsRedirected (parameter : String) : Part → Prop
  | .token _ => True
  | .expr inner => ∃ token : Token, inner = .identifier token ∧ token.text = errorName ∧
      parameter = errorName
  | .closure _ => False

/-- Loose tokens hold no reference. -/
theorem isRedirected_loose (run : List Token) :
    ∀ part ∈ loose run, part.IsRedirected parameter :=
  List.forall_mem_map.2 fun _ _ => trivial

theorem isRedirected_cut_identifier (named : token.text = errorName) :
    ∀ part ∈ (Expr.identifier token).cut (references parameter),
      part.IsRedirected parameter := by
  have cut_eq : (Expr.identifier token).cut (references parameter) =
      if token.text == parameter then [.expr (.identifier token)] else [.token token] := rfl
  rw [cut_eq]
  by_cases same : token.text = parameter
  · rw [if_pos (beq_iff_eq.2 same)]
    exact List.forall_mem_singleton.2 ⟨token, rfl, named, same.symm.trans named⟩
  · rw [if_neg (by simpa using same)]
    exact List.forall_mem_singleton.2 trivial

/-- Redirecting a reference leaves tokens, and a reference only if the parameter is `error`. -/
theorem isRedirected_cut_transform {expr : Expr}
    (stop : (references parameter).expr expr = true) :
    ∀ part ∈ (expr.transform (redirect parameter) ()).1.cut (references parameter),
      part.IsRedirected parameter := by
  obtain ⟨token, same, rfl | ⟨period, name, rfl⟩⟩ := exists_of_references stop
  · rw [transform_identifier same]
    exact isRedirected_cut_identifier rfl
  · rw [transform_member same]
    -- The base is `error?` now, and that is no name.
    have base : ∀ part ∈ (optionalError token).cut (references parameter),
        part.IsRedirected parameter :=
      List.forall_mem_append.2 ⟨isRedirected_cut_identifier rfl, isRedirected_loose _⟩
    exact List.forall_mem_append.2 ⟨base, isRedirected_loose _⟩

end

/-! ### A statement after redirecting -/

/-- The visit is a name that is an expression. -/
def Visit.isName (name : String) : Visit → Bool
  | .expr inner => inner.isName name
  | _ => false

/-- The closure at which a tree was cut. -/
def Part.closure? : Part → Option Closure
  | .closure inner => some inner
  | _ => none

/-- The texts of the tokens of a part. -/
def Part.texts (part : Part) : List String :=
  part.tokens.map Token.text

/-- The texts of a part after redirecting: a reference is `error`, and a member of the parameter is
one of `error?`. -/
def Part.redirectedTexts : Part → List String
  | .expr (.identifier _) => [errorName]
  | .expr (.member _ period name) => [errorName, "?", period.text, name.text]
  | part => part.texts

/-- The outermost closures of a statement that bind a name anew. -/
def Statement.shadowing (statement : Statement) (parameter : String) : List Closure :=
  (statement.cut (references parameter)).filterMap Part.closure?

/-- Every name that is the parameter is an expression at which the tree is cut. -/
theorem finds_isName (parameter : String) :
    (references parameter).Finds (Visit.isName parameter) where
  expr expr other := by
    cases expr with
    | identifier token => exact other
    | _ => rfl
  closure _ := rfl
  decl _ := rfl
  binds _ := rfl

section

variable (statement : Statement) (parameter : String)

/-- The redirected statement is cut where the old one was, each reference reworked. -/
theorem cut_redirected :
    (statement.redirected (some parameter)).cut (references parameter) =
      (statement.cut (references parameter)).flatMap
        (Part.reworked (redirect parameter) () (references parameter)) :=
  (reworks_redirect parameter).cut_statement () statement

/-- A part of the new statement is a token, a closure, or a reference that is `error` already. -/
theorem isRedirected_or_closure :
    ∀ part ∈ (statement.redirected (some parameter)).cut (references parameter),
      part.IsRedirected parameter ∨ ∃ closure, part = .closure closure := by
  have stops := ((references parameter).finds_nothing.statement_covers statement).isStop
  rw [cut_redirected]
  intro new member
  obtain ⟨part, old, becomes⟩ := List.mem_flatMap.1 member
  match part with
  | .token token =>
    obtain rfl := List.mem_singleton.1 becomes
    exact .inl trivial
  | .closure closure =>
    obtain rfl := List.mem_singleton.1 becomes
    exact .inr ⟨closure, rfl⟩
  | .expr expr => exact .inl (isRedirected_cut_transform (stops (.expr expr) old) new becomes)

/-- The closures that shadow the parameter are the same after the renaming. -/
theorem shadowing_redirected :
    (statement.redirected (some parameter)).shadowing parameter =
      statement.shadowing parameter := by
  have stops := ((references parameter).finds_nothing.statement_covers statement).isStop
  unfold Statement.shadowing
  rw [cut_redirected, List.filterMap_flatMap, List.filterMap_eq_flatMap_toList]
  apply List.flatMap_congr
  intro part member
  match part with
  | .token token => rfl
  | .closure closure => rfl
  | .expr expr =>
    have redirected := isRedirected_cut_transform (stops (.expr expr) member)
    refine List.filterMap_eq_nil_iff.2 fun new becomes => ?_
    have isRedirected := redirected new becomes
    cases new with
    | closure _ => exact isRedirected.elim
    | _ => rfl

/-- The texts of a redirected statement are the old ones but at the references. -/
theorem texts_redirected :
    (statement.redirected (some parameter)).tokens.map Token.text =
      (statement.cut (references parameter)).flatMap Part.redirectedTexts := by
  have stops := ((references parameter).finds_nothing.statement_covers statement).isStop
  rw [← Statement.tokens_cut (references parameter), cut_redirected, List.flatMap_assoc,
    List.map_flatMap]
  apply List.flatMap_congr
  intro part member
  match part with
  | .token token => rfl
  | .closure closure => exact congrArg (List.map Token.text) (List.flatMap_singleton ..)
  | .expr expr =>
    show (((expr.transform (redirect parameter) ()).1.cut _).flatMap Part.tokens).map _ = _
    rw [Expr.tokens_cut]
    obtain ⟨token, same, rfl | ⟨period, name, rfl⟩⟩ := exists_of_references (stops _ member)
    · rw [transform_identifier same]
      rfl
    · rw [transform_member same]
      rfl

/-- Redirecting a second time changes nothing. -/
theorem redirected_redirected :
    (statement.redirected (some parameter)).redirected (some parameter) =
      statement.redirected (some parameter) := by
  refine (reworks_redirect parameter).transform_statement_eq_self () fun part member => ?_
  obtain isRedirected | ⟨closure, rfl⟩ := isRedirected_or_closure statement parameter part member
  · match part with
    | .token _ => exact trivial
    | .expr expr =>
      obtain ⟨token, rfl, named, same⟩ := isRedirected
      -- A reference to `error` becomes what it is.
      refine (transform_identifier (named.trans same.symm)).trans (congrArg Expr.identifier ?_)
      rw [redirected, ← named]
  · exact trivial

/-- The names met in a statement after redirecting are met in the closures that bind the parameter
anew. -/
theorem names_redirected (other : parameter ≠ errorName) :
    ((statement.redirected (some parameter)).walk .everywhere).filter (Visit.isName parameter) =
      ((statement.redirected (some parameter)).shadowing parameter).flatMap fun closure =>
        (closure.walk .everywhere).filter (Visit.isName parameter) := by
  rw [((finds_isName parameter).statement_covers _).visits_eq, Statement.shadowing,
    List.filterMap_eq_flatMap_toList, List.flatMap_assoc]
  apply List.flatMap_congr
  intro part member
  obtain isRedirected | ⟨closure, rfl⟩ := isRedirected_or_closure statement parameter part member
  · match part with
    | .token _ => rfl
    | .expr expr =>
      obtain ⟨_, _, _, same⟩ := isRedirected
      exact absurd same other
  · exact (List.flatMap_singleton ..).symm

end

/-- The second statement is the first with its references to the parameter redirected. -/
structure RedirectsReferences (parameter : String) (old new : Statement) : Prop where
  /-- No reference is left: the parameter is met only in the closures that bind it anew. -/
  complete : parameter ≠ errorName →
    (new.walk .everywhere).filter (Visit.isName parameter) =
      (new.shadowing parameter).flatMap fun closure =>
        (closure.walk .everywhere).filter (Visit.isName parameter)
  /-- The closures that bind the parameter anew are those of the first statement. -/
  kept : new.shadowing parameter = old.shadowing parameter
  /-- The texts of the first statement are those of its parts. -/
  oldTexts : old.tokens.map Token.text = (old.cut (references parameter)).flatMap Part.texts
  /-- The texts of the second one are the same but for the references: the parameter is `error`,
  with a mark behind it where a member of it follows. -/
  newTexts : new.tokens.map Token.text =
    (old.cut (references parameter)).flatMap Part.redirectedTexts
  /-- Redirecting once more changes nothing. -/
  settled : new.redirected (some parameter) = new

/-- Redirecting a parameter is complete, stays out of the closures that bind it anew, changes just
the references, and does all of this at once. -/
theorem redirects_references (statement : Statement) (parameter : String) :
    RedirectsReferences parameter statement (statement.redirected (some parameter)) where
  complete := names_redirected statement parameter
  kept := shadowing_redirected statement parameter
  oldTexts := by
    rw [← Statement.tokens_cut (references parameter), List.map_flatMap]
    rfl
  newTexts := texts_redirected statement parameter
  settled := redirected_redirected statement parameter

/-- In `log(e.code) { e in e }` the member is redirected, and the closure keeps its own
parameter. -/
theorem redirects_references_member :
    let closure : Closure :=
      { leftBrace := .ofPunctuation '\x7b'
        signature := some { tokens := [.ofName "e"], inKeyword := .ofName "in" }
        statements := [.ofItem (.expr (.identifier (.ofName "e")))]
        rightBrace := .ofPunctuation '\x7d' }
    let list : CallArguments :=
      { leftParen := some (.ofPunctuation '(')
        arguments :=
          [.ofValue (.member (some (.identifier (.ofName "e"))) (.ofPunctuation '.')
            (.ofName "code"))]
        rightParen := some (.ofPunctuation ')') }
    let statement : Statement :=
      .ofItem (.expr (.call (.identifier (.ofName "log")) list (some closure)))
    (statement.redirected (some "e")).tokens.map Token.text =
        ["log", "(", "error", "?", ".", "code", ")", "\x7b", "e", "in", "e", "\x7d"] ∧
      ((statement.redirected (some "e")).walk .everywhere).filter (Visit.isName "e") =
        (closure.walk .everywhere).filter (Visit.isName "e") := by
  intro closure list statement
  have redirects := redirects_references statement "e"
  constructor
  · exact redirects.newTexts.trans (by decide +kernel)
  · rw [redirects.complete (by decide), redirects.kept]
    exact List.flatMap_singleton ..

/-- A name that only begins like a numbered parameter is not redirected in a closure without a
signature, although no such closure binds it: in `run { $e }` the reference to `$e` stays. -/
theorem redirects_references_dollar :
    let closure : Closure :=
      { leftBrace := .ofPunctuation '\x7b', signature := none
        statements := [.ofItem (.expr (.identifier (.ofName "$e")))]
        rightBrace := .ofPunctuation '\x7d' }
    let statement : Statement :=
      .ofItem (.expr (.call (.identifier (.ofName "run")) .absent (some closure)))
    "$e" ≠ "$0" ∧ closure.parameterNames.contains "$e" = false ∧
      statement.redirected (some "$e") = statement ∧
      ((statement.redirected (some "$e")).walk .everywhere).any (Visit.isName "$e") = true :=
  ⟨by decide, rfl, rfl, by decide +kernel⟩

end SuiteMigration
