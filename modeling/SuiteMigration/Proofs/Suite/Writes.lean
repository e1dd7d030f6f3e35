import SuiteMigration.Proofs.Tree.Places
import SuiteMigration.Suite.Writes

/-!
# What the analysis of writes finds

The analysis looks at the body of a function once, from its first place to its last, and knows more
and more locals on the way. What it answers is compared here with the writes that stand in the body,
wherever they stand: a target is written by the expression that assigns to it, passes it by
reference or calls a mutating method on it.

A write to a property of `self` is found whatever the locals are called. A body in which no target
starts at a stored name is not taken for a writer.

## Main definitions

* `Expr.WritesTo` - the targets that an expression writes
* `Expr.RootedAt` - the name at which a target starts
* `WrittenIn` - a target is written somewhere in a body

## Main results

* `Expr.rootedAt_iff`, `Expr.mem_writeTargets_iff` - the analysis of one expression
* `WriteScan.mutates_foldl_of_mem`, `WriteScan.exists_write_of_mutates` - the analysis of a walk
* `writeReport_mutates` - the analysis of a body
-/

namespace SuiteMigration

/-! ### Where a target starts -/

/-- The name of a root. -/
def WriteRoot.name : WriteRoot → String
  | .qualified name => name
  | .bare name => name

/-- A root that refers to one of some names, with any locals, has that name. -/
theorem WriteRoot.name_mem {root : WriteRoot} {names locals : List String}
    (refers : root.refersTo names locals = true) : root.name ∈ names := by
  cases root <;> simp_all [WriteRoot.refersTo, WriteRoot.name]

/-- A chain of members, indices, suffixes and single parentheses starts at a name, or at a property
of `self`. -/
inductive Expr.RootedAt : Expr → WriteRoot → Prop
  | name (token : Token) : RootedAt (.identifier token) (.bare token.text)
  | property {base : Expr} (period name : Token) (ofSelf : base.isName "self" = true) :
    RootedAt (.member (some base) period name) (.qualified name.text)
  | member {base : Expr} {root : WriteRoot} (period name : Token)
      (ofOther : base.isName "self" = false) (rooted : RootedAt base root) :
    RootedAt (.member (some base) period name) root
  | index {base : Expr} {root : WriteRoot} (arguments : ArgumentList)
      (rooted : RootedAt base root) :
    RootedAt (.index base arguments) root
  | suffixed {operand : Expr} {root : WriteRoot} (operator : Token)
      (rooted : RootedAt operand root) :
    RootedAt (.suffixed operand operator) root
  | parenthesized {value : Expr} {root : WriteRoot} (opener : Token) (label : Option Label)
      (comma : Option Token) (closer : Token) (rooted : RootedAt value root) :
    RootedAt (.tuple ⟨opener, [⟨label, value, comma⟩], closer⟩) root

namespace Expr

/-- The root of a target is the name at which it starts. -/
theorem rootedAt_iff (expr : Expr) (root : WriteRoot) :
    expr.RootedAt root ↔ expr.writeRoot? = some root := by
  constructor
  · intro rooted
    induction rooted with
    | name => rfl
    | property _ _ ofSelf => simp only [writeRoot?, ofSelf, if_true]
    | member _ _ ofOther _ ih => simpa [writeRoot?, ofOther] using ih
    | index _ _ ih | suffixed _ _ ih | parenthesized _ _ _ _ _ ih =>
      simpa only [writeRoot?] using ih
  · intro found
    fun_induction writeRoot? expr with
    | case1 token =>
      cases found
      exact .name token
    | case2 base period name ofSelf =>
      cases found
      exact .property period name ofSelf
    | case3 base period name ofOther ih =>
      exact .member period name (Bool.eq_false_iff.2 ofOther) (ih found)
    | case4 base arguments ih => exact .index arguments (ih found)
    | case5 operand operator ih => exact .suffixed operator (ih found)
    | case6 opener label value comma closer ih =>
      exact .parenthesized opener label comma closer (ih found)
    | case7 => cases found

/-- The expression is not `self` if it starts at a property. -/
theorem RootedAt.isName_self {target : Expr} {name : String}
    (rooted : target.RootedAt (.qualified name)) : target.isName "self" = false := by
  cases rooted <;> rfl

/-! ### What an expression writes -/

/-- The expression writes the target: it assigns to the target inside a flat sequence, passes it by
reference, or calls a mutating method on it. -/
inductive WritesTo : Expr → Expr → Prop
  | assignment (operands : List Expr) (operators : List Token) (index : Nat) {target : Expr}
      {operator : Token} (isLeft : operands[index]? = some target)
      (stands : operators[index]? = some operator) (assigns : operator.text ∈ assignmentOperators) :
    WritesTo (.sequence operands operators) target
  | reference (operator : Token) (operand : Expr) (isReference : operator.text = "&") :
    WritesTo (.prefixed operator operand) operand
  | mutation (base : Expr) (period name : Token) (arguments : CallArguments)
      (closure : Option Closure) (mutates : name.text ∈ mutatingMethods) :
    WritesTo (.call (.member (some base) period name) arguments closure) base

end Expr

/-- The operands to the left of assignments are those with an operator that assigns in the same
place of the other list. -/
theorem mem_assignedOperands_iff {target : Expr} {operands : List Expr} {operators : List Token} :
    target ∈ assignedOperands operands operators ↔ ∃ (index : Nat) (operator : Token),
      operands[index]? = some target ∧ operators[index]? = some operator ∧
        operator.text ∈ assignmentOperators := by
  induction operands generalizing operators with
  | nil => simp [assignedOperands]
  | cons left later ih =>
    cases operators with
    | nil => simp [assignedOperands]
    | cons sign others =>
      -- The first operator assigns to the operand before it, or a later one assigns further on.
      have here : target ∈ assignedOperands (left :: later) (sign :: others) ↔
          (sign.text ∈ assignmentOperators ∧ target = left) ∨
            target ∈ assignedOperands later others := by
        simp only [assignedOperands, List.contains_iff_mem]
        split <;> simp_all
      rw [here, ih]
      constructor
      · rintro (⟨assigns, rfl⟩ | ⟨index, operator, isLeft, stands, assigns⟩)
        · exact ⟨0, sign, rfl, rfl, assigns⟩
        · exact ⟨index + 1, operator, isLeft, stands, assigns⟩
      · rintro ⟨_ | index, operator, isLeft, stands, assigns⟩
        · cases isLeft
          cases stands
          exact .inl ⟨assigns, rfl⟩
        · exact .inr ⟨index, operator, isLeft, stands, assigns⟩

namespace Expr

/-- The analysis of an expression finds only targets that the expression writes. -/
theorem writesTo_of_mem {expr target : Expr} (found : target ∈ expr.writeTargets) :
    expr.WritesTo target := by
  unfold writeTargets at found
  split at found
  · obtain ⟨index, operator, isLeft, stands, assigns⟩ := mem_assignedOperands_iff.1 found
    exact .assignment _ _ index isLeft stands assigns
  · rename_i operator operand
    obtain ⟨isReference, rfl⟩ : operator.text = "&" ∧ target = operand := by simpa using found
    exact .reference operator target isReference
  · rename_i base period name arguments closure
    obtain ⟨⟨-, mutates⟩, rfl⟩ :
        (base.isName "self" = false ∧ name.text ∈ mutatingMethods) ∧ target = base := by
      simpa using found
    exact .mutation target period name arguments closure mutates
  · cases found

/-- It finds all of them, except that a mutating method called on `self` writes no property. -/
theorem WritesTo.mem_writeTargets {expr target : Expr} (writes : expr.WritesTo target)
    (ofOther : target.isName "self" = false) : target ∈ expr.writeTargets := by
  cases writes with
  | assignment operands operators index isLeft stands assigns =>
    exact mem_assignedOperands_iff.2 ⟨index, _, isLeft, stands, assigns⟩
  | reference operator operand isReference => simp [writeTargets, isReference]
  | mutation base period name arguments closure mutates =>
    simp [writeTargets, ofOther, mutates]

end Expr

/-! ### The analysis along a walk -/

namespace WriteScan

variable {table : SymbolTable}

/-- An expression that is met adds its own writes. -/
theorem mutates_expr (scan : WriteScan) (expr : Expr) :
    (scan.expr table expr).report.mutates = true ↔ scan.report.mutates = true ∨
      ∃ target ∈ expr.writeTargets, ∃ root, target.writeRoot? = some root ∧
        root.refersTo table.stored scan.locals = true := by
  simp [WriteScan.expr, Option.any_eq_true]

/-- Nothing that is met takes a write back. -/
theorem mutates_step {scan : WriteScan} (mutates : scan.report.mutates = true) (visit : Visit) :
    (scan.step table visit).report.mutates = true := by
  cases visit with
  | expr expr => exact (mutates_expr scan expr).2 (.inl mutates)
  | closure | decl | binds => exact mutates

theorem mutates_foldl {scan : WriteScan} (mutates : scan.report.mutates = true)
    (visits : List Visit) : (visits.foldl (step table) scan).report.mutates = true := by
  induction visits generalizing scan with
  | nil => exact mutates
  | cons visit later ih => exact ih (mutates_step mutates visit)

/-- A write to a property of `self` is found, whatever the locals are. -/
theorem mutates_foldl_of_mem {visits : List Visit} {expr target : Expr} {name : String}
    (met : Visit.expr expr ∈ visits) (writes : target ∈ expr.writeTargets)
    (rooted : target.writeRoot? = some (.qualified name)) (stored : name ∈ table.stored)
    (scan : WriteScan) : (visits.foldl (step table) scan).report.mutates = true := by
  induction visits generalizing scan with
  | nil => cases met
  | cons visit later ih =>
    rcases List.mem_cons.1 met with rfl | metLater
    -- The locals known by now do not matter for a property of `self`.
    · refine mutates_foldl ((mutates_expr scan expr).2 (.inr ⟨target, writes, _, rooted, ?_⟩)) later
      exact List.contains_iff_mem.2 stored
    · exact ih metLater _

/-- If writes are found on a walk, then some target that is written on the walk starts at a stored
name. -/
theorem exists_write_of_mutates {visits : List Visit} {scan : WriteScan}
    (mutates : (visits.foldl (step table) scan).report.mutates = true) :
    scan.report.mutates = true ∨ ∃ expr target root, Visit.expr expr ∈ visits ∧
      target ∈ expr.writeTargets ∧ target.writeRoot? = some root ∧ root.name ∈ table.stored := by
  induction visits generalizing scan with
  | nil => exact .inl mutates
  | cons visit later ih =>
    rcases ih mutates with here | ⟨expr, target, root, met, writes, rooted, stored⟩
    · cases visit with
      | expr expr =>
        rcases (mutates_expr scan expr).1 here with before | ⟨target, writes, root, rooted, refers⟩
        · exact .inl before
        · exact .inr ⟨expr, target, root, List.mem_cons_self, writes, rooted, root.name_mem refers⟩
      | closure | decl | binds => exact .inl here
    · exact .inr ⟨expr, target, root, List.mem_cons_of_mem _ met, writes, rooted, stored⟩

end WriteScan

/-! ### The analysis of a body -/

/-- The target is written somewhere in the body, at any depth. -/
def WrittenIn (body : CodeBlock) (target : Expr) : Prop :=
  ∃ expr : Expr, (Place.block body).Reaches (.expr expr) ∧ expr.WritesTo target

/-- An expression is met on the walk through a body just if the body reaches it. -/
theorem mem_walk_body_iff {body : Option CodeBlock} {expr : Expr} :
    Visit.expr expr ∈ walkBlock? .oneBody body ↔
      ∃ block ∈ body, (Place.block block).Reaches (.expr expr) := by
  cases body with
  | none => simp [walkBlock?]
  | some block => simpa [walkBlock?, Place.walk] using Place.mem_walk_iff_reaches (.block block)

/-- For every function, a write through a stored property of `self` anywhere in its body makes it a
writer, whatever its parameters and locals are called. A function in whose body no target starts at
the name of a stored property is none. -/
theorem writeReport_mutates (table : SymbolTable) (header : FunctionHeader)
    (body : Option CodeBlock) :
    ((∃ block ∈ body, ∃ target name, WrittenIn block target ∧ target.RootedAt (.qualified name) ∧
        name ∈ table.stored) →
      (writeReport table header body).mutates = true) ∧
    ((∀ block ∈ body, ∀ target root, WrittenIn block target → target.RootedAt root →
        root.name ∉ table.stored) →
      (writeReport table header body).mutates = false) := by
  constructor
  · rintro ⟨block, isBody, target, name, ⟨expr, reaches, writes⟩, rooted, stored⟩
    exact WriteScan.mutates_foldl_of_mem (mem_walk_body_iff.2 ⟨block, isBody, reaches⟩)
      (writes.mem_writeTargets rooted.isName_self) ((target.rootedAt_iff _).1 rooted) stored _
  · intro none
    refine Bool.eq_false_iff.2 fun mutates => ?_
    rcases WriteScan.exists_write_of_mutates mutates with before | found
    · cases before
    · obtain ⟨expr, target, root, met, writes, rooted, stored⟩ := found
      obtain ⟨block, isBody, reaches⟩ := mem_walk_body_iff.1 met
      exact none block isBody target root ⟨expr, reaches, Expr.writesTo_of_mem writes⟩
        ((target.rootedAt_iff root).2 rooted) stored

/-- With a parameter and a stored property that are both called `count`, a closure that adds to the
property is a write, and a body that only reads the property is none. -/
theorem writeReport_mutates_count :
    let table : SymbolTable := { stored := ["count"] }
    let header : FunctionHeader :=
      { attributes := [], modifiers := [], keyword := .ofName "func", name := .ofName "bump",
        genericParameters := [],
        parameters := ⟨.ofPunctuation '(', [.ofName "count"], .ofPunctuation ')'⟩,
        signature := [] }
    let property : Expr :=
      .member (some (.identifier (.ofName "self"))) (.ofPunctuation '.') (.ofName "count")
    let braced (expr : Expr) : CodeBlock :=
      ⟨.ofPunctuation '\x7b', [.ofItem (.expr expr)], .ofPunctuation '\x7d'⟩
    let adding : Expr :=
      .sequence [property, .identifier (.ofName "count")] [.ofOperator "+="]
    let closure : Closure :=
      ⟨.ofPunctuation '\x7b', none, [.ofItem (.expr adding)], .ofPunctuation '\x7d'⟩
    (writeReport table header (some (braced (.closure closure)))).mutates = true ∧
      (writeReport table header (some (braced property))).mutates = false := by
  intro table header property braced adding closure
  constructor
  · refine (writeReport_mutates table header _).1
      ⟨_, rfl, property, "count", ⟨adding, ?_, ?_⟩, .property _ _ rfl, by decide⟩
    · exact .head List.mem_cons_self <| .head List.mem_cons_self <| .head List.mem_cons_self <|
        .head List.mem_cons_self <| .single List.mem_cons_self
    · exact .assignment _ _ 0 rfl rfl (by decide)
  · refine (writeReport_mutates table header _).2 ?_
    rintro block ⟨⟩ target root ⟨expr, reaches, writes⟩ rooted
    have met : Visit.expr expr ∈ [.expr property, .expr (.identifier (.ofName "self"))] :=
      (Place.mem_walk_iff_reaches _).2 reaches
    rcases List.mem_cons.1 met with ⟨⟨⟩⟩ | met
    · simp only [property] at writes
      cases writes
    · cases List.mem_singleton.1 met
      cases writes

end SuiteMigration
