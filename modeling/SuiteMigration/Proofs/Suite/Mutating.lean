import Mathlib.Data.Finset.Card
import Mathlib.Data.List.Forall2
import Mathlib.Order.Bounds.Basic
import SuiteMigration.Suite.Conversion

/-!
# Methods that are marked

A method of a structure is marked if it writes stored properties, directly or through a method that
it calls. Calls go by names, and methods may call each other in cycles. The names are found in
rounds: a round goes over the methods once and adds the name of every method that calls a name found
so far, and the rounds end with one that adds nothing.

Each round adds names of methods only, so the rounds come to an end. Names once found stay, and no
name is added without a reason, so the end is the least set of names that is closed under the
reasons. A least set is unique, and its description does not speak of an order of the members.

## Main definitions

* `ClosedUnderWrites` - the names of all methods with a reason to be marked are among the names
* `Rounds` - rounds that are repeated until one adds nothing
* `Statement.Marked` - what marking makes of a member
* `MarksLeast` - what is promised of the marks of a suite

## Main results

* `rounds_mutatingNames` - the rounds end
* `isLeast_mutatingNames` - they end with the least closed set
* `marksLeast_markMutating` - the marks of a suite
-/

namespace SuiteMigration

/-! ### One round -/

section Rounds

variable {reports : List (String × WriteReport)} {names : List String}

/-- A report adds the name of its method when the method calls one that is already known. -/
theorem addCallers_cons (entry : String × WriteReport) (later : List (String × WriteReport))
    (names : List String) :
    addCallers (entry :: later) names =
      addCallers later
        (if entry.2.calls.any names.contains && !names.contains entry.1 then entry.1 :: names
        else names) := rfl

/-- Names that were found stay, behind those that are added. -/
theorem suffix_addCallers (reports : List (String × WriteReport)) (names : List String) :
    names <:+ addCallers reports names := by
  induction reports generalizing names with
  | nil => exact List.suffix_refl names
  | cons entry later ih =>
    rw [addCallers_cons]
    split
    · exact (List.suffix_cons entry.1 names).trans (ih _)
    · exact ih names

/-- A round adds no name exactly when the names are as many as before. -/
theorem addCallers_eq_self_iff :
    addCallers reports names = names ↔
      (addCallers reports names).length = names.length :=
  ⟨congrArg List.length, fun same =>
    ((suffix_addCallers reports names).eq_of_length same.symm).symm⟩

/-- A round that adds something adds the name of a method. -/
theorem exists_of_addCallers_ne (adds : addCallers reports names ≠ names) :
    ∃ entry ∈ reports, entry.1 ∈ addCallers reports names ∧ entry.1 ∉ names := by
  induction reports generalizing names with
  | nil => exact absurd rfl adds
  | cons entry later ih =>
    rw [addCallers_cons] at adds ⊢
    split at adds
    · rename_i calls
      rw [if_pos calls]
      refine ⟨entry, List.mem_cons_self, ?_, ?_⟩
      · exact (suffix_addCallers later _).subset List.mem_cons_self
      · simpa using (Bool.and_eq_true_iff.1 calls).2
    · rename_i silent
      rw [if_neg silent]
      obtain ⟨added, member, found, fresh⟩ := ih adds
      exact ⟨added, List.mem_cons_of_mem _ member, found, fresh⟩

/-- After a round that adds nothing, the callers of the names are among them. -/
theorem mem_of_addCallers_eq (stable : addCallers reports names = names)
    {entry : String × WriteReport} (member : entry ∈ reports)
    (calls : ∃ name ∈ entry.2.calls, name ∈ names) : entry.1 ∈ names := by
  induction reports with
  | nil => cases member
  | cons first later ih =>
    rw [addCallers_cons] at stable
    split at stable
    · -- The name of the first method would be new.
      have grows := (suffix_addCallers later (first.1 :: names)).length_le
      rw [stable] at grows
      exact absurd grows (Nat.not_succ_le_self _)
    · rename_i silent
      rcases List.mem_cons.1 member with rfl | member
      · by_contra fresh
        obtain ⟨name, called, found⟩ := calls
        refine silent (Bool.and_eq_true_iff.2 ⟨List.any_eq_true.2 ⟨name, called, ?_⟩, ?_⟩)
        · exact List.contains_iff_mem.2 found
        · simpa using fresh
      · exact ih stable member

/-! ### Rounds to the end -/

/-- Rounds are repeated until one adds nothing. -/
inductive Rounds (reports : List (String × WriteReport)) : List String → List String → Prop
  | last {names : List String} :
    (addCallers reports names).length = names.length →
    Rounds reports names (addCallers reports names)
  | next {names result : List String} :
    (addCallers reports names).length ≠ names.length →
    Rounds reports (addCallers reports names) result → Rounds reports names result

/-- The names of the methods that write by themselves. -/
def writerNames (reports : List (String × WriteReport)) : List String :=
  (reports.filter fun (_, report) => report.mutates).map Prod.fst

/-- The number of names of methods that are not found yet. -/
def unfound (reports : List (String × WriteReport)) (names : List String) : Nat :=
  ((reports.map Prod.fst).toFinset \ names.toFinset).card

/-- No more names are missing than there are reports. -/
theorem unfound_le (reports : List (String × WriteReport)) (names : List String) :
    unfound reports names ≤ reports.length :=
  calc unfound reports names
    _ ≤ (reports.map Prod.fst).toFinset.card := Finset.card_le_card Finset.sdiff_subset
    _ ≤ (reports.map Prod.fst).length := List.toFinset_card_le _
    _ = reports.length := List.length_map _

/-- A round that adds a name leaves fewer missing. -/
theorem unfound_addCallers_lt (adds : addCallers reports names ≠ names) :
    unfound reports (addCallers reports names) < unfound reports names := by
  obtain ⟨entry, member, found, fresh⟩ := exists_of_addCallers_ne adds
  refine Finset.card_lt_card ((Finset.ssubset_iff_of_subset ?_).2 ⟨entry.1, ?_, ?_⟩)
  · refine Finset.sdiff_subset_sdiff subset_rfl fun name known => ?_
    exact List.mem_toFinset.2
      ((suffix_addCallers reports names).subset (List.mem_toFinset.1 known))
  · simpa [fresh] using ⟨entry.2, member⟩
  · simp [found]

/-- Once a round adds nothing, further rounds add nothing. -/
theorem addCallersFor_of_stable (stable : addCallers reports names = names) (rounds : Nat) :
    addCallersFor reports rounds names = names := by
  induction rounds with
  | zero => rfl
  | succ rounds ih => rw [addCallersFor, stable, ih]

/-- As many rounds are enough as there are names that are not found yet. -/
theorem rounds_addCallersFor (rounds : Nat) (names : List String)
    (enough : unfound reports names ≤ rounds) :
    Rounds reports names (addCallersFor reports rounds names) := by
  induction rounds generalizing names with
  | zero =>
    have stable : addCallers reports names = names := by
      by_contra adds
      have fewer := unfound_addCallers_lt adds
      omega
    have last := Rounds.last (addCallers_eq_self_iff.1 stable)
    rwa [stable] at last
  | succ rounds ih =>
    by_cases stable : addCallers reports names = names
    · have last := Rounds.last (addCallers_eq_self_iff.1 stable)
      rw [stable] at last
      rwa [addCallersFor_of_stable stable]
    · have fewer := unfound_addCallers_lt stable
      exact .next (fun same => stable (addCallers_eq_self_iff.2 same)) (ih _ (by omega))

/-- The rounds over the methods of a suite end. -/
theorem rounds_mutatingNames (reports : List (String × WriteReport)) :
    Rounds reports (writerNames reports) (mutatingNames reports) :=
  rounds_addCallersFor reports.length _ (unfound_le reports _)

/-! ### The least closed set -/

/-- The names are closed under the reports: they hold those of all methods that write or that call
one of the names. -/
def ClosedUnderReports (reports : List (String × WriteReport)) (names : Set String) : Prop :=
  ∀ entry ∈ reports,
    (entry.2.mutates = true ∨ ∃ name ∈ entry.2.calls, name ∈ names) → entry.1 ∈ names

/-- A round stays in every set that is closed under the reports. -/
theorem addCallers_subset {closed : Set String} (isClosed : ClosedUnderReports reports closed)
    (within : ∀ name ∈ names, name ∈ closed) :
    ∀ name ∈ addCallers reports names, name ∈ closed := by
  induction reports generalizing names with
  | nil => exact within
  | cons entry later ih =>
    obtain ⟨head, tail⟩ := List.forall_mem_cons.1 isClosed
    rw [addCallers_cons]
    split
    · rename_i calls
      obtain ⟨name, called, found⟩ := List.any_eq_true.1 (Bool.and_eq_true_iff.1 calls).1
      have known := within name (List.contains_iff_mem.1 found)
      exact ih tail (List.forall_mem_cons.2 ⟨head (.inr ⟨name, called, known⟩), within⟩)
    · exact ih tail within

/-- All rounds stay in every set that is closed under the reports. -/
theorem Rounds.subset {result : List String} {closed : Set String}
    (rounds : Rounds reports names result) (isClosed : ClosedUnderReports reports closed)
    (within : ∀ name ∈ names, name ∈ closed) : ∀ name ∈ result, name ∈ closed := by
  induction rounds with
  | last _ => exact addCallers_subset isClosed within
  | next _ _ ih => exact ih (addCallers_subset isClosed within)

/-- No round loses a name. -/
theorem Rounds.subset_result {result : List String} (rounds : Rounds reports names result) :
    names ⊆ result := by
  induction rounds with
  | last _ => exact (suffix_addCallers reports _).subset
  | next _ _ ih => exact fun _ known => ih ((suffix_addCallers reports _).subset known)

/-- After the last round, one more adds nothing. -/
theorem Rounds.addCallers_eq {result : List String} (rounds : Rounds reports names result) :
    addCallers reports result = result := by
  induction rounds with
  | last same =>
    have stable := addCallers_eq_self_iff.2 same
    rw [stable, stable]
  | next _ _ ih => exact ih

/-- The rounds end with the least set of names that is closed under the reports. -/
theorem isLeast_mutatingNames (reports : List (String × WriteReport)) :
    IsLeast {names | ClosedUnderReports reports names} {name | name ∈ mutatingNames reports} := by
  have rounds := rounds_mutatingNames reports
  constructor
  · rintro entry member (writes | calls)
    · refine rounds.subset_result ?_
      exact List.mem_map.2 ⟨entry, List.mem_filter.2 ⟨member, writes⟩, rfl⟩
    · exact mem_of_addCallers_eq rounds.addCallers_eq member calls
  · intro closed isClosed
    refine rounds.subset isClosed fun name named => ?_
    obtain ⟨entry, member, rfl⟩ := List.mem_map.1 named
    obtain ⟨member, writes⟩ := List.mem_filter.1 member
    exact isClosed entry member (.inl writes)

end Rounds

/-! ### The methods of a suite -/

/-- The names are closed under the methods of a suite: they hold those of all instance methods that
have the mark, write stored properties, or call a method with one of the names. -/
def ClosedUnderWrites (table : SymbolTable) (decls : List Decl) (names : Set String) : Prop :=
  ∀ header body, .function header body ∈ decls → isTypeLevel header.modifiers = false →
    (header.hasModifier "mutating" = true ∨ (writeReport table header body).mutates = true ∨
      ∃ name ∈ (writeReport table header body).calls, name ∈ names) →
    header.name.text ∈ names

/-- What the instance methods among some declarations do. -/
def reportsOf (table : SymbolTable) (decls : List Decl) : List (String × WriteReport) :=
  decls.filterMap (Decl.report? table)

/-- There is a report for every method of an instance, and for nothing else. -/
theorem mem_reportsOf {table : SymbolTable} {decls : List Decl} {entry : String × WriteReport} :
    entry ∈ reportsOf table decls ↔
      ∃ header body, .function header body ∈ decls ∧ isTypeLevel header.modifiers = false ∧
        entry = (header.name.text,
          { writeReport table header body with
            mutates :=
              (writeReport table header body).mutates || header.hasModifier "mutating" }) := by
  rw [reportsOf, List.mem_filterMap]
  constructor
  · rintro ⟨decl, member, reported⟩
    cases decl with
    | function header body =>
      rw [Decl.report?] at reported
      split at reported
      · cases reported
      · rename_i instanceLevel
        exact ⟨header, body, member, eq_false_of_ne_true instanceLevel,
          (Option.some.inj reported).symm⟩
    | _ => cases reported
  · rintro ⟨header, body, member, instanceLevel, rfl⟩
    refine ⟨_, member, ?_⟩
    rw [Decl.report?, if_neg (ne_true_of_eq_false instanceLevel)]

/-- To be closed under the reports is to be closed under writes and calls of the methods themselves.
-/
theorem closedUnderReports_iff (table : SymbolTable) (decls : List Decl) (names : Set String) :
    ClosedUnderReports (reportsOf table decls) names ↔ ClosedUnderWrites table decls names := by
  constructor
  · intro closed header body member instanceLevel reason
    refine closed _ (mem_reportsOf.2 ⟨header, body, member, instanceLevel, rfl⟩) ?_
    rcases reason with marked | writes | calls
    · exact .inl (by simp [marked])
    · exact .inl (by simp [writes])
    · exact .inr calls
  · intro closed entry member reason
    obtain ⟨header, body, declared, instanceLevel, rfl⟩ := mem_reportsOf.1 member
    refine closed header body declared instanceLevel ?_
    rcases reason with writes | calls
    · rcases Bool.or_eq_true_iff.1 writes with writes | marked
      · exact .inr (.inl writes)
      · exact .inl marked
    · exact .inr (.inr calls)

/-- The names of the methods of a suite that are to be marked. -/
def CodeBlock.mutatingNames (table : SymbolTable) (members : CodeBlock) : Set String :=
  {name | name ∈ SuiteMigration.mutatingNames (reportsOf table members.decls)}

/-- The names found are the least set closed under writes and calls. -/
theorem CodeBlock.isLeast_mutatingNames (table : SymbolTable) (members : CodeBlock) :
    IsLeast {names | ClosedUnderWrites table members.decls names}
      (members.mutatingNames table) := by
  have least := SuiteMigration.isLeast_mutatingNames (reportsOf table members.decls)
  simp only [closedUnderReports_iff] at least
  exact least

/-- The names do not depend on the order of the members. -/
theorem CodeBlock.mutatingNames_perm (table : SymbolTable) {members other : CodeBlock}
    (perm : other.statements.Perm members.statements) :
    other.mutatingNames table = members.mutatingNames table := by
  have sameDecls (decl : Decl) : decl ∈ other.decls ↔ decl ∈ members.decls :=
    (perm.filterMap Statement.decl?).mem_iff
  have sameClosed : {names | ClosedUnderWrites table other.decls names} =
      {names | ClosedUnderWrites table members.decls names} := by
    ext names
    simp only [Set.mem_ofPred_eq, ClosedUnderWrites, sameDecls]
  have least := other.isLeast_mutatingNames table
  rw [sameClosed] at least
  exact least.unique (members.isLeast_mutatingNames table)

/-! ### Marks -/

/-- What marking makes of a member. An instance method with one of the names and without the mark
gets it behind its other modifiers, and the mark takes the trivia before the keyword. Every other
member stays as it is. -/
inductive Statement.Marked (names : Set String) : Statement → Statement → Prop
  | marked {header : FunctionHeader} {body : Option CodeBlock} {semicolon : Option Token}
      {mark : Modifier} :
    isTypeLevel header.modifiers = false → header.name.text ∈ names →
    header.hasModifier "mutating" = false → mark.is "mutating" = true →
    Marked names ⟨.decl (.function header body), semicolon⟩
      ⟨.decl (.function
        { header with
          modifiers := header.modifiers ++ [mark], keyword := header.keyword.withLeading "" }
        body), semicolon⟩
  | kept {statement : Statement} :
    (∀ header body, statement.item = .decl (.function header body) →
      isTypeLevel header.modifiers = false → header.name.text ∈ names →
      header.hasModifier "mutating" = true) →
    Marked names statement statement

/-- A member is marked as its name says. -/
theorem Statement.marked_markMember (names : List String) (statement : Statement) :
    Statement.Marked {name | name ∈ names} statement (markMember names statement) := by
  obtain ⟨item, semicolon⟩ := statement
  unfold markMember
  split
  · rename_i header body isFunction
    obtain rfl : item = .decl (.function header body) := isFunction
    split
    · rename_i needed
      simp only [Bool.and_eq_true, Bool.not_eq_true', List.contains_iff_mem] at needed
      exact .marked needed.2 needed.1.1 needed.1.2 rfl
    · rename_i unneeded
      refine .kept ?_
      rintro _ _ ⟨⟩ instanceLevel named
      by_contra bare
      refine unneeded ?_
      simp only [Bool.and_eq_true, Bool.not_eq_true', List.contains_iff_mem]
      exact ⟨⟨named, eq_false_of_ne_true bare⟩, instanceLevel⟩
  · rename_i other
    exact .kept fun header body isFunction => absurd isFunction (other header body)

/-- What is promised of the marks of a suite, with the names that are marked. -/
structure MarksLeast (table : SymbolTable) (old new : CodeBlock) (names : Set String) : Prop where
  /-- The names are the least set that is closed under the methods. -/
  least : IsLeast {names | ClosedUnderWrites table old.decls names} names
  /-- The rounds that look for the names end, and with these names. -/
  ends : ∃ result, Rounds (reportsOf table old.decls) (writerNames (reportsOf table old.decls))
    result ∧ names = {name | name ∈ result}
  /-- The same names are found if the members stand in another order. -/
  order : ∀ other : CodeBlock, other.statements.Perm old.statements →
    other.mutatingNames table = names
  /-- The members stay in their places. Those that need the mark and lack it get it once. -/
  members : List.Forall₂ (Statement.Marked names) old.statements new.statements
  /-- The instance methods with the mark are those with one of the names. -/
  carriers : ∀ header body, .function header body ∈ new.decls →
    isTypeLevel header.modifiers = false →
    (header.hasModifier "mutating" = true ↔ header.name.text ∈ names)

/-- Marking goes through the members one by one. -/
theorem CodeBlock.forall₂_marked (table : SymbolTable) (members : CodeBlock) :
    List.Forall₂ (Statement.Marked (members.mutatingNames table)) members.statements
      (markMutating table members).statements :=
  List.forall₂_map_right_iff.2 <| List.forall₂_same.2 fun statement _ =>
    statement.marked_markMember _

/-- Marking leaves an instance method with the mark just if its name is among the names, as long as
all methods that had the mark are. -/
theorem Statement.Marked.hasModifier_iff {names : Set String} {old new : Statement}
    (marked : Statement.Marked names old new) {header : FunctionHeader} {body : Option CodeBlock}
    (isFunction : new.decl? = some (.function header body))
    (instanceLevel : isTypeLevel header.modifiers = false)
    (had : old.decl? = some (.function header body) → header.hasModifier "mutating" = true →
      header.name.text ∈ names) :
    header.hasModifier "mutating" = true ↔ header.name.text ∈ names := by
  cases marked with
  | marked oldLevel named bare isMark =>
    cases isFunction
    refine iff_of_true ?_ named
    simp [FunctionHeader.hasModifier, isMark]
  | kept complete =>
    obtain ⟨item, semicolon⟩ := old
    cases item with
    | decl decl =>
      cases isFunction
      exact ⟨had rfl, complete header body rfl instanceLevel⟩
    | _ => cases isFunction

/-- The instance methods of a suite that have the mark afterwards are those whose names lie in the
least set of names that is closed under having the mark, writing, and calling a name of the set.
Each of them that lacked the mark gets it once, and nothing else changes. The rounds that find the
set end, and it does not depend on the order of the members. -/
theorem marksLeast_markMutating (table : SymbolTable) (members : CodeBlock) :
    MarksLeast table members (markMutating table members) (members.mutatingNames table) where
  least := members.isLeast_mutatingNames table
  ends := ⟨_, rounds_mutatingNames _, rfl⟩
  order _ perm := CodeBlock.mutatingNames_perm table perm
  members := members.forall₂_marked table
  carriers header body member instanceLevel := by
    obtain ⟨new, newMember, isFunction⟩ := List.mem_filterMap.1 member
    obtain ⟨old, oldMember, rfl⟩ := List.mem_map.1 newMember
    refine (old.marked_markMember _).hasModifier_iff isFunction instanceLevel
      fun wasFunction had => ?_
    refine (members.isLeast_mutatingNames table).1 header body ?_ instanceLevel (.inl had)
    exact List.mem_filterMap.2 ⟨old, oldMember, wasFunction⟩

end SuiteMigration
