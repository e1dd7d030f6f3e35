import SuiteMigration.Proofs.Migration.Shapes
import SuiteMigration.Proofs.Suite.Members

/-!
# The inheritance clause of a suite

A suite loses the first legacy base that its clause names, and a structure with something to clean
up gets the constraint `~Copyable` at the end. Each of the two changes takes a comma from one type
or gives one to another, and moves the trivia at an end of the clause. The other names stay as they
are, because the comma and the trivia around a type are no part of its name.

## Main definitions

* `TypeHeader.inheritedNames` - what a clause names
* `Separated` - the types have commas between them and none behind them
* `TypeHeader.HasClause` - the clause is there just when it names something, and is separated
* `TypeHeader.remainingNames` - the names that are left without the legacy base

## Main results

* `inheritedNames_removeBase`, `inheritedNames_addNoncopyable` - the names after each change
* `hasClause_removeBase`, `hasClause_addNoncopyable` - the clause after each change
* `inheritance_convertSuite` - the clause of the converted suite
-/

namespace SuiteMigration

/-! ### Names of inherited types -/

/-- A comma behind a type does not change its name. -/
theorem InheritedType.name_followed (type : InheritedType) : type.followed.name = type.name :=
  Node.trimmed_setTrailing type.tokens ""

theorem name_noncopyableType (trailing : Trivia) :
    (noncopyableType trailing).name = noncopyable := rfl

/-- The types that a header inherits from. -/
def TypeHeader.inheritedTypes (header : TypeHeader) : List InheritedType :=
  match header.inheritance with
  | none => []
  | some clause => clause.types

/-- The names of the types that a header inherits from. -/
def TypeHeader.inheritedNames (header : TypeHeader) : List String :=
  header.inheritedTypes.map InheritedType.name

/-- The type is marked as not copyable if the mark is among the names it inherits. -/
theorem TypeHeader.isNoncopyable_iff (header : TypeHeader) :
    header.isNoncopyable = true ↔ noncopyable ∈ header.inheritedNames := by
  unfold isNoncopyable inheritedNames inheritedTypes
  cases header.inheritance <;> simp

/-- The names of the legacy base, without and with its module. -/
def legacyBaseNames : List String :=
  ["XCTestCase", "XCTest.XCTestCase"]

theorem isLegacyBase_eq :
    InheritedType.isLegacyBase = legacyBaseNames.contains ∘ InheritedType.name := by
  funext type
  have qualified : legacyModule ++ "." ++ legacyBase = "XCTest.XCTestCase" := rfl
  simp only [InheritedType.isLegacyBase, qualified, Function.comp_apply, legacyBaseNames,
    List.contains_cons, List.contains_nil, Bool.or_false]
  rfl

/-- The names that are left when the first name of the legacy base is removed. -/
def TypeHeader.remainingNames (header : TypeHeader) : List String :=
  header.inheritedNames.eraseP legacyBaseNames.contains

/-- Removing the base does not remove the mark. -/
theorem TypeHeader.noncopyable_mem_remainingNames (header : TypeHeader) :
    noncopyable ∈ header.remainingNames ↔ noncopyable ∈ header.inheritedNames :=
  List.mem_eraseP_of_neg (by decide)

/-! ### Commas -/

/-- Every type but the last has a comma, and the last has none. -/
structure Separated (types : List InheritedType) : Prop where
  between : ∀ type ∈ types.dropLast, type.hasComma = true
  ending : ∀ type, types.getLast? = some type → type.hasComma = false

namespace Separated

variable {types : List InheritedType}

theorem nil : Separated [] where
  between := List.forall_mem_nil _
  ending := by
    intro type last
    cases last

/-- A list is sound if every type but the last has its comma. -/
theorem isSound_iff : (Shape.list (types.map InheritedType.hasComma)).IsSound ↔
    ∀ type ∈ types.dropLast, type.hasComma = true := by
  show (∀ comma ∈ (types.map InheritedType.hasComma).dropLast, comma = true) ↔ _
  rw [← List.map_dropLast, List.forall_mem_map]

/-- Separated types make a sound list. -/
theorem isSound (separated : Separated types) :
    (Shape.list (types.map InheritedType.hasComma)).IsSound :=
  isSound_iff.2 separated.between

/-- A sound list is separated if no comma ends it. -/
theorem of_isSound (sound : (Shape.list (types.map InheritedType.hasComma)).IsSound)
    (ending : ∀ type, types.getLast? = some type → type.hasComma = false) : Separated types :=
  ⟨isSound_iff.1 sound, ending⟩

/-- The types stay separated if the first one keeps its comma. -/
theorem modifyFirst (separated : Separated types) {change : InheritedType → InheritedType}
    (same : ∀ type, (change type).hasComma = type.hasComma) :
    Separated (modifyFirst change types) := by
  refine of_isSound (isSound_list_modifyFirst separated.isSound same) ?_
  intro type last
  have inOld : (types.map InheritedType.hasComma).getLast? = some type.hasComma := by
    rw [← map_modifyFirst same, List.getLast?_map, last]
    rfl
  rw [List.getLast?_map] at inOld
  obtain ⟨old, oldLast, comma_eq⟩ := Option.map_eq_some_iff.1 inOld
  rw [← comma_eq]
  exact separated.ending old oldLast

/-- They get separated if the last one loses its comma. -/
theorem modifyLast_of_sound {change : InheritedType → InheritedType}
    (sound : (Shape.list (types.map InheritedType.hasComma)).IsSound)
    (bare : ∀ type, (change type).hasComma = false) : Separated (modifyLast change types) := by
  refine of_isSound (isSound_list_modifyLast sound) ?_
  intro type last
  rcases List.eq_nil_or_concat types with rfl | ⟨before, old, rfl⟩
  · cases last
  · rw [List.concat_eq_append, modifyLast_concat, List.getLast?_concat] at last
    obtain rfl := Option.some.inj last
    exact bare old

/-- The type that is removed from a list with one behind it is not the last. -/
theorem eraseIdx (separated : Separated types) {index : Nat}
    (behind : index + 1 < types.length) : Separated (types.eraseIdx index) := by
  refine of_isSound ?_ ?_
  · exact isSound_list_sublist separated.isSound ((List.eraseIdx_sublist types index).map _)
  · intro type last
    refine separated.ending type ?_
    have length_eq : (types.eraseIdx index).length = types.length - 1 :=
      List.length_eraseIdx_of_lt (by omega)
    rw [List.getLast?_eq_getElem?, length_eq, List.getElem?_eraseIdx, if_neg (by omega)] at last
    rw [List.getLast?_eq_getElem?, ← last]
    congr 1
    omega

/-- They stay separated if one is removed. -/
theorem removeInherited (separated : Separated types) {index : Nat}
    (bound : index < types.length) (removed : InheritedType) :
    Separated (removeInherited types index removed) := by
  have length_eq : (types.eraseIdx index).length = types.length - 1 :=
    List.length_eraseIdx_of_lt bound
  simp only [SuiteMigration.removeInherited]
  by_cases last : index = (types.eraseIdx index).length
  · -- The type before the removed one is the last now, and its comma goes.
    rw [if_pos last]
    refine modifyLast_of_sound ?_ fun _ => rfl
    exact isSound_list_sublist separated.isSound ((List.eraseIdx_sublist types index).map _)
  · -- The last type stays the last, and the first one gets other trivia only.
    rw [if_neg last]
    have rest : Separated (types.eraseIdx index) := separated.eraseIdx (by omega)
    split
    · exact rest.modifyFirst fun _ => rfl
    · exact rest

/-- They stay separated if the mark is put behind them, with a comma before it. -/
theorem append_noncopyable (separated : Separated types) (trailing : Trivia) :
    Separated (SuiteMigration.modifyLast InheritedType.followed types ++
      [noncopyableType trailing]) := by
  refine of_isSound (isSound_list_append separated.isSound _ fun _ => rfl) ?_
  intro type last
  rw [List.getLast?_concat] at last
  obtain rfl := Option.some.inj last
  rfl

end Separated

/-! ### The two changes -/

/-- The clause is there just when it names something, and its types are separated. -/
structure TypeHeader.HasClause (header : TypeHeader) : Prop where
  absent_iff : header.inheritance = none ↔ header.inheritedNames = []
  separated : Separated header.inheritedTypes

theorem TypeHeader.hasClause_of_some {header : TypeHeader} {clause : InheritanceClause}
    (inheritance_eq : header.inheritance = some clause) (nonempty : clause.types ≠ [])
    (separated : Separated clause.types) : header.HasClause where
  absent_iff := by
    rw [inheritedNames, inheritedTypes, inheritance_eq, List.map_eq_nil_iff]
    exact iff_of_false (Option.some_ne_none clause) nonempty
  separated := by
    rwa [inheritedTypes, inheritance_eq]

section RemoveBase

variable {header : TypeHeader} {clause : InheritanceClause} {index : Nat} {removed : InheritedType}

/-- Without its base the type has the other types in its clause, or no clause. -/
theorem inheritance_removeBase (inheritance_eq : header.inheritance = some clause)
    (index_eq : header.baseIndex? = some index) (place : clause.types[index]? = some removed) :
    (removeBase header).inheritance =
      if clause.types.eraseIdx index = [] then none
      else some { clause with types := removeInherited clause.types index removed } := by
  simp only [removeBase, inheritance_eq, index_eq, place, List.isEmpty_iff]
  split
  · exact modifyNameEnd_inheritance _ _
  · rfl

theorem inheritedTypes_removeBase (inheritance_eq : header.inheritance = some clause)
    (index_eq : header.baseIndex? = some index) (place : clause.types[index]? = some removed) :
    (removeBase header).inheritedTypes = removeInherited clause.types index removed := by
  rw [TypeHeader.inheritedTypes, inheritance_removeBase inheritance_eq index_eq place]
  by_cases empty : clause.types.eraseIdx index = []
  · rw [if_pos empty]
    refine (List.eq_nil_of_length_eq_zero ?_).symm
    rw [length_removeInherited, empty, List.length_nil]
  · rw [if_neg empty]

end RemoveBase

/-- Only commas and trivia change on the types that are left. -/
theorem map_name_removeInherited (types : List InheritedType) (index : Nat)
    (removed : InheritedType) :
    (removeInherited types index removed).map InheritedType.name =
      (types.eraseIdx index).map InheritedType.name := by
  simp only [removeInherited]
  split
  · exact map_modifyLast (fun type => Node.trimmed_setTrailing type.tokens _) _
  · split
    · exact map_modifyFirst (fun type => Node.trimmed_setLeading type.tokens _) _
    · rfl

/-- Without its base the type inherits the other names, in their order. -/
theorem inheritedNames_removeBase {header : TypeHeader} (eligible : header.isEligible = true) :
    (removeBase header).inheritedNames = header.remainingNames := by
  obtain ⟨-, clause, index, removed, inheritance_eq, index_eq, place, -⟩ :=
    TypeHeader.exists_of_isEligible eligible
  have found : clause.types.findIdx? InheritedType.isLegacyBase = some index := by
    rwa [TypeHeader.baseIndex?, inheritance_eq, Option.bind_some] at index_eq
  have erased : clause.types.eraseP InheritedType.isLegacyBase = clause.types.eraseIdx index := by
    rw [List.eraseP_eq_eraseIdx, found]
  calc (removeBase header).inheritedNames
    _ = (clause.types.eraseIdx index).map InheritedType.name := by
      rw [TypeHeader.inheritedNames, inheritedTypes_removeBase inheritance_eq index_eq place,
        map_name_removeInherited]
    _ = (clause.types.map InheritedType.name).eraseP legacyBaseNames.contains := by
      rw [List.eraseP_map, ← isLegacyBase_eq, erased]
    _ = header.remainingNames := by
      rw [TypeHeader.remainingNames, TypeHeader.inheritedNames, TypeHeader.inheritedTypes,
        inheritance_eq]

/-- The clause that is left has separated types, and there is none without types. -/
theorem hasClause_removeBase {header : TypeHeader} (eligible : header.isEligible = true)
    (separated : Separated header.inheritedTypes) : (removeBase header).HasClause := by
  obtain ⟨-, clause, index, removed, inheritance_eq, index_eq, place, -⟩ :=
    TypeHeader.exists_of_isEligible eligible
  have bound : index < clause.types.length := (List.getElem?_eq_some_iff.1 place).1
  rw [TypeHeader.inheritedTypes, inheritance_eq] at separated
  have left : Separated (removeInherited clause.types index removed) :=
    separated.removeInherited bound removed
  have types_eq := inheritedTypes_removeBase inheritance_eq index_eq place
  have clause_eq := inheritance_removeBase inheritance_eq index_eq place
  by_cases empty : clause.types.eraseIdx index = []
  · -- The base was the only type, so the clause goes with it.
    rw [if_pos empty] at clause_eq
    refine ⟨?_, types_eq ▸ left⟩
    rw [TypeHeader.inheritedNames, TypeHeader.inheritedTypes, clause_eq]
    exact ⟨fun _ => rfl, fun _ => rfl⟩
  · rw [if_neg empty] at clause_eq
    refine TypeHeader.hasClause_of_some clause_eq ?_ left
    rw [Ne, ← List.length_eq_zero_iff, length_removeInherited, List.length_eq_zero_iff]
    exact empty

/-- The mark comes last, unless it is there already. -/
theorem inheritedNames_addNoncopyable (header : TypeHeader) :
    (addNoncopyable header).inheritedNames =
      if noncopyable ∈ header.inheritedNames then header.inheritedNames
      else header.inheritedNames ++ [noncopyable] := by
  unfold addNoncopyable
  by_cases named : noncopyable ∈ header.inheritedNames
  · rw [if_pos (header.isNoncopyable_iff.2 named), if_pos named]
  · rw [if_neg (mt header.isNoncopyable_iff.1 named), if_neg named]
    split
    · rename_i clause inheritance_eq
      simp only [TypeHeader.inheritedNames, TypeHeader.inheritedTypes, inheritance_eq]
      rw [List.map_append, map_modifyLast InheritedType.name_followed, List.map_singleton,
        name_noncopyableType]
    · -- A new clause is made, perhaps in the place of one that has just gone with the base.
      rename_i inheritance_eq
      simp only [TypeHeader.inheritedNames, TypeHeader.inheritedTypes, modifyNameEnd_inheritance,
        inheritance_eq]
      rfl

/-- Adding the mark keeps the clause well formed. -/
theorem hasClause_addNoncopyable {header : TypeHeader} (hasClause : header.HasClause) :
    (addNoncopyable header).HasClause := by
  unfold addNoncopyable
  split
  · exact hasClause
  · split
    · rename_i clause inheritance_eq
      have separated := hasClause.separated
      rw [TypeHeader.inheritedTypes, inheritance_eq] at separated
      refine TypeHeader.hasClause_of_some rfl ?_ (separated.append_noncopyable _)
      exact List.append_ne_nil_of_right_ne_nil _ (List.cons_ne_nil _ _)
    · refine TypeHeader.hasClause_of_some (modifyNameEnd_inheritance _ _) (List.cons_ne_nil _ _) ?_
      exact Separated.nil.append_noncopyable header.nameTrailing

/-! ### Suites -/

/-- A structure with something to clean up names the constraint, at the end if it did not name it
before. -/
theorem inheritedNames_converted {header : TypeHeader} (eligible : header.isEligible = true)
    (strategy : Strategy) (hasTeardown : Bool) :
    (header.converted strategy hasTeardown).inheritedNames =
      header.remainingNames ++
        if strategy = .value ∧ hasTeardown = true ∧ noncopyable ∉ header.remainingNames then
          [noncopyable]
        else [] := by
  have removed := inheritedNames_removeBase eligible
  cases strategy with
  | reference => simpa [TypeHeader.converted] using removed
  | value =>
    have inStruct : (removeBase header).toStruct.inheritedNames = header.remainingNames := removed
    cases hasTeardown with
    | false => simpa [TypeHeader.converted] using inStruct
    | true =>
      have added := inheritedNames_addNoncopyable (removeBase header).toStruct
      rw [inStruct] at added
      by_cases named : noncopyable ∈ header.remainingNames
      · simpa [TypeHeader.converted, named] using added
      · simpa [TypeHeader.converted, named] using added

/-- The clause of a converted header is well formed. -/
theorem hasClause_converted {header : TypeHeader} (eligible : header.isEligible = true)
    (separated : Separated header.inheritedTypes) (strategy : Strategy) (hasTeardown : Bool) :
    (header.converted strategy hasTeardown).HasClause := by
  have removed := hasClause_removeBase eligible separated
  have inStruct : (removeBase header).toStruct.HasClause :=
    ⟨removed.absent_iff, removed.separated⟩
  match strategy, hasTeardown with
  | .reference, _ => exact removed
  | .value, false => exact inStruct
  | .value, true => exact hasClause_addNoncopyable inStruct

/-- The clause of a converted suite names what the clause of the suite named, in the same order and
without the first legacy base. A structure with something to clean up names the constraint as well,
at the end if it was not there before. The clause is absent just when it would name nothing, and its
types have commas between them and none behind them. -/
theorem inheritance_convertSuite {header : TypeHeader} (strategy : Strategy) (members : CodeBlock)
    (eligible : header.isEligible = true) (separated : Separated header.inheritedTypes) :
    ∃ newHeader newMembers,
      convertSuite strategy header members = .type newHeader newMembers ∧
      newHeader.inheritedNames =
        (header.remainingNames ++
          if strategy = .value ∧ (SuiteContext.ofMembers members).hasTeardown = true ∧
            noncopyable ∉ header.remainingNames then [noncopyable]
          else []) ∧
      (newHeader.inheritance = none ↔ newHeader.inheritedNames = []) ∧
      Separated newHeader.inheritedTypes := by
  rw [convertSuite_eq]
  have hasClause := hasClause_converted eligible separated strategy
    (SuiteContext.ofMembers members).hasTeardown
  exact ⟨_, _, rfl, inheritedNames_converted eligible strategy _, hasClause.absent_iff,
    hasClause.separated⟩

/-- In `class A: Helper,XCTest.XCTestCase` the last type goes. The helper loses its comma, and gets
one again when the constraint is put behind it. -/
theorem inheritance_convertSuite_qualified :
    let header : TypeHeader :=
      { attributes := [], modifiers := [], keyword := .ofName "class", name := .ofName "A"
        genericParameters := []
        inheritance := some
          { colon := .ofPunctuation ':'
            types :=
              [{ tokens := [.ofName "Helper"], comma := some (.ofPunctuation ',') },
               { tokens := [.ofName "XCTest", .ofPunctuation '.', .ofName "XCTestCase"]
                 comma := none }] }
        whereClause := [] }
    let finalizer : Decl :=
      .finalizer { attributes := [], modifiers := [], keyword := .ofName "deinit" } none
    let members : CodeBlock :=
      { leftBrace := .ofPunctuation '\x7b', statements := [.ofItem (.decl finalizer)]
        rightBrace := .ofPunctuation '\x7d' }
    header.isEligible = true ∧ Separated header.inheritedTypes ∧
    ∃ newHeader newMembers,
      convertSuite .value header members = .type newHeader newMembers ∧
      newHeader.inheritedNames = ["Helper", "~Copyable"] ∧ newHeader.inheritance ≠ none ∧
      Separated newHeader.inheritedTypes := by
  intro header finalizer members
  have eligible : header.isEligible = true := by decide +kernel
  have separated : Separated header.inheritedTypes := by
    refine ⟨by decide +kernel, ?_⟩
    intro type last
    obtain rfl := Option.some.inj last
    rfl
  obtain ⟨newHeader, newMembers, converted, names, absent, newSeparated⟩ :=
    inheritance_convertSuite .value members eligible separated
  have names_eq : newHeader.inheritedNames = ["Helper", "~Copyable"] :=
    names.trans (by decide +kernel)
  refine ⟨eligible, separated, newHeader, newMembers, converted, names_eq, ?_, newSeparated⟩
  rw [Ne, absent, names_eq]
  exact List.cons_ne_nil _ _

end SuiteMigration
