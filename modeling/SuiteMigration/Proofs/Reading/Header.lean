import SuiteMigration.Proofs.Reading.Consumption

/-!
# Headers keep their tokens

The parts of the grammar that hold tokens only give back exactly the tokens they take, whatever
stands at the cursor.

## Main results

* `Cursor.reads_attributes`, `Cursor.reads_modifiers` - what stands before the keyword of a
  declaration
* `Parser.agree_typeHeader`, `Parser.agree_functionHeader` and others - the headers of declarations
-/

namespace SuiteMigration

/-! ### The tokens of small nodes -/

@[simp] theorem tokens_none [Node α] : Node.tokens (none : Option α) = [] := rfl

@[simp] theorem tokens_some [Node α] (node : α) : Node.tokens (some node) = Node.tokens node := rfl

@[simp] theorem tokens_token (token : Token) : Node.tokens token = [token] := rfl

@[simp] theorem tokens_nil [Node α] : Node.tokens ([] : List α) = [] := rfl

@[simp] theorem tokens_cons [Node α] (node : α) (later : List α) :
    Node.tokens (node :: later) = Node.tokens node ++ Node.tokens later := rfl

namespace Cursor

/-- What is taken of an attached group are the tokens up to the next place. -/
theorem reads_takeAttachedGroup (cursor : Cursor) :
    cursor.Reads cursor.takeAttachedGroup.1 cursor.takeAttachedGroup.2 :=
  cursor.reads_take _

/-- The attributes of a declaration hold the tokens that are passed, whatever the fuel is. -/
theorem reads_attributes (fuel : Nat) (cursor : Cursor) :
    cursor.Reads (Node.tokens (cursor.attributes fuel).1) (cursor.attributes fuel).2 := by
  induction fuel generalizing cursor with
  | zero => exact .refl cursor
  | succ fuel ih =>
    rw [attributes]
    split
    · have sign := cursor.reads_bump
      have name := cursor.bump.2.reads_bump
      have group := cursor.bump.2.bump.2.reads_takeAttachedGroup
      have later := ih cursor.bump.2.bump.2.takeAttachedGroup.2
      exact (sign.trans (name.trans group)).trans later
    · exact .refl cursor

/-- So do its modifiers. -/
theorem reads_modifiers (fuel : Nat) (cursor : Cursor) :
    cursor.Reads (Node.tokens (cursor.modifiers fuel).1) (cursor.modifiers fuel).2 := by
  induction fuel generalizing cursor with
  | zero => exact .refl cursor
  | succ fuel ih =>
    rw [modifiers]
    split
    · have name := cursor.reads_bump
      have group := cursor.bump.2.reads_takeAttachedGroup
      have later := ih cursor.bump.2.takeAttachedGroup.2
      exact (name.trans group).trans later
    · exact .refl cursor

/-- The inherited types hold the tokens that are passed, with the commas between them. -/
theorem reads_inheritedTypes (fuel : Nat) (cursor : Cursor) :
    cursor.Reads (Node.tokens (cursor.inheritedTypes fuel).1) (cursor.inheritedTypes fuel).2 := by
  induction fuel generalizing cursor with
  | zero => exact .refl cursor
  | succ fuel ih =>
    have type := cursor.reads_take cursor.inheritedRun
    rw [inheritedTypes]
    simp only
    split
    · have comma := (cursor.take cursor.inheritedRun).2.reads_bump
      exact (type.trans comma).trans (ih _)
    split
    · next none =>
      rw [List.isEmpty_iff] at none
      rw [none] at type
      exact type
    · have alone := type.trans (.refl _)
      simpa [Node.tokens] using alone

/-- A parameter clause holds the tokens that are passed. A missing parenthesis has none. -/
theorem reads_parameterClause (cursor : Cursor) :
    cursor.Reads (Node.tokens cursor.parameterClause.1) cursor.parameterClause.2 := by
  have both := cursor.reads_bump.trans (cursor.bump.2.reads_take (cursor.balanced - 1))
  rw [parameterClause]
  split
  · simp only
    split
    · next last isLast =>
      split
      · obtain ⟨front, eq⟩ := List.getLast?_eq_some_iff.1 isLast
        rw [eq] at both ⊢
        simpa [Node.tokens] using both
      · exact both.of_atoms (by simp [Node.tokens])
    · next none =>
      rw [List.getLast?_eq_none_iff] at none
      rw [none] at both
      exact both.of_atoms (by simp [Node.tokens])
  · exact (Reads.refl cursor).of_atoms rfl

end Cursor

namespace Parser

variable (cursor : Cursor)

theorem agree_attributes : Agree attributes attributes cursor fun list next =>
    cursor.Reads (Node.tokens list) next :=
  agree_part (cursor.reads_attributes _)

theorem agree_modifiers : Agree modifiers modifiers cursor fun list next =>
    cursor.Reads (Node.tokens list) next :=
  agree_part (cursor.reads_modifiers _)

/-- A pattern is read to its end, with all its tokens. -/
theorem agree_pattern : Agree pattern pattern cursor fun node next =>
    cursor.Reads (Node.tokens node) next := by
  refine .ask (.ite (fun _ => ?_) fun _ => ?_)
  · exact .map (agree_bump cursor)
  · exact .map (agree_run _ cursor)

/-- The type of a pattern is read to its end, if a colon comes first. -/
theorem agree_annotatedType : Agree typeAnnotation typeAnnotation cursor fun node next =>
    cursor.Reads (Node.tokens node) next := by
  refine .bumpIf (fun _ => .pure (.refl cursor)) fun _ colon _ colonReads => ?_
  refine (agree_run _ _).bind fun type _ typeReads => ?_
  exact .pure (colonReads.trans typeReads)

theorem agree_inheritedTypes :
    Agree (part fun cursor => cursor.inheritedTypes (cursor.pending.length + 1))
      (part fun cursor => cursor.inheritedTypes (cursor.pending.length + 1)) cursor
      fun types next => cursor.Reads (Node.tokens types) next :=
  agree_part (cursor.reads_inheritedTypes _)

theorem agree_parameterClause :
    Agree (part Cursor.parameterClause) (part Cursor.parameterClause) cursor fun node next =>
      cursor.Reads (Node.tokens node) next :=
  agree_part cursor.reads_parameterClause

/-- The inherited types of a declaration are read to their end, if a colon comes first. -/
theorem agree_inheritanceClause : Agree inheritanceClause inheritanceClause cursor fun node next =>
    cursor.Reads (Node.tokens node) next := by
  refine .bumpIf (fun _ => .pure (.refl cursor)) fun _ colon _ colonReads => ?_
  refine (agree_inheritedTypes _).bind fun types _ typesReads => ?_
  exact .pure (colonReads.trans typesReads)

variable {cursor} {start : Cursor} {attributes : List Attribute} {modifiers : List Modifier}
  (before : start.Reads (Node.tokens attributes ++ Node.tokens modifiers) cursor)
include before

/-! The headers continue what was read of their attributes and modifiers. -/

/-- Behind its attributes and modifiers an import is read to its end. -/
theorem agree_importDecl : Agree (importDecl attributes modifiers) (importDecl attributes modifiers)
    cursor fun node next => start.Reads (Node.tokens node) next := by
  refine (agree_bump cursor).bind fun keyword _ keywordReads => ?_
  refine (agree_bumpIf _ _).bind fun kind _ kindReads => ?_
  refine (agree_run _ _).bind fun path _ pathReads => ?_
  have all := before.trans (keywordReads.trans (kindReads.trans pathReads))
  exact .pure (by simpa [Node.tokens] using all)

/-- Behind its attributes and modifiers the header of a type is read to the brace. -/
theorem agree_typeHeader : Agree (typeHeader attributes modifiers) (typeHeader attributes modifiers)
    cursor fun node next => start.Reads (Node.tokens node) next := by
  refine (agree_bump cursor).bind fun keyword _ keywordReads => ?_
  refine (agree_expect _ _).bind fun name _ nameReads => ?_
  refine (agree_run _ _).bind fun generics _ genericsReads => ?_
  refine (agree_inheritanceClause _).bind fun inheritance _ inheritanceReads => ?_
  refine (agree_run _ _).bind fun constraints _ constraintsReads => ?_
  have all := before.trans (keywordReads.trans (nameReads.trans
    (genericsReads.trans (inheritanceReads.trans constraintsReads))))
  exact .pure (by simpa [Node.tokens] using all)

/-- Behind its attributes and modifiers the header of a function is read to its body. -/
theorem agree_functionHeader : Agree (functionHeader attributes modifiers)
    (functionHeader attributes modifiers) cursor fun node next =>
      start.Reads (Node.tokens node) next := by
  refine (agree_bump cursor).bind fun keyword next keywordReads => ?_
  have named : Agree (bumpIf fun cursor => cursor.isAt .identifier || cursor.isAt .operator)
      (bumpIf fun cursor => cursor.isAt .identifier || cursor.isAt .operator) next
      fun name last => next.Reads [name.getD (.missing .identifier)] last :=
    (agree_bumpIf _ _).mono fun name _ reads => by
      cases name with
      | none => exact reads.of_atoms rfl
      | some name => exact reads
  refine named.bind fun name _ nameReads => ?_
  refine (agree_run _ _).bind fun generics _ genericsReads => ?_
  refine (agree_parameterClause _).bind fun parameters _ parametersReads => ?_
  refine (agree_run _ _).bind fun signature _ signatureReads => ?_
  have all := before.trans (keywordReads.trans (nameReads.trans
    (genericsReads.trans (parametersReads.trans signatureReads))))
  exact .pure (by simpa [Node.tokens] using all)

theorem agree_initializerHeader : Agree (initializerHeader attributes modifiers)
    (initializerHeader attributes modifiers) cursor fun node next =>
      start.Reads (Node.tokens node) next := by
  refine (agree_bump cursor).bind fun keyword _ keywordReads => ?_
  refine (agree_bumpIf _ _).bind fun mark _ markReads => ?_
  refine (agree_run _ _).bind fun generics _ genericsReads => ?_
  refine (agree_parameterClause _).bind fun parameters _ parametersReads => ?_
  refine (agree_run _ _).bind fun signature _ signatureReads => ?_
  have all := before.trans (keywordReads.trans (markReads.trans
    (genericsReads.trans (parametersReads.trans signatureReads))))
  exact .pure (by simpa [Node.tokens] using all)

theorem agree_rawDecl : Agree (rawDecl attributes modifiers) (rawDecl attributes modifiers) cursor
    fun node next => start.Reads (Node.tokens node) next := by
  refine (agree_run _ cursor).bind fun tokens _ tokensReads => ?_
  exact .pure (before.trans tokensReads)

end Parser

end SuiteMigration
