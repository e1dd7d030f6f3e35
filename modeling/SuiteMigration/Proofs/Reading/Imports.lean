import Mathlib.Tactic.Common
import SuiteMigration.Proofs.Lexing.Renaming
import SuiteMigration.Proofs.Reading.Calls
import SuiteMigration.Import

/-!
# The words of imports

An import is read from its keyword on, and a word for the kind of what it names may follow. So the
token ahead of a module that is imported as a whole is a word, and another module can be written in
its place.

## Main definitions

* `ImportDecl.IsWorded` - the tokens ahead of the path of an import are words

## Main results

* `SourceFile.isWorded_of_import` - the imports among the statements of a source are worded
* `Statement.exists_atoms_withModule` - the word that changes with the module
-/

namespace SuiteMigration

open Lexeme

/-- The keyword of the import is one, and its kind is one of the words for kinds. -/
structure ImportDecl.IsWorded (decl : ImportDecl) : Prop where
  keyword : decl.keyword.text = "import"
  kind : ∀ token, decl.kind = some token → token.text ∈ importKinds

/-- If the item is an import, it is worded. -/
def Item.HasWords (item : Item) : Prop :=
  ∀ decl, item = .decl (.importing decl) → decl.IsWorded

/-! ### Reading imports -/

namespace Parser

variable {attributes : List Attribute} {modifiers : List Modifier} {cursor : Cursor}

theorem assures_kind : Assures (bumpIf fun cursor =>
      importKinds.contains cursor.peek.text && cursor.second.kind == .identifier)
    fun kind => ∀ token, kind = some token → token.text ∈ importKinds := by
  intro cursor genuine kind next given token same
  cases holds : importKinds.contains cursor.peek.text && cursor.second.kind == .identifier with
  | false =>
    rw [bumpIf_of_not holds] at given
    cases given
    cases same
  | true =>
    rw [bumpIf_of holds] at given
    cases given
    obtain rfl := Option.some.inj same
    rw [Bool.and_eq_true, beq_iff_eq] at holds
    -- There is a token after the next one, so there is a next one.
    have rest : cursor.pending ≠ [] := by
      intro ended
      rw [Cursor.second, ended, List.tail_nil, List.headD_nil, genuine.proper] at holds
      cases holds.2
    rw [Cursor.bump_fst rest]
    simpa using holds.1

/-- An import that is read where the keyword stands is worded. -/
theorem assuresAt_importDecl (genuine : cursor.Genuine) (start : cursor.peek.text = "import") :
    AssuresAt cursor (importDecl attributes modifiers) ImportDecl.IsWorded := by
  have rest : cursor.pending ≠ [] := by
    intro ended
    rw [Cursor.peek, ended, List.headD_nil, genuine.ending] at start
    exact absurd start (by decide)
  have atKeyword : AssuresAt cursor bump fun keyword => keyword.text = "import" := by
    intro keyword next given
    obtain rfl : cursor.bump.1 = keyword := congrArg Prod.fst (Option.some.inj given)
    rw [Cursor.bump_fst rest, start]
  rw [importDecl]
  exact atKeyword.bind genuine .bump fun keyword isKeyword =>
    .bind (.bumpIf _) assures_kind fun kind isKind => .after (.run _) fun path =>
      .pure ⟨isKeyword, isKind⟩

theorem assures_decl (fuel : Nat) : Assures (decl fuel) fun decl => (Item.decl decl).HasWords := by
  cases fuel with
  | zero => exact .failure
  | succ fuel =>
    have grammar := allForward fuel
    have done {decl : Decl} (other : ∀ imports, decl ≠ .importing imports) :
        Assures (Pure.pure decl) fun decl => (Item.decl decl).HasWords :=
      .pure fun imports same => absurd (Item.decl.inj same) (other imports)
    rw [decl]
    refine .after (.of_agree agree_attributes) fun attributes =>
      .after (.of_agree agree_modifiers) fun modifiers => .ask fun cursor genuine =>
      .ite (fun start => ?_) (Assures.ite ?_ (.ite ?_ (.ite ?_ (.ite ?_ (.ite ?_ ?_)))) cursor genuine)
    · rw [← bind_pure_comp]
      refine (assuresAt_importDecl genuine (beq_iff_eq.1 start)).bind genuine
        (forward_importDecl _ _) fun imports worded => .pure fun other same => ?_
      cases same
      exact worded
    · exact .after (forward_typeHeader _ _) fun _ => .after grammar.codeBlock fun _ =>
        done (by simp)
    · exact .after (forward_functionHeader _ _) fun _ => .after grammar.optionalBlock fun _ =>
        done (by simp)
    · exact .after .bump fun _ => .after grammar.bindings fun _ => done (by simp)
    · exact .after (forward_initializerHeader _ _) fun _ => .after grammar.optionalBlock fun _ =>
        done (by simp)
    · exact .after .bump fun _ => .after grammar.optionalBlock fun _ => done (by simp)
    · rw [← bind_pure_comp]
      exact .after (forward_rawDecl _ _) fun _ => done (by simp)

end Parser

/-- The imports among the statements of a source are worded. -/
theorem SourceFile.isWorded_of_import {source : String} {statement : Statement}
    (member : statement ∈ (parse source).statements) {decl : ImportDecl}
    (imports : statement.item = .decl (.importing decl)) : decl.IsWorded := by
  have all := forall_mem_parse Item.HasWords (fun fuel => ?_) Parser.assures_decl ?_ source
  · exact all statement member decl imports
  · intro _ _ _ _ _ _ same
    cases same
  · intro item _ noDecl decl same
    exact absurd same (noDecl _)

/-! ### Another module -/

theorem isWord_of_mem_importKinds : ∀ word ∈ importKinds, isWord word.toList = true := by
  decide

/-- A worded import of a whole module has a word ahead of the name of the module, and only this name
changes with the module. -/
theorem Statement.exists_atoms_withModule {statement : Statement} {old new : String}
    (imports : statement.isImportOf old = true) (isOld : isWord old.toList = true)
    (isNew : isWord new.toList = true)
    (worded : ∀ decl, statement.item = .decl (.importing decl) → decl.IsWorded) :
    ∃ front keyword name back,
      Token.atomsOf statement.tokens = front ++ [keyword] ++ name :: back ∧
      Token.atomsOf (statement.withModule new).tokens =
        front ++ [keyword] ++ { name with text := new } :: back ∧
      isWord keyword.text.toList = true ∧ isWord name.text.toList = true := by
  obtain ⟨item, semicolon⟩ := statement
  unfold isImportOf at imports
  split at imports
  · next decl item_eq =>
    obtain rfl : item = .decl (.importing decl) := item_eq
    have worded := worded decl rfl
    obtain ⟨attributes, modifiers, keyword, kind, _ | ⟨name, _ | ⟨second, path⟩⟩⟩ := decl
    · cases imports
    · have name_eq : name.text = old := beq_iff_eq.1 imports
      have isName : isWord name.text.toList = true := by rw [name_eq, isOld]
      have isKeyword : isWord keyword.text.toList = true := by
        rw [worded.keyword]
        decide
      -- The atoms with any word in the place of the name.
      have atoms_eq (name : Token) (word : isWord name.text.toList = true) :
          Token.atomsOf (Statement.tokens
            ⟨.decl (.importing ⟨attributes, modifiers, keyword, kind, [name]⟩), semicolon⟩) =
            Token.atomsOf (Node.tokens attributes ++ Node.tokens modifiers) ++
              ([keyword] ++ Token.atomsOf (Node.tokens kind)) ++
                name :: Token.atomsOf (Node.tokens semicolon) := by
        have tokens_eq : Statement.tokens
            ⟨.decl (.importing ⟨attributes, modifiers, keyword, kind, [name]⟩), semicolon⟩ =
              (Node.tokens attributes ++ Node.tokens modifiers ++ keyword :: Node.tokens kind) ++
                name :: Node.tokens semicolon := List.append_assoc ..
        rw [tokens_eq, Token.atomsOf_append, Token.atomsOf_append, Token.atomsOf_cons,
          Token.atomsOf_cons, Token.atoms_of_isWord isKeyword, Token.atoms_of_isWord word,
          List.singleton_append, List.singleton_append]
      -- The word in front of the name is the keyword, or the kind that is imported.
      cases kind with
      | none =>
        exact ⟨_, keyword, name, _, atoms_eq name isName, atoms_eq { name with text := new } isNew,
          isKeyword, isName⟩
      | some kind =>
        have isKind := isWord_of_mem_importKinds kind.text (worded.kind kind rfl)
        have kind_eq : Token.atomsOf (Node.tokens (some kind)) = [kind] := by
          rw [show Node.tokens (some kind) = [kind] from rfl, Token.atomsOf_cons,
            Token.atoms_of_isWord isKind, Token.atomsOf_nil, List.append_nil]
        have newly := atoms_eq { name with text := new } isNew
        have here := atoms_eq name isName
        rw [kind_eq, ← List.append_assoc] at newly here
        exact ⟨_, kind, name, _, here, newly, isKind, isName⟩
    · cases imports
  · cases imports

end SuiteMigration
