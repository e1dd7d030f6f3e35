import Mathlib.Tactic.Common
import SuiteMigration.Proofs.Migration.Removal
import SuiteMigration.Proofs.Migration.Untouched

/-!
# Migrating once more

A tree whose tokens are legible has a text that is given back and has the words of the tree. If none
of them begins like a legacy name, the text is left alone when it is migrated again.

A source with legacy names in its imports only is migrated to such a text, as long as the imports can
be cut out of it. The pass over imports does all the work there, and the other passes find nothing,
neither in its tree nor in the text. Suites and assertions are not considered here: what is made of
them is other text, and legacy names can be left in it.

## Main definitions

* `SourceFile.NamesImportsOnly` - legacy names stand in imports of the legacy framework only

## Main results

* `Legible.exists_start` - a word of letters with which legible tokens begin is the beginning of one
* `Legible.render_parse` - a text with legible tokens is given back
* `migrate_renderAll_of_legible` - a text with legible tokens and no legacy names is left alone
* `migrate_migrate_of_imports` - migrating twice is migrating once where only imports are migrated
-/

namespace SuiteMigration

open Lexeme

/-! ### Words with which legible tokens begin -/

/-- A piece ends before the text that it leads. -/
theorem Piece.Leads.endsBefore {piece : Piece} {rest : List Char} (leads : piece.Leads rest) :
    piece.EndsBefore rest := by
  obtain ⟨c, text, text_eq⟩ := List.exists_cons_of_ne_nil (List.length_pos_iff.1 leads.pos)
  obtain ⟨rule, found, made⟩ := leads
  have ends : EndsBefore ((first (c :: (text ++ rest)) rules).1.piece _) _ := endsBefore_first
  rw [text_eq, List.cons_append] at found
  rw [found, ← List.cons_append, List.take_left' rfl, List.drop_left' rfl, ← text_eq] at ends
  exact made.symm ▸ ends

/-- What begins a gap is no letter. -/
theorem IsGap.head_isAlpha {gap rest : List Char} (isGap : IsGap rest gap) {c : Char}
    (head : gap.head? = some c) : c.isAlpha = false := by
  cases isGap with
  | nil => cases head
  | space space =>
    obtain rfl := Option.some.inj head
    by_contra letter
    rw [Bool.not_eq_false] at letter
    simp [isBlank, isLineBreak, ne_of_isAlpha letter] at space
  | block leads =>
    obtain ⟨body, rfl, -⟩ := Piece.leads_comment_iff.1 leads
    obtain rfl := Option.some.inj head
    decide
  | line =>
    obtain rfl := Option.some.inj head
    decide

section Legible

variable {token : Token} {tokens before later : List Token} {rest word : List Char}

/-- A legible token with a text is severed from what follows it. -/
theorem Token.LegibleBefore.severed (legible : token.LegibleBefore rest) (word : token.text ≠ "") :
    token.Severed rest.head? := by
  have ends := (legible.word word).endsBefore
  refine ⟨word, fun isName => ?_, fun c head => legible.leading.head_isAlpha head,
    fun c d head letter next => ?_⟩
  · -- The mark does not go on with the name in front of it.
    have whole (mark : Char) (other : continuesName mark = false) :
        token.text.toList ≠ ['a', 's', mark] := by
      intro text_eq
      obtain ⟨later, isPiece, goesOn, -⟩ := ends 'a' (by rw [Piece.text, text_eq]; rfl) (by decide)
      rw [text_eq] at isPiece
      obtain ⟨-, same⟩ := Piece.token.inj isPiece
      rw [← (List.cons.inj same).2] at goesOn
      rw [goesOn mark (by simp)] at other
      cases other
    refine ⟨fun text_eq => whole '?' (by decide) ?_, fun text_eq => whole '!' (by decide) ?_⟩
    · rw [text_eq]
      decide
    · rw [text_eq]
      decide
  · obtain ⟨-, -, -, stops⟩ := ends c head letter
    exact stops d (by rw [List.head?_append, next])

/-- Where legible tokens begin with a word of letters, some token does. -/
theorem Legible.exists_start (letters : ∀ c ∈ word, c.isAlpha = true) (some_word : word ≠ [])
    (legible : Legible tokens []) (start : word <+: (Token.renderAll tokens).toList) :
    ∃ token ∈ tokens, word <+: token.text.toList := by
  -- A gap in front of the rest would begin with the first letter.
  have skip {gap rest next : List Char} (isGap : IsGap next gap) (start : word <+: gap ++ rest) :
      word <+: rest := by
    cases gap with
    | nil => exact start
    | cons c gap =>
      obtain ⟨first, more, rfl⟩ := List.exists_cons_of_ne_nil some_word
      obtain ⟨rfl, -⟩ := List.cons_prefix_cons.1 start
      have sign := isGap.head_isAlpha rfl
      rw [letters first List.mem_cons_self] at sign
      cases sign
  induction tokens with
  | nil => exact absurd (List.prefix_nil.1 start) some_word
  | cons token later ih =>
    obtain ⟨here, behind⟩ := legible
    rw [List.append_nil] at here
    rw [toList_renderAll_cons] at start
    replace start := skip here.leading start
    by_cases none : token.text = ""
    · rw [none] at start
      obtain ⟨other, member, begins⟩ := ih behind (skip here.trailing start)
      exact ⟨other, List.mem_cons_of_mem _ member, begins⟩
    · exact ⟨token, List.mem_cons_self, (here.severed none).start letters start⟩

/-- The text of legible tokens is given back. -/
theorem Legible.render_parse (legible : Legible (Token.atomsOf tokens) []) :
    Node.render (SourceFile.parse (Token.renderAll tokens)) = Token.renderAll tokens := by
  obtain ⟨words, gap⟩ := spelling_tokenize_of_legible legible
  rw [Token.renderAll_atomsOf] at words gap
  obtain ⟨text, text_eq⟩ : ∃ text, text = Token.renderAll tokens := ⟨_, rfl⟩
  rw [← text_eq] at words gap ⊢
  have ending : (Token.renderAll [(tokenize text).endOfFile]).toList =
      (tokenize text).endOfFile.leading.toList := by
    simp [Token.render, tokenize, Attachment.finish]
  rw [SourceFile.parse, SourceFile.render_ofTokens rfl, ← String.toList_inj]
  calc (Token.renderAll (tokenize text).toList).toList
      = (Token.renderAll (tokenize text).tokens).toList ++
          (tokenize text).endOfFile.leading.toList := by
        rw [TokenStream.toList, Token.renderAll_append, String.toList_append, ending]
    _ = (spelling [] (Token.atomsOf tokens)).flatMap (fun word => word.1 ++ word.2.2.toList) ++
          gapAfter [] (Token.atomsOf tokens) := by
        rw [← gap, ← words, ← List.append_assoc, ← toList_renderAll_eq_spelling, List.nil_append]
    _ = text.toList := by
        rw [← toList_renderAll_eq_spelling, List.nil_append, Token.renderAll_atomsOf, text_eq]

/-! ### Texts without legacy names -/

/-- A text that has the words of tokens without legacy names has none either. -/
theorem ReadsBack.isPlain (readsBack : ReadsBack tokens)
    (plain : ∀ token ∈ tokens, token.startsWith legacyStart = false) :
    IsPlain (Token.renderAll tokens) := by
  intro token member
  rcases List.mem_append.1 member with inText | atEnd
  · have word := List.mem_map_of_mem (f := fun token : Token => (token.kind, token.text)) inText
    rw [readsBack] at word
    obtain ⟨atom, isAtom, same⟩ := List.mem_map.1 word
    obtain ⟨owner, owned, isAtom⟩ := List.mem_flatMap.1 (List.mem_filter.1 isAtom).1
    rw [Token.startsWith, ← (Prod.mk.inj same).2]
    exact Token.startsWith_of_mem_atoms isAtom (plain owner owned)
  · obtain rfl := List.mem_singleton.1 atEnd
    rfl

/-- No run of legible tokens without legacy names spells a base of suites. -/
theorem Legible.free_isLegacyBase {after : List Token}
    (legible : Legible (Token.atomsOf (tokens ++ after)) [])
    (plain : ∀ token ∈ tokens ++ after, token.startsWith legacyStart = false) :
    Free IsLegacyBase tokens := by
  rintro run ⟨before, behind, split⟩ isBase
  have start := legacyStart_prefix_of_isLegacyBase isBase
  have letters : legacyStart.toList.all Char.isAlpha = true := by decide
  cases run with
  | nil => exact absurd start (by decide)
  | cons token later =>
    have tokens_eq : tokens ++ after = before ++ token :: (later ++ behind ++ after) := by
      rw [← split]
      simp
    rw [tokens_eq, Token.atomsOf_append, legible_append, Token.atomsOf_cons, legible_append] at legible
    -- The run is looked at from its first word on.
    have bare : Legible (Token.atomsOf (token.withLeading "" :: (later ++ behind ++ after))) [] :=
      legible_append.2 ⟨(Token.legible_atoms_iff.1 legible.2.1).2, legible.2.2⟩
    obtain ⟨atom, isAtom, begins⟩ := bare.exists_start (List.all_eq_true.1 letters) (by decide) (by
      rw [Token.renderAll_atomsOf, toList_renderAll_cons]
      refine start.trans ((trimmed_isPrefix token later).trans ?_)
      exact ⟨(Token.renderAll (behind ++ after)).toList, by simp [Token.withLeading]⟩)
    have absent : atom.startsWith legacyStart = false := by
      obtain ⟨owner, owned, isAtom⟩ := List.mem_flatMap.1 isAtom
      refine Token.startsWith_of_mem_atoms isAtom ?_
      rw [tokens_eq] at plain
      rcases List.mem_cons.1 owned with rfl | inLater
      · exact plain token (by simp)
      · exact plain owner (List.mem_append_right _ (List.mem_cons_of_mem _ inLater))
    rw [Token.startsWith, List.isPrefixOf_iff_prefix.2 begins] at absent
    cases absent

/-- A text with legible tokens and without legacy names is left alone. -/
theorem migrate_renderAll_of_legible (strategy : Strategy)
    (legible : Legible (Token.atomsOf tokens) [])
    (plain : ∀ token ∈ tokens, token.startsWith legacyStart = false) :
    migrate strategy (Token.renderAll tokens) = Token.renderAll tokens := by
  have isPlain : IsPlain (Token.renderAll tokens) := legible.readsBack.isPlain plain
  rw [migrate, migrateFile,
    runPasses_eq_self fun _ member => leavesAlone_of_isPlain isPlain strategy member,
    legible.render_parse]

end Legible

/-! ### Sources with legacy imports -/

/-- Legacy names stand in the file only as the names of modules that are imported from the legacy
framework. -/
def SourceFile.NamesImportsOnly (file : SourceFile) : Prop :=
  ∀ statement ∈ file.statements,
    ∀ token ∈ (if statement.isImportOf legacyModule then statement.withModule targetModule
      else statement).tokens, token.startsWith legacyStart = false

instance (file : SourceFile) : Decidable file.NamesImportsOnly :=
  inferInstanceAs (Decidable (∀ statement ∈ file.statements, ∀ token ∈ _, _ = false))

/-- What is left of the statements has no legacy names. -/
theorem ImportsMigrated.plain {dropped atEnd : Bool} {old new : List Statement}
    (migrated : ImportsMigrated dropped old new atEnd)
    (plain : ∀ statement ∈ old,
      ∀ token ∈ (if statement.isImportOf legacyModule then statement.withModule targetModule
        else statement).tokens, token.startsWith legacyStart = false) :
    ∀ token ∈ tokensOfStatements new, token.startsWith legacyStart = false := by
  -- Statements are kept but for their leading trivia, dropped, or renamed as the hypothesis says.
  induction migrated with
  | done => exact List.forall_mem_nil _
  | @keep dropped old new later newLater atEnd other same _ ih =>
    obtain ⟨here, behind⟩ := List.forall_mem_cons.1 plain
    rw [other, if_neg Bool.false_ne_true] at here
    rw [tokensOfStatements, List.forall_mem_append]
    refine ⟨?_, ih behind⟩
    unfold UnchangedBut at same
    split at same
    · obtain ⟨trivia, rfl⟩ := same
      rw [show (Node.setLeading old trivia).tokens = _ from Node.tokens_setLeading old trivia]
      show ∀ token ∈ modifyFirst (·.withLeading trivia) old.tokens, _
      cases tokens_eq : old.tokens with
      | nil => exact List.forall_mem_nil _
      | cons first others =>
        rw [tokens_eq, List.forall_mem_cons] at here
        exact List.forall_mem_cons.2 here
    · exact same ▸ here
  | drop _ _ ih => exact ih (List.forall_mem_cons.1 plain).2
  | rename isImport _ ih =>
    obtain ⟨here, behind⟩ := List.forall_mem_cons.1 plain
    rw [isImport, if_pos rfl] at here
    rw [tokensOfStatements, List.forall_mem_append]
    exact ⟨here, ih behind⟩

theorem tokens_importPass_plain {file : SourceFile} (names : file.NamesImportsOnly)
    (ending : file.endOfFile.startsWith legacyStart = false) :
    ∀ token ∈ Node.tokens (importPass.run file).file, token.startsWith legacyStart = false := by
  obtain ⟨atEnd, migrated, -⟩ := importsMigrated_migrateImports (file.importsModule targetModule) none
    file.statements false (fun _ => rfl) fun _ => rfl
  cases imports : file.importsModule legacyModule with
  | false =>
    rw [(run_importPass_of_plain imports).1]
    have here : ∀ token ∈ tokensOfStatements file.statements,
        token.startsWith legacyStart = false := by
      intro token member
      obtain ⟨statement, isStatement, owned⟩ := mem_tokensOfStatements.1 member
      have plain := names statement isStatement
      rw [importsModule_eq_false_iff.1 imports statement isStatement, if_neg Bool.false_ne_true]
        at plain
      exact plain token owned
    exact List.forall_mem_append.2 ⟨here, List.forall_mem_singleton.2 ending⟩
  | true =>
    have last (carried : Option Trivia) :
        (file.endOfFile.withCarried carried).startsWith legacyStart = false := by
      cases carried <;> exact ending
    rw [tokens_importPass imports]
    exact List.forall_mem_append.2 ⟨migrated.plain names, List.forall_mem_singleton.2 (last _)⟩

/-- Migrating twice is migrating once for a source with legacy names in its imports only, if the source
is given back and the imports can be cut out of it. -/
theorem migrate_migrate_of_imports (strategy : Strategy) {source : String}
    (whole : Node.render (SourceFile.parse source) = source)
    (lone : ∀ token ∈ (tokenize source).tokens, Piece.isLone token.text.toList = false)
    (names : (SourceFile.parse source).NamesImportsOnly)
    (canMigrate : (SourceFile.parse source).CanMigrate) :
    migrate strategy (migrate strategy source) = migrate strategy source := by
  obtain ⟨file, isFile⟩ : ∃ file, SourceFile.parse source = file := ⟨_, rfl⟩
  have ending : file.endOfFile.startsWith legacyStart = false := by
    rw [← isFile, SourceFile.parse, SourceFile.endOfFile_ofTokens]
    rfl
  rw [isFile] at whole names canMigrate
  have legible := legible_importPass_parse isFile whole lone canMigrate
  have plain := tokens_importPass_plain names ending
  obtain ⟨left, isLeft⟩ : ∃ left, (importPass.run file).file = left := ⟨_, rfl⟩
  rw [isLeft] at legible plain
  have tokens_eq : Node.tokens left = tokensOfStatements left.statements ++ [left.endOfFile] := rfl
  -- The other passes find nothing in what the first one leaves.
  have alone (pass : Pass) (member : pass ∈ passes strategy) : pass.LeavesAlone left := by
    rw [tokens_eq] at legible plain
    exact leavesAlone_of_free
      (free_hasLegacyName_iff.2 fun token member => plain token (List.mem_append_left _ member))
      (legible.free_isLegacyBase plain) strategy member
  have once : migrateFile strategy file = left := by
    rw [migrateFile, passes, runPasses, isLeft]
    split
    · rfl
    · exact runPasses_eq_self fun pass member => alone pass (List.mem_cons_of_mem _ member)
  rw [show migrate strategy source = Node.render left by rw [migrate, isFile, once]]
  exact migrate_renderAll_of_legible strategy legible plain

/-- One import is renamed and one is dropped. -/
example : migrate .value (migrate .value "import XCTest\nimport A\nimport XCTest\nlet x = 1\n") =
    migrate .value "import XCTest\nimport A\nimport XCTest\nlet x = 1\n" :=
  migrate_migrate_of_imports _ (by decide +kernel) (by decide +kernel) (by decide +kernel)
    (by decide +kernel)

end SuiteMigration
