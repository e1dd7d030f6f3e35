import Mathlib.Tactic.Common
import SuiteMigration.Proofs.Migration.Imports
import SuiteMigration.Proofs.Reading.Imports
import SuiteMigration.Proofs.Tree.Bodies
import SuiteMigration.Suite.Lifecycle

/-!
# Removed statements and their neighbours

Imports of the legacy framework are dropped from a file, and calls of an inherited hook from a block.
One loop does both. It keeps the comments above a dropped statement, cuts them off at their last line
feed, and sets them in front of the next statement that it keeps, or of the token at the end.

The text of the result should have the words of its tree. That is so as long as the cut comments are
whole, a line comment among them ends where the next statement begins, and the tokens on both sides of
a hole can stand side by side. The loop checks none of this, so it can fail where statements share a
line.

The loop is followed from left to right. What it has kept is legible in front of what it has still to
look at, or in front of what stood there before something was dropped; each step preserves that.

## Main definitions

* `sweep` - the loop over imports and over calls of inherited hooks
* `CanDrop` - what is asked of the places where the loop drops something
* `Underway` - where the loop has come to

## Main results

* `Underway.keep`, `Underway.drop`, `Underway.replace` - the steps of the loop
* `legible_sweep` - the tokens that the loop leaves are legible
* `readsBack_of_canDrop` - what is left of a source has the words of its tree
* `carried_swallowed` - a carried comment takes what follows, or is cut open
-/

namespace SuiteMigration

open Lexeme

/-! ### Carried trivia -/

/-- The token with comments carried over from what was removed before it. -/
def Token.withCarried (token : Token) : Option Trivia → Token
  | none => token
  | some removed => token.withLeading (Trivia.merge removed token.leading)

/-- What is kept of the carried trivia can be written in front of the text. -/
def FitsBefore (carried : Option Trivia) (next : List Char) : Prop :=
  ∀ removed, carried = some removed → IsGap next (Trivia.beforeLastLineFeed removed).toList

theorem fitsBefore_none (next : List Char) : FitsBefore none next :=
  fun _ removed => nomatch removed

/-- The comments in the trivia are whole up to the last line feed, and a line comment there ends
before the text. -/
structure CarriesOver (removed : Trivia) (next : List Char) : Prop where
  free : feedIsFree removed = true
  comment : endsInLineComment (Trivia.beforeLastLineFeed removed).toList = true →
    endsLine next = true

theorem carriesOver_iff {removed : Trivia} {next : List Char} : CarriesOver removed next ↔
    feedIsFree removed = true ∧
      (endsInLineComment (Trivia.beforeLastLineFeed removed).toList = true → endsLine next = true) :=
  ⟨fun ⟨free, comment⟩ => ⟨free, comment⟩, fun ⟨free, comment⟩ => ⟨free, comment⟩⟩

instance (removed : Trivia) (next : List Char) : Decidable (CarriesOver removed next) :=
  decidable_of_iff' _ carriesOver_iff

section Carried

variable {token : Token} {tokens : List Token} {carried : Option Trivia} {rest : List Char}

theorem Token.isGap_withCarried (legible : Legible token.atoms rest)
    (fits : FitsBefore carried (token.render.toList ++ rest)) :
    IsGap (token.text.toList ++ (token.trailing.toList ++ rest))
      (token.withCarried carried).leading.toList := by
  have own := (Token.legible_atoms_iff.1 legible).1
  cases carried with
  | none => exact own
  | some removed =>
    have before := fits removed rfl
    rw [Token.toList_render, List.append_assoc, List.append_assoc] at before
    have leading_eq : (token.withCarried (some removed)).leading.toList =
        (Trivia.beforeLastLineFeed removed).toList ++ token.leading.toList :=
      String.toList_append
    rw [leading_eq]
    exact before.append own

theorem Token.legible_withCarried (legible : Legible token.atoms rest)
    (fits : FitsBefore carried (token.render.toList ++ rest)) :
    Legible (token.withCarried carried).atoms rest := by
  have isGap := Token.isGap_withCarried legible fits
  cases carried with
  | none => exact legible
  | some removed =>
    rw [Token.legible_atoms_iff] at legible ⊢
    exact ⟨isGap, legible.2⟩

/-- Legible tokens stay so with trivia that fit before them. -/
theorem Legible.withCarried (legible : Legible (Token.atomsOf tokens) rest)
    (fits : FitsBefore carried ((Token.renderAll tokens).toList ++ rest)) :
    Legible (Token.atomsOf (modifyFirst (·.withCarried carried) tokens)) rest := by
  cases tokens with
  | nil => trivial
  | cons token later =>
    rw [Token.atomsOf_cons, legible_append] at legible
    rw [Token.renderAll_cons, String.toList_append, List.append_assoc,
      ← Token.renderAll_atomsOf later] at fits
    rw [modifyFirst, Token.atomsOf_cons, legible_append]
    exact ⟨Token.legible_withCarried legible.1 fits, legible.2⟩

/-- Carried trivia go to the first token of a statement. -/
theorem Statement.tokens_withCarried (statement : Statement) (carried : Option Trivia) :
    (statement.withCarried carried).tokens = modifyFirst (·.withCarried carried) statement.tokens := by
  cases carried with
  | none =>
    show statement.tokens = _
    cases statement.tokens <;> rfl
  | some removed =>
    show Node.tokens (Node.setLeading statement _) = modifyFirst _ (Node.tokens statement)
    rw [Node.tokens_setLeading, Node.leading]
    cases Node.tokens statement <;> rfl

/-- Carried trivia change no text. -/
theorem exists_text_of_withCarried
    (word : ∃ token ∈ modifyFirst (·.withCarried carried) tokens, token.text ≠ "") :
    ∃ token ∈ tokens, token.text ≠ "" := by
  cases tokens with
  | nil => exact word
  | cons first later =>
    obtain ⟨token, member, text_ne⟩ := word
    rcases List.mem_cons.1 member with rfl | inLater
    · refine ⟨first, List.mem_cons_self, ?_⟩
      cases carried <;> exact text_ne
    · exact ⟨token, List.mem_cons_of_mem _ inLater, text_ne⟩

/-- Tokens of which one has a text have a text together. -/
theorem renderAll_ne_nil_of_mem (member : token ∈ tokens) (word : token.text ≠ "") :
    (Token.renderAll tokens).toList ≠ [] := by
  obtain ⟨before, after, rfl⟩ := List.append_of_mem member
  rw [Token.renderAll_append, String.toList_append]
  exact List.append_ne_nil_of_right_ne_nil _ (renderAll_ne_nil word after)

/-- What is carried over from a removed statement fits before what follows. -/
theorem FitsBefore.carry {statement : Statement} (legible : Legible (Token.atomsOf statement.tokens) rest)
    (fits : FitsBefore carried ((Token.renderAll statement.tokens).toList ++ rest))
    (word : ∃ token ∈ statement.tokens, token.text ≠ "")
    (carries : ∀ removed, (statement.withCarried carried).carriedTrivia = some removed →
      CarriesOver removed rest) :
    FitsBefore (statement.withCarried carried).carriedTrivia rest := by
  intro removed isCarried
  obtain ⟨free, comment⟩ := carries removed isCarried
  obtain ⟨token, member, text_ne⟩ := word
  obtain ⟨first, later, tokens_eq⟩ := List.exists_cons_of_ne_nil (List.ne_nil_of_mem member)
  have removed_eq : removed = (first.withCarried carried).leading := by
    have tokens_eq' : Node.tokens (statement.withCarried carried) =
        first.withCarried carried :: later :=
      (statement.tokens_withCarried carried).trans (by rw [tokens_eq, modifyFirst])
    unfold Statement.carriedTrivia at isCarried
    simp only [Option.ite_none_right_eq_some, Option.some.injEq, Node.leading, tokens_eq',
      List.head?_cons] at isCarried
    exact isCarried.2.symm
  rw [tokens_eq] at legible fits member
  rw [Token.atomsOf_cons, legible_append, Token.renderAll_atomsOf] at legible
  rw [Token.renderAll_cons, String.toList_append, List.append_assoc] at fits
  have isGap := Token.isGap_withCarried legible.1 fits
  rw [← removed_eq] at isGap
  refine isGap.beforeLastLineFeed free (fun none => ?_) comment
  simp only [List.append_eq_nil_iff] at none
  rcases List.mem_cons.1 member with rfl | inLater
  · exact text_ne (by simpa using none.1)
  · exact renderAll_ne_nil_of_mem inLater text_ne none.2.2.1

end Carried

/-! ### The loop -/

/-- What the loops over imports and over calls of inherited hooks have in common. From the point on
where the loop is armed, the statements that it looks for are dropped; the first one before that is
changed, and arms it. -/
def sweep (drops : Statement → Bool) (change : Statement → Statement) (armed : Bool)
    (carried : Option Trivia) : List Statement → List Statement × Option Trivia
  | [] => ([], carried)
  | statement :: later =>
    let statement := statement.withCarried carried
    if !drops statement then
      let (later, carried) := sweep drops change armed none later
      (statement :: later, carried)
    else if armed then sweep drops change true statement.carriedTrivia later
    else
      let (later, carried) := sweep drops change true none later
      (change statement :: later, carried)

/-- The import pass is a sweep over the imports of the legacy module. -/
theorem migrateImports_eq_sweep (imported : Bool) (carried : Option Trivia)
    (statements : List Statement) : migrateImports imported carried statements =
      sweep (·.isImportOf legacyModule) (·.withModule targetModule) imported carried statements := by
  induction statements generalizing imported carried with
  | nil => rfl
  | cons statement later ih => simp only [migrateImports, sweep, ih]

/-- Dropping super calls is a sweep over these. -/
theorem dropSuperCalls_eq_sweep (names : List String) (carried : Option Trivia)
    (statements : List Statement) : dropSuperCalls names carried statements =
      sweep (·.isSuperCall names) id true carried statements := by
  induction statements generalizing carried with
  | nil => rfl
  | cons statement later ih =>
    simp only [dropSuperCalls, sweep, ih]
    cases (statement.withCarried carried).isSuperCall names <;> rfl

/-- The text of some statements and of the token after them. -/
def textOf (statements : List Statement) (ending : Token) : List Char :=
  (Token.renderAll (tokensOfStatements statements ++ [ending])).toList

/-- Carried trivia come to stand before a token of the source, not before a missing one. -/
def Receives (carried : Option Trivia) (tokens : List Token) : Prop :=
  carried.isSome = true → ∀ token ∈ tokens.head?, token.text ≠ ""

/-- The loop can cut out what it drops. The comments that it carries over are whole and end before
what follows, and the token ahead of a cut can come to stand before what is behind it. The second
flag says that there is a cut right before the statements; the tokens are those that are kept ahead
of it. -/
def CanDrop (drops : Statement → Bool) (change : Statement → Statement) (ending : Token)
    (armed cut : Bool) (carried : Option Trivia) (before : List Token) : List Statement → Prop
  | [] => cut = true → Meet (Token.atomsOf before) (ending.withCarried carried).render.toList
  | statement :: later =>
    let statement := statement.withCarried carried
    if !drops statement then
      (cut = true → Receives carried statement.tokens ∧
        Meet (Token.atomsOf before) (textOf (statement :: later) ending)) ∧
        CanDrop drops change ending armed false none (before ++ statement.tokens) later
    else if armed then
      (∀ removed ∈ statement.carriedTrivia, CarriesOver removed (textOf later ending)) ∧
        CanDrop drops change ending true true statement.carriedTrivia before later
    else CanDrop drops change ending true false none (before ++ (change statement).tokens) later

instance (carried : Option Trivia) (tokens : List Token) : Decidable (Receives carried tokens) :=
  inferInstanceAs (Decidable (_ → _))

instance decidableCanDrop (drops : Statement → Bool) (change : Statement → Statement)
    (ending : Token) (armed cut : Bool) (carried : Option Trivia) (before : List Token) :
    (statements : List Statement) →
      Decidable (CanDrop drops change ending armed cut carried before statements)
  | [] => inferInstanceAs (Decidable (_ → _))
  | statement :: later =>
    have (armed cut : Bool) (carried : Option Trivia) (before : List Token) :=
      decidableCanDrop drops change ending armed cut carried before later
    have step (statement : Statement) : Decidable
        (if !drops statement then
          (cut = true → Receives carried statement.tokens ∧
            Meet (Token.atomsOf before) (textOf (statement :: later) ending)) ∧
            CanDrop drops change ending armed false none (before ++ statement.tokens) later
        else if armed then
          (∀ removed ∈ statement.carriedTrivia, CarriesOver removed (textOf later ending)) ∧
            CanDrop drops change ending true true statement.carriedTrivia before later
        else CanDrop drops change ending true false none (before ++ (change statement).tokens) later) :=
      inferInstance
    step (statement.withCarried carried)

/-! ### What is left -/

theorem Sturdy.withCarried {tokens : List Token} {carried : Option Trivia}
    (sturdy : Sturdy (Token.atomsOf tokens))
    (receives : Receives carried (modifyFirst (·.withCarried carried) tokens)) :
    Sturdy (Token.atomsOf (modifyFirst (·.withCarried carried) tokens)) := by
  cases tokens with
  | nil => exact sturdy
  | cons token later =>
    rw [Token.atomsOf_cons, sturdy_append] at sturdy
    rw [modifyFirst, Token.atomsOf_cons, sturdy_append]
    refine ⟨?_, sturdy.2⟩
    cases carried with
    | none => exact sturdy.1
    | some removed =>
      exact token.sturdy_withLeading (receives rfl (token.withCarried (some removed)) rfl) sturdy.1 _

/-- The second tokens can take the place of the first ones. -/
structure Replaceable (old new : List Token) : Prop where
  sturdy : Sturdy (Token.atomsOf old) → Sturdy (Token.atomsOf new)
  legible : ∀ before rest, Sturdy before → Sturdy (Token.atomsOf old) →
    Legible (before ++ Token.atomsOf old) rest → Legible (before ++ Token.atomsOf new) rest

section Sweep

variable {statement : Statement} {later : List Statement} {ending : Token} {cut : Bool}
  {carried : Option Trivia} {before : List Token}

theorem textOf_cons : textOf (statement :: later) ending =
    (Token.renderAll statement.tokens).toList ++ textOf later ending := by
  rw [textOf, tokensOfStatements, List.append_assoc, Token.renderAll_append, String.toList_append]
  rfl

/-- Where the loop has come to. The tokens before are what it has kept, legible in front of the
statements that it has still to look at; or in front of what stood there, if there is a cut. -/
structure Underway (ending : Token) (cut : Bool) (carried : Option Trivia) (before : List Token)
    (later : List Statement) : Prop where
  sturdy : Sturdy (Token.atomsOf before)
  sturdyLater : Sturdy (Token.atomsOf (tokensOfStatements later))
  legible : cut = false → Legible (Token.atomsOf before) (textOf later ending)
  legibleCut : cut = true → ∃ old, old ≠ [] ∧ Legible (Token.atomsOf before) old
  legibleLater : Legible (Token.atomsOf (tokensOfStatements later ++ [ending])) []
  fits : FitsBefore carried (textOf later ending)
  fresh : cut = false → carried = none

namespace Underway

/-- The tokens kept so far meet what comes next, whether or not something was cut between. -/
theorem meet (underway : Underway ending cut carried before later) {next : List Char}
    (meets : cut = true → Meet (Token.atomsOf before) next)
    (same : cut = false → next = textOf later ending) : Legible (Token.atomsOf before) next := by
  cases cut with
  | false =>
    rw [same rfl]
    exact underway.legible rfl
  | true =>
    obtain ⟨old, some, legible⟩ := underway.legibleCut rfl
    exact legible.meet (fun token member => (underway.sturdy token member).1)
      (fun token member => (underway.sturdy token member).2) (meets rfl)
      fun none => absurd none some

theorem split (underway : Underway ending cut carried before (statement :: later)) :
    Sturdy (Token.atomsOf statement.tokens) ∧
      Sturdy (Token.atomsOf (tokensOfStatements later)) ∧
      Legible (Token.atomsOf statement.tokens) (textOf later ending) ∧
      Legible (Token.atomsOf (tokensOfStatements later ++ [ending])) [] := by
  have sturdy := underway.sturdyLater
  have legible := underway.legibleLater
  rw [tokensOfStatements, Token.atomsOf_append, sturdy_append] at sturdy
  rw [tokensOfStatements, List.append_assoc, Token.atomsOf_append, legible_append,
    Token.renderAll_atomsOf, List.append_nil] at legible
  exact ⟨sturdy.1, sturdy.2, legible⟩

/-- A statement is kept, with what is carried over to it. -/
theorem keep (underway : Underway ending cut carried before (statement :: later))
    (meets : cut = true → Receives carried (statement.withCarried carried).tokens ∧
      Meet (Token.atomsOf before) (textOf (statement.withCarried carried :: later) ending)) :
    Underway ending false none (before ++ (statement.withCarried carried).tokens) later := by
  obtain ⟨sturdy, sturdyLater, here, legibleLater⟩ := underway.split
  have fits := underway.fits
  rw [textOf_cons] at fits
  have received := here.withCarried fits
  rw [← statement.tokens_withCarried] at received
  have ahead := underway.meet (fun isCut => (meets isCut).2) fun fresh => by
    rw [underway.fresh fresh]
    rfl
  refine ⟨?_, sturdyLater, fun _ => ?_, (fun isCut => nomatch isCut), legibleLater,
    fitsBefore_none _, fun _ => rfl⟩
  · rw [Token.atomsOf_append, sturdy_append, statement.tokens_withCarried]
    refine ⟨underway.sturdy, sturdy.withCarried ?_⟩
    rw [← statement.tokens_withCarried]
    cases cut with
    | true => exact (meets rfl).1
    | false =>
      rw [underway.fresh rfl]
      nofun
  · rw [Token.atomsOf_append, legible_append, Token.renderAll_atomsOf]
    rw [textOf_cons] at ahead
    exact ⟨ahead, received⟩

/-- A statement is dropped, and something may be carried over from it. -/
theorem drop (underway : Underway ending cut carried before (statement :: later))
    (word : ∃ token ∈ statement.tokens, token.text ≠ "")
    (carries : ∀ removed ∈ (statement.withCarried carried).carriedTrivia,
      CarriesOver removed (textOf later ending)) :
    Underway ending true (statement.withCarried carried).carriedTrivia before later := by
  obtain ⟨-, sturdyLater, here, legibleLater⟩ := underway.split
  have fits := underway.fits
  rw [textOf_cons] at fits
  refine ⟨underway.sturdy, sturdyLater, (fun fresh => nomatch fresh), fun _ => ?_, legibleLater, ?_,
    (fun fresh => nomatch fresh)⟩
  · cases cut with
    | true => exact underway.legibleCut rfl
    | false =>
      obtain ⟨token, member, text_ne⟩ := word
      refine ⟨_, ?_, underway.legible rfl⟩
      rw [textOf_cons]
      exact List.append_ne_nil_of_left_ne_nil (renderAll_ne_nil_of_mem member text_ne) _
  · exact fits.carry here word fun removed => carries removed

/-- Another statement takes the place of one. Nothing was cut out before it. -/
theorem replace {new : Statement} (underway : Underway ending false none before (statement :: later))
    (replaceable : Replaceable statement.tokens new.tokens) :
    Underway ending false none (before ++ new.tokens) later := by
  obtain ⟨sturdy, sturdyLater, here, legibleLater⟩ := underway.split
  have ahead := underway.meet (fun isCut => nomatch isCut) fun _ => rfl
  rw [textOf_cons, ← Token.renderAll_atomsOf] at ahead
  refine ⟨?_, sturdyLater, fun _ => ?_, (fun isCut => nomatch isCut), legibleLater,
    fitsBefore_none _, fun _ => rfl⟩
  · rw [Token.atomsOf_append, sturdy_append]
    exact ⟨underway.sturdy, replaceable.sturdy sturdy⟩
  · rw [Token.atomsOf_append]
    exact replaceable.legible _ _ underway.sturdy sturdy (legible_append.2 ⟨ahead, here⟩)

/-- Past the last statement the token after it takes what is carried over. -/
theorem finish (underway : Underway ending cut carried before [])
    (meets : cut = true → Meet (Token.atomsOf before) (ending.withCarried carried).render.toList) :
    Legible (Token.atomsOf (before ++ [ending.withCarried carried])) [] := by
  have here := underway.legibleLater
  have fits := underway.fits
  rw [textOf] at fits
  simp only [tokensOfStatements, List.nil_append, Token.atomsOf_cons, Token.atomsOf_nil,
    List.append_nil, Token.renderAll_cons, Token.renderAll_nil, String.append_empty] at here fits
  have ahead := underway.meet meets fun fresh => by
    rw [underway.fresh fresh, textOf]
    simp [tokensOfStatements, Token.withCarried]
  rw [Token.atomsOf_append, legible_append, Token.renderAll_atomsOf]
  simp only [Token.atomsOf_cons, Token.atomsOf_nil, List.append_nil, Token.renderAll_cons,
    Token.renderAll_nil, String.append_empty]
  exact ⟨ahead, Token.legible_withCarried here (by rwa [List.append_nil])⟩

end Underway

/-- The tokens that the loop leaves are legible on their own. -/
theorem legible_sweep (drops : Statement → Bool) (change : Statement → Statement) (armed : Bool)
    (solid : ∀ statement, drops statement = true → ∃ token ∈ statement.tokens, token.text ≠ "")
    (changes : armed = false → ∀ statement ∈ later, drops statement = true →
      Replaceable statement.tokens (change statement).tokens)
    (disarmed : armed = false → cut = false) (underway : Underway ending cut carried before later)
    (canDrop : CanDrop drops change ending armed cut carried before later) :
    Legible (Token.atomsOf (before ++
      tokensOfStatements (sweep drops change armed carried later).1 ++
        [ending.withCarried (sweep drops change armed carried later).2])) [] := by
  -- Along the sweep the tokens kept so far stay legible in front of what is still to come.
  induction later generalizing armed cut carried before with
  | nil =>
    rw [sweep, tokensOfStatements, List.append_nil]
    exact underway.finish canDrop
  | cons statement later ih =>
    have kept (new : Statement) (statements : List Statement) (last : Token) :
        before ++ tokensOfStatements (new :: statements) ++ [last] =
          before ++ new.tokens ++ tokensOfStatements statements ++ [last] := by
      simp only [tokensOfStatements, List.append_assoc]
    have changesLater (disarmed : armed = false) := (List.forall_mem_cons.1 (changes disarmed)).2
    simp only [CanDrop] at canDrop
    simp only [sweep]
    cases hit : drops (statement.withCarried carried) with
    | false =>
      simp only [hit, Bool.not_false, if_pos] at canDrop ⊢
      rw [kept]
      exact ih armed changesLater (fun _ => rfl) (underway.keep canDrop.1) canDrop.2
    | true =>
      simp only [hit, Bool.not_true, Bool.false_eq_true, if_false] at canDrop ⊢
      cases armed with
      | true =>
        have word := solid _ hit
        rw [statement.tokens_withCarried] at word
        simp only [if_pos] at canDrop ⊢
        exact ih true (fun disarmed => nomatch disarmed) (fun disarmed => nomatch disarmed)
          (underway.drop (exists_text_of_withCarried word) canDrop.1) canDrop.2
      | false =>
        -- The first one is changed and not dropped, so nothing is carried on from it.
        obtain rfl := disarmed rfl
        obtain rfl := underway.fresh rfl
        simp only [Bool.false_eq_true, if_false] at canDrop ⊢
        rw [kept]
        have replaceable := changes rfl statement List.mem_cons_self hit
        exact ih true (fun disarmed => nomatch disarmed) (fun _ => rfl) (underway.replace replaceable)
          canDrop

end Sweep

/-! ### Imports and inherited calls -/

/-- An import has a token with a text. -/
theorem Statement.exists_text_of_import {statement : Statement} {module : String}
    (imports : statement.isImportOf module = true) (named : module ≠ "") :
    ∃ token ∈ statement.tokens, token.text ≠ "" := by
  obtain ⟨item, semicolon⟩ := statement
  unfold isImportOf at imports
  split at imports
  · next decl item_eq =>
    obtain rfl : item = .decl (.importing decl) := item_eq
    obtain ⟨attributes, modifiers, keyword, kind, _ | ⟨name, _ | ⟨second, path⟩⟩⟩ := decl
    · cases imports
    · have name_eq : name.text = module := beq_iff_eq.1 imports
      have member : name ∈ Node.tokens (ImportDecl.mk attributes modifiers keyword kind [name]) :=
        List.mem_append_right _ List.mem_cons_self
      refine ⟨name, ?_, ?_⟩
      · rw [Statement.tokens, Item.tokens, Decl.tokens]
        exact List.mem_append_left _ member
      rw [name_eq]
      exact named
    · cases imports
  · cases imports

/-- An import of a source can be exchanged for one of another module. -/
theorem Statement.replaceable_withModule {statement : Statement} {old new : String}
    (imports : statement.isImportOf old = true) (isOld : isWord old.toList = true)
    (isNew : isWord new.toList = true)
    (worded : ∀ decl, statement.item = .decl (.importing decl) → decl.IsWorded) :
    Replaceable statement.tokens (statement.withModule new).tokens := by
  obtain ⟨front, keyword, name, back, old_eq, new_eq, isKeyword, isName⟩ :=
    Statement.exists_atoms_withModule imports isOld isNew worded
  refine ⟨fun sturdy => ?_, fun before rest sturdyBefore sturdy legible => ?_⟩
  · rw [old_eq, sturdy_append, Sturdy, Sturdy, List.forall_mem_cons] at sturdy
    rw [new_eq, sturdy_append, Sturdy, Sturdy, List.forall_mem_cons]
    have word : new ≠ "" := by simpa using ne_nil_of_isWord isNew
    exact ⟨sturdy.1, ⟨word, Piece.isLone_of_isWord isNew⟩, sturdy.2.2⟩
  · rw [old_eq, sturdy_append] at sturdy
    have ahead := sturdy_append.2 ⟨sturdyBefore, sturdy.1⟩
    rw [old_eq, ← List.append_assoc, ← List.append_assoc] at legible
    rw [← List.append_assoc] at ahead
    rw [new_eq, ← List.append_assoc, ← List.append_assoc]
    exact legible.reword (fun token member => (ahead token member).1)
      (fun token member => (ahead token member).2) isKeyword isName isNew

theorem Expr.tokens_unmarked_subset (expr : Expr) : expr.unmarked.tokens ⊆ expr.tokens := by
  fun_induction Expr.unmarked expr with
  | case1 keyword mark operand ih =>
    rw [Expr.tokens]
    exact List.Subset.trans ih (List.subset_append_right _ _)
  | case2 keyword operand ih =>
    rw [Expr.tokens]
    exact List.Subset.trans ih (List.subset_cons_self _ _)
  | case3 => exact List.Subset.refl _

/-- A super call has a token with a text. -/
theorem Statement.exists_text_of_superCall {statement : Statement} {names : List String}
    (call : statement.isSuperCall names = true) (named : "" ∉ names) :
    ∃ token ∈ statement.tokens, token.text ≠ "" := by
  obtain ⟨item, semicolon⟩ := statement
  unfold isSuperCall at call
  split at call
  · next base period name arguments closure expr_eq =>
    rw [Bool.and_eq_true, List.contains_iff_mem] at call
    obtain ⟨expr, isExpr, unmarked_eq⟩ := Option.map_eq_some_iff.1 expr_eq
    have item_eq : item = .expr expr := by
      unfold expr? at isExpr
      split at isExpr
      · next own own_eq => exact own_eq.trans (congrArg Item.expr (Option.some.inj isExpr))
      · cases isExpr
    subst item_eq
    have inside : name ∈ expr.unmarked.tokens := by
      rw [unmarked_eq]
      simp [Expr.tokens, tokensOfExpr?]
    refine ⟨name, ?_, fun none => named ?_⟩
    · rw [Statement.tokens, Item.tokens]
      exact List.mem_append_left _ (expr.tokens_unmarked_subset inside)
    · rw [← none]
      exact call.2
  · cases call

/-! ### What is read of the result -/

/-- The imports of the legacy framework can be cut out of the file. -/
def SourceFile.CanMigrate (file : SourceFile) : Prop :=
  CanDrop (·.isImportOf legacyModule) (·.withModule targetModule) file.endOfFile
    (file.importsModule targetModule) false none [] file.statements

/-- The calls of the inherited hook can be cut out of the block. -/
def CodeBlock.CanLoseCalls (block : CodeBlock) (lifecycle : Lifecycle) : Prop :=
  CanDrop (·.isSuperCall lifecycle.names) id block.rightBrace true false none [block.leftBrace]
    block.statements

instance (file : SourceFile) : Decidable file.CanMigrate :=
  decidableCanDrop ..

instance (block : CodeBlock) (lifecycle : Lifecycle) : Decidable (block.CanLoseCalls lifecycle) :=
  decidableCanDrop ..

/-- The tokens after the import pass are those of a sweep. -/
theorem tokens_importPass {file : SourceFile} (imports : file.importsModule legacyModule = true) :
    let swept := migrateImports (file.importsModule targetModule) none file.statements
    Node.tokens (importPass.run file).file =
      tokensOfStatements swept.1 ++ [file.endOfFile.withCarried swept.2] := by
  simp only [importPass, imports, if_pos]
  cases (migrateImports (file.importsModule targetModule) none file.statements).2 <;> rfl

/-- The tokens of a body without its super calls are those of a sweep. -/
theorem tokens_removeSuperCalls (lifecycle : Lifecycle) (block : CodeBlock) :
    let swept := dropSuperCalls lifecycle.names none block.statements
    (removeSuperCalls lifecycle block).tokens = [block.leftBrace] ++ tokensOfStatements swept.1 ++
      [block.rightBrace.withCarried swept.2] := by
  simp only [removeSuperCalls]
  cases (dropSuperCalls lifecycle.names none block.statements).2 <;> rfl

/-- A legible file is legible without its legacy imports. -/
theorem legible_importPass {file : SourceFile}
    (legible : Legible (Token.atomsOf (Node.tokens file)) [])
    (sturdy : Sturdy (Token.atomsOf (tokensOfStatements file.statements)))
    (worded : ∀ statement ∈ file.statements, ∀ decl,
      statement.item = .decl (.importing decl) → decl.IsWorded)
    (canMigrate : file.CanMigrate) :
    Legible (Token.atomsOf (Node.tokens (importPass.run file).file)) [] := by
  cases imports : file.importsModule legacyModule with
  | false =>
    rwa [(run_importPass_of_plain imports).1]
  | true =>
    have underway : Underway file.endOfFile false none [] file.statements :=
      ⟨List.forall_mem_nil _, sturdy, fun _ => trivial, (fun isCut => nomatch isCut), legible,
        fitsBefore_none _, fun _ => rfl⟩
    have left := legible_sweep (·.isImportOf legacyModule) (·.withModule targetModule) _
      (fun statement hit => statement.exists_text_of_import hit (by decide))
      (fun _ statement member hit => statement.replaceable_withModule hit (by decide) (by decide)
        (worded statement member)) (fun _ => rfl) underway canMigrate
    rw [tokens_importPass imports, migrateImports_eq_sweep]
    exact left

/-- A legible block without calls of an inherited hook is read as the words of its tree. -/
theorem readsBack_removeSuperCalls {block : CodeBlock} {lifecycle : Lifecycle}
    (legible : Legible (Token.atomsOf block.tokens) []) (sturdy : Sturdy (Token.atomsOf block.tokens))
    (canLose : block.CanLoseCalls lifecycle) : ReadsBack (removeSuperCalls lifecycle block).tokens := by
  have tokens_eq : block.tokens =
      [block.leftBrace] ++ (tokensOfStatements block.statements ++ [block.rightBrace]) := by
    cases block
    rfl
  rw [tokens_eq, Token.atomsOf_append, legible_append, Token.renderAll_atomsOf,
    List.append_nil] at legible
  rw [tokens_eq, Token.atomsOf_append, Token.atomsOf_append (tokensOfStatements _), sturdy_append,
    sturdy_append] at sturdy
  have underway : Underway block.rightBrace false none [block.leftBrace] block.statements :=
    ⟨sturdy.1, sturdy.2.1, fun _ => legible.1, (fun isCut => nomatch isCut), legible.2,
      fitsBefore_none _, fun _ => rfl⟩
  have named : "" ∉ lifecycle.names := by
    cases lifecycle <;> decide
  have left := legible_sweep (·.isSuperCall lifecycle.names) id true
    (fun statement hit => statement.exists_text_of_superCall hit named)
    (fun disarmed => nomatch disarmed) (fun _ => rfl) underway canLose
  rw [tokens_removeSuperCalls, dropSuperCalls_eq_sweep]
  exact left.readsBack

section Source

variable {source : String}

/-- Tokens of a source in which no token is a lone sign are sturdy. -/
theorem sturdy_of_mem {tokens : List Token}
    (inside : ∀ token ∈ tokens, token ∈ (tokenize source).tokens)
    (lone : ∀ token ∈ (tokenize source).tokens, Piece.isLone token.text.toList = false) :
    Sturdy tokens :=
  fun token member => ⟨text_ne_of_mem_tokenize (inside token member), lone token (inside token member)⟩

/-- Where a source is given back, what is left of it without the imports of the legacy framework is
legible, if these can be cut out. -/
theorem legible_importPass_parse {file : SourceFile} (isFile : SourceFile.parse source = file)
    (whole : Node.render file = source)
    (lone : ∀ token ∈ (tokenize source).tokens, Piece.isLone token.text.toList = false)
    (canMigrate : file.CanMigrate) :
    Legible (Token.atomsOf (Node.tokens (importPass.run file).file)) [] := by
  refine legible_importPass (SourceFile.legible_parse isFile whole) ?_ ?_ canMigrate
  · rw [← isFile, SourceFile.atomsOf_tokensOfStatements_parse]
    exact sturdy_of_mem (fun _ member => member) lone
  · intro statement member decl isImport
    rw [← isFile] at member
    exact SourceFile.isWorded_of_import member isImport

/-- Where a source is given back, what is left of it without the imports of the legacy framework has
the words of its tree, and so has what is left of a block without calls of an inherited hook; as
long as the comments above what is removed are cut off at a line break, and what comes to stand side
by side can do so. A single backquote is left out: it may find a partner when a line break goes. -/
theorem readsBack_of_canDrop (whole : Node.render (SourceFile.parse source) = source)
    (lone : ∀ token ∈ (tokenize source).tokens, Piece.isLone token.text.toList = false) :
    ((SourceFile.parse source).CanMigrate →
      ReadsBack (Node.tokens (importPass.run (SourceFile.parse source)).file)) ∧
    ∀ block ∈ (SourceFile.parse source).blocks, ∀ lifecycle, block.CanLoseCalls lifecycle →
      ReadsBack (removeSuperCalls lifecycle block).tokens := by
  obtain ⟨file, isFile⟩ : ∃ file, SourceFile.parse source = file := ⟨_, rfl⟩
  rw [isFile] at whole ⊢
  refine ⟨fun canMigrate => (legible_importPass_parse isFile whole lone canMigrate).readsBack,
    fun block member lifecycle canLose => ?_⟩
  obtain ⟨rest, legible, inside⟩ :=
    SourceFile.legible_of_infix isFile whole (SourceFile.infix_of_block member)
  have sturdy := sturdy_of_mem inside lone
  have alone := legible.exchange_endsLine (fun token inside => (sturdy token inside).1)
    (fun token inside => (sturdy token inside).2) rfl fun _ => rfl
  exact readsBack_removeSuperCalls alone sturdy canLose

end Source

/-- An import and a call in lines of their own go, and the comments above them stay. -/
theorem readsBack_ownLines :
    let source := "import Testing\n// a\nimport XCTest\nfunc setUp() \x7b\n// b\nsuper.setUp()\n\x7d"
    let file := SourceFile.parse source
    Node.render (importPass.run file).file =
      "import Testing\n// a\nfunc setUp() \x7b\n// b\nsuper.setUp()\n\x7d" ∧
    ReadsBack (Node.tokens (importPass.run file).file) ∧
    ∃ block ∈ file.blocks,
      Token.renderAll (removeSuperCalls .setUp block).tokens = "\x7b\n// b\n\x7d" ∧
      ReadsBack (removeSuperCalls .setUp block).tokens := by
  intro source file
  have whole : Node.render (SourceFile.parse source) = source := by decide +kernel
  have lone : ∀ token ∈ (tokenize source).tokens, Piece.isLone token.text.toList = false := by
    decide +kernel
  have canMigrate : (SourceFile.parse source).CanMigrate := by decide +kernel
  obtain ⟨block, member, canLose, text_eq⟩ : ∃ block ∈ (SourceFile.parse source).blocks,
      block.CanLoseCalls .setUp ∧
        Token.renderAll (removeSuperCalls .setUp block).tokens = "\x7b\n// b\n\x7d" := by
    decide +kernel
  obtain ⟨afterImports, afterCalls⟩ := readsBack_of_canDrop whole lone
  refine ⟨?_, afterImports canMigrate, block, member, text_eq, ?_⟩
  · decide +kernel
  · exact afterCalls block member .setUp canLose

/-- In `import XCTest; let x = 1` the statement behind the removed one does not start a line. The
comment above the import is carried over without its line break, and takes the statement. A comment
that spans lines is cut open where the removed statement begins in its last line, and a comment above
a call that is last in its block takes the brace. -/
theorem carried_swallowed :
    (let source := "import Testing\n// c\nimport XCTest; let x = 1"
    let file := (importPass.run (SourceFile.parse source)).file
    Node.render (SourceFile.parse source) = source ∧
      Node.render file = "import Testing\n// clet x = 1" ∧ ¬ReadsBack (Node.tokens file)) ∧
    (let source := "import Testing\n/* a\n b */ import XCTest\nlet x = 1"
    let file := (importPass.run (SourceFile.parse source)).file
    Node.render (SourceFile.parse source) = source ∧
      Node.render file = "import Testing\n/* a\nlet x = 1" ∧ ¬ReadsBack (Node.tokens file)) ∧
    let source := "func setUp() \x7b\n// c\nsuper.setUp() \x7d"
    Node.render (SourceFile.parse source) = source ∧
      ∃ block ∈ (SourceFile.parse source).blocks,
        Token.renderAll (removeSuperCalls .setUp block).tokens = "\x7b\n// c\x7d" ∧
          ¬ReadsBack (removeSuperCalls .setUp block).tokens := by
  decide +kernel

end SuiteMigration
