import Mathlib.Tactic.Common
import SuiteMigration.Proofs.Reading.Progress
import SuiteMigration.Proofs.Reading.Safety
import SuiteMigration.Proofs.Reading.Shapes

/-!
# The keyword of a declaration

Whether a declaration begins somewhere is found out by looking ahead over its attributes and
modifiers to its keyword. When the declaration is read, its attributes and modifiers are read first,
by loops of their own, and then the next token is taken for the keyword without another look at it.
So the two have to come to the same token. They do: the loops go the same way wherever the
look-ahead finds a keyword, since it has seen each attribute to be complete and each group to be
closed.

## Main definitions

* `Cursor.ReadsExactly` - one cursor comes from another by reading the given tokens as they are
* `Decl.front` - what a declaration begins with, through its keyword
* `Parser.TakesNext` - a computation takes the next token, and what it gives meets a condition

## Main results

* `Cursor.attributes_of_afterAttributes?`, `Cursor.modifiers_of_afterModifiers?` - attributes and
  modifiers are read as far as the look-ahead goes over them
* `Parser.front_of_decl` - a declaration takes the token after its modifiers for its keyword
* `declarationKeyword_meets_reading` - the keyword that is found is the one that is read
-/

namespace SuiteMigration

/-! ### Tokens as they are -/

/-- From one cursor to the other exactly the given tokens are read, and each as it is. -/
structure Cursor.ReadsExactly (cursor : Cursor) (tokens : List Token) (next : Cursor) : Prop where
  endOfFile : next.endOfFile = cursor.endOfFile
  pending : cursor.pending = tokens ++ next.pending
  previous : next.previous = tokens.getLast?.or cursor.previous

namespace Cursor

variable {cursor middle next : Cursor} {tokens first second : List Token} {fuel : Nat}

namespace ReadsExactly

theorem refl (cursor : Cursor) : cursor.ReadsExactly [] cursor :=
  ⟨rfl, rfl, rfl⟩

/-- What is read in two steps is read in one. -/
theorem trans (before : cursor.ReadsExactly first middle)
    (after : middle.ReadsExactly second next) : cursor.ReadsExactly (first ++ second) next where
  endOfFile := after.endOfFile.trans before.endOfFile
  pending := by rw [before.pending, after.pending, List.append_assoc]
  previous := by rw [after.previous, before.previous, List.getLast?_append, Option.or_assoc]

/-- Tokens that are read as they are need none of the liberties of a tree. -/
theorem reads (exact : cursor.ReadsExactly tokens next) : cursor.Reads tokens next :=
  ⟨exact.endOfFile, ⟨tokens, exact.pending, exact.previous⟩, by
    rw [exact.pending, Token.atomsOf_append]⟩

/-- The tokens that are read are those between the indices of the two cursors. -/
theorem exists_cursorAt {stream : TokenStream} {index : Nat} (le : index ≤ stream.tokens.length)
    (exact : (stream.cursorAt index).ReadsExactly tokens next) :
    ∃ later, index ≤ later ∧ later ≤ stream.tokens.length ∧ next = stream.cursorAt later ∧
      stream.tokens.take later = stream.tokens.take index ++ tokens := by
  obtain ⟨later, ge, within, rfl⟩ := exact.reads.exists_cursorAt le
  have pending : stream.tokens.drop index = tokens ++ stream.tokens.drop later := exact.pending
  have whole : stream.tokens.take later ++ stream.tokens.drop later =
      stream.tokens.take index ++ tokens ++ stream.tokens.drop later := by
    rw [List.take_append_drop, List.append_assoc, ← pending, List.take_append_drop]
  exact ⟨later, ge, within, rfl, List.append_cancel_right whole⟩

end ReadsExactly

/-! ### Attributes and modifiers -/

theorem readsExactly_take (cursor : Cursor) (count : Nat) :
    cursor.ReadsExactly (cursor.take count).1 (cursor.take count).2 :=
  ⟨rfl, (List.take_append_drop count cursor.pending).symm, rfl⟩

theorem take_one (rest : cursor.pending ≠ []) :
    cursor.take 1 = ([cursor.bump.1], cursor.bump.2) := by
  obtain ⟨token, later, pending⟩ := List.exists_cons_of_ne_nil rest
  simp [take, bump, pending]

theorem readsExactly_bump (rest : cursor.pending ≠ []) :
    cursor.ReadsExactly [cursor.bump.1] cursor.bump.2 := by
  have exact := cursor.readsExactly_take 1
  rwa [take_one rest] at exact

theorem skip_one (rest : cursor.pending ≠ []) : cursor.skip 1 = cursor.bump.2 :=
  congrArg Prod.snd (take_one rest)

/-- A name after the token at the cursor is read second. -/
theorem Proper.bump_of_second (proper : cursor.Proper) (name : cursor.second.kind = .identifier) :
    cursor.pending ≠ [] ∧ cursor.bump.2.pending ≠ [] ∧ cursor.skip 2 = cursor.bump.2.bump.2 := by
  have ending : cursor.endOfFile.kind ≠ .identifier := by
    rw [proper]
    decide
  obtain ⟨previous, _ | ⟨first, _ | ⟨second, later⟩⟩, endOfFile⟩ := cursor
  · exact absurd name ending
  · exact absurd name ending
  · simp [bump, skip, take]

/-- A group that the look-ahead sees closed is read through its end. -/
theorem takeAttachedGroup_of_afterAttachedGroup? (found : cursor.afterAttachedGroup? = some next) :
    cursor.takeAttachedGroup.2 = next := by
  rw [afterAttachedGroup?] at found
  rw [takeAttachedGroup, attachedGroup]
  split at found
  · next attached =>
    rw [afterGroup?, Option.map_eq_some_iff] at found
    obtain ⟨length, closed, rfl⟩ := found
    rw [if_pos attached, balanced, closed]
    rfl
  · next plain =>
    rw [if_neg plain, ← Option.some.inj found]
    simp [take]

/-- Attributes are read as far as the look-ahead goes over them. -/
theorem attributes_of_afterAttributes? (proper : cursor.Proper)
    (found : afterAttributes? fuel cursor = some next) :
    (cursor.attributes fuel).2 = next ∧
      cursor.ReadsExactly (Node.tokens (cursor.attributes fuel).1) next := by
  induction fuel generalizing cursor with
  | zero =>
    obtain rfl := Option.some.inj found
    exact ⟨rfl, .refl cursor⟩
  | succ fuel ih =>
    rw [afterAttributes?] at found
    rw [attributes]
    split at found
    · next sign =>
      split at found
      · -- A sign with no name after it makes the look-ahead give up, so here both are read.
        next name =>
        obtain ⟨rest, rest', two⟩ := proper.bump_of_second (beq_iff_eq.1 name)
        rw [two] at found
        split at found
        · next middle passed =>
          have group := takeAttachedGroup_of_afterAttachedGroup? passed
          have before := ((readsExactly_bump rest).trans (readsExactly_bump rest')).trans
            (readsExactly_take _ cursor.bump.2.bump.2.attachedGroup)
          rw [← takeAttachedGroup, group] at before
          obtain ⟨same, later⟩ := ih (before.reads.proper proper) found
          rw [if_pos (by rw [sign, name]; rfl)]
          simp only [group]
          exact ⟨same, before.trans later⟩
        · cases found
      · cases found
    · next other =>
      obtain rfl := Option.some.inj found
      rw [if_neg (by simp [other])]
      exact ⟨rfl, .refl cursor⟩

/-- Modifiers are read as far as the look-ahead goes over them. -/
theorem modifiers_of_afterModifiers? (proper : cursor.Proper)
    (found : afterModifiers? fuel cursor = some next) :
    (cursor.modifiers fuel).2 = next ∧
      cursor.ReadsExactly (Node.tokens (cursor.modifiers fuel).1) next := by
  induction fuel generalizing cursor with
  | zero =>
    obtain rfl := Option.some.inj found
    exact ⟨rfl, .refl cursor⟩
  | succ fuel ih =>
    rw [afterModifiers?] at found
    rw [modifiers]
    split at found
    · next modifier =>
      have rest := proper.pending_ne_nil_of_atModifier modifier
      rw [skip_one rest] at found
      split at found
      · next middle passed =>
        -- The modifier and its group are read together, and the rest from behind them.
        have group := takeAttachedGroup_of_afterAttachedGroup? passed
        have before := (readsExactly_bump rest).trans
          (readsExactly_take _ cursor.bump.2.attachedGroup)
        rw [← takeAttachedGroup, group] at before
        obtain ⟨same, later⟩ := ih (before.reads.proper proper) found
        rw [if_pos modifier]
        simp only [group]
        exact ⟨same, before.trans later⟩
      · cases found
    · next other =>
      obtain rfl := Option.some.inj found
      rw [if_neg other]
      exact ⟨rfl, .refl cursor⟩

/-- Attributes and modifiers are read up to the keyword that the look-ahead finds. -/
theorem Proper.reads_declarationKeyword (proper : cursor.Proper) {keyword : Cursor}
    (found : cursor.declarationKeyword? = some keyword) :
    ∃ attributes modifiers middle, Parser.attributes cursor = some (attributes, middle) ∧
      Parser.modifiers middle = some (modifiers, keyword) ∧
      cursor.ReadsExactly (Node.tokens attributes ++ Node.tokens modifiers) keyword ∧
      keyword.pending ≠ [] := by
  simp only [declarationKeyword?, Option.bind_eq_bind, Option.bind_eq_some_iff] at found
  obtain ⟨middle, passed, keyword', passed', found⟩ := found
  split at found
  · next isKeyword =>
    obtain rfl := Option.some.inj found
    obtain ⟨here, read⟩ := attributes_of_afterAttributes? proper passed
    have proper' := read.reads.proper proper
    obtain ⟨here', read'⟩ := modifiers_of_afterModifiers? proper' passed'
    refine ⟨_, _, middle, congrArg some (Prod.ext rfl here), congrArg some (Prod.ext rfl here'),
      read.trans read', (read'.reads.proper proper').pending_ne_nil ?_⟩
    have kind : keyword'.peek.kind = .identifier := by
      rw [isDeclarationKeyword, Bool.and_eq_true, beq_iff_eq] at isKeyword
      exact isKeyword.1
    rw [kind]
    decide
  · cases found

/-- No declaration begins with a directive. -/
theorem declarationKeyword?_of_pound (pound : cursor.peek.kind = .poundIdentifier) :
    cursor.declarationKeyword? = none := by
  have noAttributes (fuel : Nat) : afterAttributes? fuel cursor = some cursor := by
    cases fuel <;> simp [afterAttributes?, isAt, pound]
  have noModifiers (fuel : Nat) : afterModifiers? fuel cursor = some cursor := by
    cases fuel <;> simp [afterModifiers?, atModifier, pound]
  simp [declarationKeyword?, noAttributes, noModifiers, isDeclarationKeyword, pound]

end Cursor

/-! ### The next token is the keyword -/

/-- What a declaration begins with: its attributes, its modifiers and its keyword. That of a
declaration that is kept as it is is the first of its tokens. -/
def Decl.front : Decl → List Attribute × List Modifier × Option Token
  | .importing decl => (decl.attributes, decl.modifiers, decl.keyword)
  | .type header _ => (header.attributes, header.modifiers, header.keyword)
  | .function header _ => (header.attributes, header.modifiers, header.keyword)
  | .variable header _ => (header.attributes, header.modifiers, header.keyword)
  | .initializer header _ => (header.attributes, header.modifiers, header.keyword)
  | .finalizer header _ => (header.attributes, header.modifiers, header.keyword)
  | .raw decl => (decl.attributes, decl.modifiers, decl.tokens.head?)

namespace Parser

/-- From the cursor the computation takes the next token at least, and what it gives meets the
condition. -/
def TakesNext (cursor : Cursor) (p : Parser α) (post : α → Prop) : Prop :=
  ∀ answer next, p cursor = some (answer, next) → cursor.bump.2.Passes next ∧ post answer

namespace TakesNext

variable {cursor : Cursor} {p : Parser α} {f : α → Parser β} {middle : α → Prop} {post : β → Prop}

/-- A run that is not empty begins with the next token. -/
theorem run {length : Cursor → Nat} (rest : cursor.pending ≠ []) (pos : 0 < length cursor) :
    TakesNext cursor (Parser.run length) fun tokens => tokens.head? = some cursor.peek := by
  intro tokens next given
  obtain ⟨rfl, rfl⟩ := Prod.mk.inj (Option.some.inj given)
  obtain ⟨token, later, pending⟩ := List.exists_cons_of_ne_nil rest
  obtain ⟨count, some⟩ := Nat.exists_eq_add_one.2 pos
  rw [some]
  refine ⟨⟨?_, ?_⟩, ?_⟩
  · simp [Cursor.bump, pending]
  · simpa [Cursor.take, Cursor.bump, pending] using List.drop_suffix count later
  · simp [Cursor.peek, pending]

theorem bind (first : TakesNext cursor p middle) (forward : ∀ answer, Forward (f answer))
    (later : ∀ answer, middle answer → Gives (f answer) post) :
    TakesNext cursor (p >>= f) post := by
  intro answer last given
  obtain ⟨value, next, read, rest⟩ := bind_eq_some given
  obtain ⟨passes, holds⟩ := first value next read
  exact ⟨passes.trans (forward value next answer last rest),
    later value holds next answer last rest⟩

/-- What begins by taking a token takes the next one. -/
theorem bump {f : Token → Parser β} (rest : cursor.pending ≠ [])
    (forward : ∀ token, Forward (f token)) (later : Gives (f cursor.peek) post) :
    TakesNext cursor (Parser.bump >>= f) post := by
  have first : TakesNext cursor Parser.bump fun token => token = cursor.peek := by
    intro token next given
    obtain ⟨rfl, rfl⟩ := Prod.mk.inj (Option.some.inj given)
    exact ⟨.refl _, Cursor.bump_fst rest⟩
  refine first.bind forward ?_
  rintro _ rfl
  exact later

theorem map {make : α → β} (first : TakesNext cursor p fun answer => post (make answer)) :
    TakesNext cursor (make <$> p) post := by
  rw [← bind_pure_comp]
  exact first.bind (fun _ => .pure _) fun _ holds => .pure holds

theorem ite {condition : Prop} [Decidable condition] {p q : Parser β}
    (holds : TakesNext cursor p post) (fails : TakesNext cursor q post) :
    TakesNext cursor (if condition then p else q) post := by
  split
  · exact holds
  · exact fails

end TakesNext

section

variable {cursor : Cursor} (rest : cursor.pending ≠ []) (attributes : List Attribute)
  (modifiers : List Modifier)
include rest

theorem takesNext_importDecl : TakesNext cursor (importDecl attributes modifiers) fun decl =>
    (Decl.importing decl).front = (attributes, modifiers, some cursor.peek) := by
  refine .bump rest (fun _ => ?_) ?_
  · exact (Forward.bumpIf _).bind fun _ => (Forward.run _).bind fun _ => .pure _
  · exact .after fun _ => .after fun _ => .pure rfl

theorem takesNext_typeHeader : TakesNext cursor (typeHeader attributes modifiers) fun header =>
    ∀ members, (Decl.type header members).front = (attributes, modifiers, some cursor.peek) := by
  refine .bump rest (fun _ => ?_) ?_
  · exact (Forward.expect _).bind fun _ => (Forward.run _).bind fun _ =>
      (Forward.of_agree agree_inheritanceClause).bind fun _ => (Forward.run _).bind fun _ => .pure _
  · exact .after fun _ => .after fun _ => .after fun _ => .after fun _ => .pure fun _ => rfl

theorem takesNext_functionHeader :
    TakesNext cursor (functionHeader attributes modifiers) fun header =>
      ∀ body, (Decl.function header body).front = (attributes, modifiers, some cursor.peek) := by
  refine .bump rest (fun _ => ?_) ?_
  · exact (Forward.bumpIf _).bind fun _ => (Forward.run _).bind fun _ =>
      (Forward.of_agree agree_parameterClause).bind fun _ => (Forward.run _).bind fun _ => .pure _
  · exact .after fun _ => .after fun _ => .after fun _ => .after fun _ => .pure fun _ => rfl

theorem takesNext_initializerHeader :
    TakesNext cursor (initializerHeader attributes modifiers) fun header =>
      ∀ body, (Decl.initializer header body).front = (attributes, modifiers, some cursor.peek) := by
  refine .bump rest (fun _ => ?_) ?_
  · exact (Forward.bumpIf _).bind fun _ => (Forward.run _).bind fun _ =>
      (Forward.of_agree agree_parameterClause).bind fun _ => (Forward.run _).bind fun _ => .pure _
  · exact .after fun _ => .after fun _ => .after fun _ => .after fun _ => .pure fun _ => rfl

/-- A declaration that is kept as it is has at least its first token. -/
theorem takesNext_rawDecl : TakesNext cursor (rawDecl attributes modifiers) fun decl =>
    (Decl.raw decl).front = (attributes, modifiers, some cursor.peek) := by
  have pos : 0 < cursor.rawDeclarationRun := by
    obtain ⟨token, later, pending⟩ := List.exists_cons_of_ne_nil rest
    rw [Cursor.rawDeclarationRun, pending]
    exact Nat.lt_add_right _ Nat.one_pos
  refine (TakesNext.run rest pos).bind (fun _ => .pure _) fun tokens first => .pure ?_
  rw [Decl.front, first]

end

/-- A declaration takes the token after its modifiers for its keyword, whatever that is. -/
theorem front_of_decl {fuel : Nat} {cursor middle keyword next : Cursor}
    {attributes : List Attribute} {modifiers : List Modifier} {decl : Decl}
    (readAttributes : Parser.attributes cursor = some (attributes, middle))
    (readModifiers : Parser.modifiers middle = some (modifiers, keyword))
    (rest : keyword.pending ≠ []) (given : Parser.decl fuel cursor = some (decl, next)) :
    keyword.bump.2.Passes next ∧ decl.front = (attributes, modifiers, some keyword.peek) := by
  cases fuel with
  | zero => cases given
  | succ fuel =>
    have grammar := allForward fuel
    have asked : ask (·.peek.text) keyword = some (keyword.peek.text, keyword) := rfl
    rw [Parser.decl, bind_apply readAttributes, bind_apply readModifiers, bind_apply asked] at given
    refine (?_ : TakesNext keyword _ fun decl : Decl =>
      decl.front = (attributes, modifiers, some keyword.peek)) decl next given
    -- The word decides what is read, but each kind of declaration begins with the next token.
    refine .ite ?_ (.ite ?_ (.ite ?_ (.ite ?_ (.ite ?_ (.ite ?_ ?_)))))
    · exact .map (takesNext_importDecl rest attributes modifiers)
    · exact (takesNext_typeHeader rest attributes modifiers).bind
        (fun _ => grammar.codeBlock.bind fun _ => .pure _) fun _ front => .after fun _ =>
        .pure (front _)
    · exact (takesNext_functionHeader rest attributes modifiers).bind
        (fun _ => grammar.optionalBlock.bind fun _ => .pure _) fun _ front => .after fun _ =>
        .pure (front _)
    · exact .bump rest (fun _ => grammar.bindings.bind fun _ => .pure _)
        (.after fun _ => .pure rfl)
    · exact (takesNext_initializerHeader rest attributes modifiers).bind
        (fun _ => grammar.optionalBlock.bind fun _ => .pure _) fun _ front => .after fun _ =>
        .pure (front _)
    · exact .bump rest (fun _ => grammar.optionalBlock.bind fun _ => .pure _)
        (.after fun _ => .pure rfl)
    · exact .map (takesNext_rawDecl rest attributes modifiers)

/-- With enough fuel a declaration is read, and the amount makes no difference. -/
theorem exists_decl {cursor : Cursor} (proper : cursor.Proper) :
    ∃ decl next, cursor.Reads decl.tokens next ∧
      ∀ fuel, 24 * cursor.left + 4 ≤ fuel → Parser.decl fuel cursor = some (decl, next) := by
  have agree (fuel : Nat) (enough : 24 * cursor.left + 4 ≤ fuel) :=
    (settled (24 * cursor.left + 4) fuel).decl cursor ⟨proper, Nat.le_refl _, enough⟩
  obtain ⟨decl, next, least, -, reads⟩ := agree _ (Nat.le_refl _)
  refine ⟨decl, next, reads, fun fuel enough => ?_⟩
  obtain ⟨decl', next', least', given, -⟩ := agree fuel enough
  rw [given, ← least', least]

/-! ### Statements that are declarations -/

/-- Where the look-ahead finds a keyword, the item is a declaration. -/
theorem item_of_declarationKeyword? {fuel : Nat} {cursor keyword : Cursor}
    (found : cursor.declarationKeyword? = some keyword) :
    Parser.item (fuel + 1) cursor = (Item.decl <$> Parser.decl fuel) cursor := by
  have noDirective : (cursor.peek.kind == .poundIdentifier) = false := by
    refine beq_eq_false_iff_ne.2 fun pound => ?_
    rw [Cursor.declarationKeyword?_of_pound pound] at found
    cases found
  have asked : (MonadState.get : Parser Cursor) cursor = some (cursor, cursor) := rfl
  rw [Parser.item, bind_apply asked]
  simp only [noDirective, Bool.false_and, Bool.false_eq_true, if_false, found, Option.isSome_some,
    if_true]

/-- A declaration that has taken a token is a statement, with a semicolon or without. -/
theorem statement_of_decl {fuel : Nat} {cursor keyword next : Cursor} {decl : Decl}
    (found : cursor.declarationKeyword? = some keyword)
    (read : Parser.decl fuel cursor = some (decl, next)) (fewer : next.left < cursor.left) :
    Parser.statement (fuel + 2) cursor =
      ((fun semicolon => { item := .decl decl, semicolon }) <$> bumpIf (·.isAt .semicolon)) next := by
  have item : Parser.item (fuel + 1) cursor = some (.decl decl, next) := by
    rw [item_of_declarationKeyword? found, map_apply read]
  have before : ask (·.pending.length) cursor = some (cursor.left, cursor) := rfl
  have after : ask (·.pending.length) next = some (next.left, next) := rfl
  -- Something was read, so the item stays and no token is taken in its place.
  rw [Parser.statement, bind_apply before, bind_apply item, bind_apply after,
    if_neg (Nat.ne_of_lt fewer)]
  rfl

end Parser

/-! ### The keyword that is found is the one that is read -/

/-- Where only the last token ends the source, the loop over an index finds the place of the
look-ahead. -/
theorem Indexed.declarationKeyword_eq {stream : TokenStream} (ended : stream.Ended)
    {index place : Nat} (le : index ≤ stream.tokens.length) (le' : place ≤ stream.tokens.length)
    (found : (stream.cursorAt index).declarationKeyword? = some (stream.cursorAt place)) :
    Indexed.declarationKeyword stream.toList index = some (some place) := by
  obtain ⟨_ | other, probe, answer, bounds⟩ := tracks_declarationKeyword ended le
  · rw [found] at answer
    cases answer
  · rw [found] at answer
    have left : (stream.cursorAt place).left = (stream.cursorAt other).left :=
      congrArg Cursor.left (Option.some.inj answer)
    rw [TokenStream.left_cursorAt, TokenStream.left_cursorAt] at left
    have bound := (bounds other rfl).2
    rw [probe, show other = place by omega]

/-- If the look-ahead from an index finds the keyword of a declaration, attributes and modifiers are
read from there up to just this keyword, and the declaration that is read takes it for its own: the
tokens of its attributes and modifiers are those before the keyword, and what comes after them is
the keyword. So the statement is this declaration, and ends after the keyword. -/
theorem declarationKeyword_meets_reading {stream : TokenStream} {index : Nat} {keyword : Cursor}
    (ending : stream.endOfFile.kind = .endOfFile) (le : index ≤ stream.tokens.length)
    (found : (stream.cursorAt index).declarationKeyword? = some keyword) :
    ∃ place attributes modifiers middle,
      keyword = stream.cursorAt place ∧ index ≤ place ∧
      (stream.Ended → Indexed.declarationKeyword stream.toList index = some (some place)) ∧
      Parser.attributes (stream.cursorAt index) = some (attributes, middle) ∧
      Parser.modifiers middle = some (modifiers, stream.cursorAt place) ∧
      stream.tokens.take place =
        stream.tokens.take index ++ (Node.tokens attributes ++ Node.tokens modifiers) ∧
      ∃ decl later, place < later ∧ later ≤ stream.tokens.length ∧
        decl.front = (attributes, modifiers, stream.tokens[place]?) ∧
        (∀ fuel, 24 * (stream.tokens.length - index) + 4 ≤ fuel →
          Parser.decl fuel (stream.cursorAt index) = some (decl, stream.cursorAt later)) ∧
        ∃ semicolon further, later ≤ further ∧ further ≤ stream.tokens.length ∧
          ∀ fuel, 24 * (stream.tokens.length - index) + 6 ≤ fuel →
            Parser.statement fuel (stream.cursorAt index) =
              some ({ item := .decl decl, semicolon }, stream.cursorAt further) := by
  have proper : (stream.cursorAt index).Proper := ending
  obtain ⟨attributes, modifiers, middle, readAttributes, readModifiers, exact, rest⟩ :=
    proper.reads_declarationKeyword found
  obtain ⟨place, ge, within, rfl, before⟩ := exact.exists_cursorAt le
  obtain ⟨decl, next, reads, given⟩ := Parser.exists_decl proper
  obtain ⟨later, ge', within', rfl⟩ := reads.exists_cursorAt le
  rw [TokenStream.left_cursorAt] at given
  obtain ⟨passes, front⟩ :=
    Parser.front_of_decl readAttributes readModifiers rest (given _ (Nat.le_refl _))
  -- The token at the keyword is taken, so the declaration ends after it.
  have lt : place < stream.tokens.length := by
    simpa [TokenStream.cursorAt] using rest
  have beyond : place < later := by
    have fewer := passes.suffix.length_le
    rw [← Cursor.skip_one rest, TokenStream.skip_cursorAt, ← Cursor.left, ← Cursor.left,
      TokenStream.left_cursorAt, TokenStream.left_cursorAt] at fewer
    omega
  have token : stream.tokens[place]? = some (stream.cursorAt place).peek := by
    simp [TokenStream.cursorAt, Cursor.peek, List.headD_eq_head?_getD, List.head?_eq_getElem?, lt]
  obtain ⟨semicolon, final, ended, -, semicolonReads⟩ :=
    Parser.agree_bumpIf (·.isAt .semicolon) (stream.cursorAt later)
  obtain ⟨further, ge'', within'', rfl⟩ := semicolonReads.exists_cursorAt within'
  refine ⟨place, attributes, modifiers, middle, rfl, ge,
    fun ended => Indexed.declarationKeyword_eq ended le within found, readAttributes,
    readModifiers, before, decl, later, beyond, within', token ▸ front, given, semicolon, further,
    ge'', within'', fun fuel enough => ?_⟩
  obtain ⟨fuel, rfl⟩ : ∃ less, fuel = less + 2 := ⟨fuel - 2, by omega⟩
  have fewer : (stream.cursorAt later).left < (stream.cursorAt index).left := by
    rw [TokenStream.left_cursorAt, TokenStream.left_cursorAt]
    omega
  rw [Parser.statement_of_decl found (given fuel (by omega)) fewer, Parser.map_apply ended]

/-- The tokens of `@objc private(set) class var x`. -/
def classVariable : TokenStream where
  tokens :=
    [{ kind := .atSign, text := "@" }, { kind := .identifier, text := "objc", trailing := " " },
     { kind := .identifier, text := "private" }, { kind := .leftParen, text := "(" },
     { kind := .identifier, text := "set" }, { kind := .rightParen, text := ")", trailing := " " },
     { kind := .identifier, text := "class", trailing := " " },
     { kind := .identifier, text := "var", trailing := " " }, { kind := .identifier, text := "x" }]
  endOfFile := { kind := .endOfFile, text := "" }

/-- The word `class` is one of the modifiers here, and `var` is not. -/
theorem declarationKeyword_meets_reading_classModifier :
    classVariable.endOfFile.kind = .endOfFile ∧ 0 ≤ classVariable.tokens.length ∧
      (classVariable.cursorAt 0).declarationKeyword? = some (classVariable.cursorAt 7) ∧
      ∃ attributes modifiers decl later, 7 < later ∧ later ≤ 9 ∧
        classVariable.tokens.take 7 = Node.tokens attributes ++ Node.tokens modifiers ∧
        decl.front = (attributes, modifiers, classVariable.tokens[7]?) ∧
        Parser.decl 220 (classVariable.cursorAt 0) = some (decl, classVariable.cursorAt later) := by
  have found : (classVariable.cursorAt 0).declarationKeyword? =
      some (classVariable.cursorAt 7) := rfl
  obtain ⟨place, attributes, modifiers, _, same, -, -, -, -, before, decl, later, lt, le, front,
    given, -⟩ := declarationKeyword_meets_reading rfl (Nat.zero_le _) found
  have length : classVariable.tokens.length = 9 := rfl
  obtain rfl : 7 = place := by
    have left := congrArg Cursor.left same
    rw [TokenStream.left_cursorAt, TokenStream.left_cursorAt] at left
    omega
  exact ⟨rfl, Nat.zero_le _, found, attributes, modifiers, decl, later, lt, le, before, front,
    given 220 (by decide)⟩

end SuiteMigration
