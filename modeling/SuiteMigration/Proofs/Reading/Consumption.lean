import Mathlib.Tactic.Common
import SuiteMigration.Reading.Source

/-!
# What reading takes from the tokens

A tree holds the tokens of its source in their order, with two liberties: a token that the source
omits stands in the tree without width, and the word `as` takes a mark that follows it directly into
its own token. `Token.atoms` undoes both, so that what is read and what is built can be compared as
lists of tokens.

A computation that reads tokens is followed at two amounts of fuel at once. `Parser.Agree` says that
both give the same answer and that the answer meets a condition, so that one argument shows that the
fuel suffices, that more of it changes nothing, and what was read.

## Main definitions

* `Token.atoms`, `Token.atomsOf` - the tokens of a source that the tokens of its tree stand for
* `Cursor.Reads` - from one cursor to another exactly the given tokens are read
* `Parser.Agree` - two computations give the same answer, which meets a condition

## Main results

* `Token.renderAll_atomsOf` - the tokens that a tree stands for have the text of the tree
* `Cursor.Reads.trans` - what is read in two steps is read in one
* `Parser.Agree.bind` - computations that agree step by step agree
-/

namespace SuiteMigration

/-! ### Tokens of a tree and tokens of its source -/

namespace Token

/-- The tokens of a source that a token of its tree stands for. One without width stands for none,
and the word `as` with a mark stands for the word and the mark. -/
def atoms (token : Token) : List Token :=
  if token.render = "" then []
  else if token.kind = .identifier ∧ (token.text = "as?" ∨ token.text = "as!") then
    [{ token with text := "as", trailing := "" },
     { kind := .operator, text := if token.text = "as?" then "?" else "!"
       trailing := token.trailing }]
  else [token]

/-- The tokens of a source that the tokens of its tree stand for. -/
def atomsOf (tokens : List Token) : List Token :=
  tokens.flatMap atoms

@[simp] theorem atomsOf_nil : atomsOf [] = [] := rfl

@[simp] theorem atomsOf_cons (token : Token) (tokens : List Token) :
    atomsOf (token :: tokens) = token.atoms ++ atomsOf tokens := rfl

/-- The atoms of tokens in a row. -/
@[simp] theorem atomsOf_append (first second : List Token) :
    atomsOf (first ++ second) = atomsOf first ++ atomsOf second :=
  List.flatMap_append

/-- A missing token has no atoms. -/
@[simp] theorem atoms_missing (kind : TokenKind) : (missing kind).atoms = [] := rfl

/-- A token that renders as nothing is empty in all its parts. -/
theorem render_eq_empty_iff {token : Token} :
    token.render = "" ↔ token.leading = "" ∧ token.text = "" ∧ token.trailing = "" := by
  simp [render, and_assoc]

theorem render_ne_empty {token : Token} (word : token.text ≠ "") : token.render ≠ "" :=
  fun none => word (render_eq_empty_iff.1 none).2.1

/-- A token with a text stands for itself, unless a mark is part of it. -/
theorem atoms_of_text {token : Token} (word : token.text ≠ "")
    (unfused : ¬(token.kind = .identifier ∧ (token.text = "as?" ∨ token.text = "as!"))) :
    token.atoms = [token] := by
  rw [atoms, if_neg (render_ne_empty word), if_neg unfused]

/-- A token without a text that stands for words stands for none. -/
theorem render_eq_empty_of_words {token : Token} (words : ∀ atom ∈ token.atoms, atom.text ≠ "")
    (none : token.text = "") : token.render = "" := by
  by_contra width
  have own : token.atoms = [token] := by
    rw [atoms, if_neg width, if_neg (by simp [none])]
  rw [own] at words
  exact words token (List.mem_singleton_self token) none

/-- The atoms of a token render as the token does. -/
theorem renderAll_atoms (token : Token) : renderAll token.atoms = token.render := by
  unfold atoms
  split
  · next width => exact width.symm
  split
  · next fused =>
    rw [← String.toList_inj]
    obtain ⟨-, text | text⟩ := fused <;> simp [render, text]
  · simp

/-- The tokens that a tree stands for have the text of the tree. -/
theorem renderAll_atomsOf (tokens : List Token) :
    renderAll (atomsOf tokens) = renderAll tokens := by
  induction tokens with
  | nil => rfl
  | cons token later ih => simp [renderAll_atoms, ih]

/-- The word `as` and a mark that follows it directly are what their common token stands for. -/
theorem atoms_fused {word mark : Token} (kind : word.kind = .identifier) (text : word.text = "as")
    (isMark : mark.isOptionalMark) (trailing : word.trailing = "") (leading : mark.leading = "") :
    atoms { word with text := word.text ++ mark.text, trailing := mark.trailing } =
      word.atoms ++ mark.atoms := by
  obtain ⟨wordKind, wordText, wordLeading, wordTrailing⟩ := word
  obtain ⟨markKind, markText, markLeading, markTrailing⟩ := mark
  obtain rfl : wordKind = .identifier := kind
  obtain rfl : wordText = "as" := text
  obtain rfl : wordTrailing = "" := trailing
  obtain rfl : markLeading = "" := leading
  simp only [isOptionalMark, isOperator, Bool.or_eq_true, Bool.and_eq_true, beq_iff_eq] at isMark
  obtain ⟨rfl, rfl⟩ | ⟨rfl, rfl⟩ := isMark <;> simp [atoms, render]

end Token

/-! ### What is read between two cursors -/

namespace Cursor

/-- The number of tokens still to read. -/
abbrev left (cursor : Cursor) : Nat :=
  cursor.pending.length

/-- The stream of the cursor ends with the token that ends a source. -/
def Proper (cursor : Cursor) : Prop :=
  cursor.endOfFile.kind = .endOfFile

/-- From one cursor to the other exactly the given tokens are read, up to the liberties of a
tree. -/
structure Reads (cursor : Cursor) (tokens : List Token) (next : Cursor) : Prop where
  endOfFile : next.endOfFile = cursor.endOfFile
  moved : ∃ passed, cursor.pending = passed ++ next.pending ∧
    next.previous = passed.getLast?.or cursor.previous
  atoms : Token.atomsOf cursor.pending = Token.atomsOf tokens ++ Token.atomsOf next.pending

namespace Reads

variable {cursor middle next : Cursor} {tokens first second : List Token}

theorem refl (cursor : Cursor) : cursor.Reads [] cursor :=
  ⟨rfl, ⟨[], rfl, rfl⟩, rfl⟩

/-- What is read in two steps is read in one. -/
theorem trans (before : cursor.Reads first middle) (after : middle.Reads second next) :
    cursor.Reads (first ++ second) next where
  endOfFile := after.endOfFile.trans before.endOfFile
  moved := by
    obtain ⟨passed, pending, previous⟩ := before.moved
    obtain ⟨passed', pending', previous'⟩ := after.moved
    refine ⟨passed ++ passed', by rw [pending, pending', List.append_assoc], ?_⟩
    rw [previous', previous, List.getLast?_append, Option.or_assoc]
  atoms := by rw [before.atoms, after.atoms, Token.atomsOf_append, List.append_assoc]

/-- What is left after reading was there before. -/
theorem suffix (reads : cursor.Reads tokens next) : next.pending <:+ cursor.pending := by
  obtain ⟨passed, pending, -⟩ := reads.moved
  exact ⟨passed, pending.symm⟩

/-- Reading leaves at most as many tokens. -/
theorem left_le (reads : cursor.Reads tokens next) : next.left ≤ cursor.left :=
  reads.suffix.length_le

/-- What comes later is as proper as what came before. -/
theorem proper (reads : cursor.Reads tokens next) (proper : cursor.Proper) : next.Proper := by
  rw [Proper, reads.endOfFile]
  exact proper

/-- Tokens with the same atoms can take the place of those that are read. -/
theorem of_atoms (reads : cursor.Reads first next)
    (same : Token.atomsOf second = Token.atomsOf first) : cursor.Reads second next :=
  ⟨reads.endOfFile, reads.moved, same ▸ reads.atoms⟩

end Reads

/-- At least one token is read, and exactly the given ones. -/
structure Takes (cursor : Cursor) (tokens : List Token) (next : Cursor) : Prop
    extends cursor.Reads tokens next where
  fewer : next.left < cursor.left

/-- Once a token is taken, more may be read. -/
theorem Takes.then {cursor middle next : Cursor} {first second : List Token}
    (before : cursor.Takes first middle) (after : middle.Reads second next) :
    cursor.Takes (first ++ second) next :=
  ⟨before.toReads.trans after, Nat.lt_of_le_of_lt after.left_le before.fewer⟩

/-- A token may be taken after others are read. -/
theorem Takes.after {cursor middle next : Cursor} {first second : List Token}
    (after : middle.Takes second next) (before : cursor.Reads first middle) :
    cursor.Takes (first ++ second) next :=
  ⟨before.trans after.toReads, Nat.lt_of_lt_of_le after.fewer before.left_le⟩

/-- Reading a token. -/
theorem reads_bump (cursor : Cursor) : cursor.Reads [cursor.bump.1] cursor.bump.2 := by
  unfold bump
  split
  · -- Past the end a token without text is given, and the cursor stays.
    exact (Reads.refl cursor).of_atoms rfl
  · next token later pending =>
    exact ⟨rfl, ⟨[token], pending, rfl⟩, by simp [pending]⟩

/-- Where tokens are left the next one is taken. -/
theorem takes_bump {cursor : Cursor} (rest : cursor.pending ≠ []) :
    cursor.Takes [cursor.bump.1] cursor.bump.2 := by
  refine ⟨cursor.reads_bump, ?_⟩
  unfold bump
  split
  · next none => exact absurd none rest
  · next token later pending => simp [left, pending]

/-- Reading a number of tokens. -/
theorem reads_take (cursor : Cursor) (count : Nat) :
    cursor.Reads (cursor.take count).1 (cursor.take count).2 where
  endOfFile := rfl
  moved := ⟨cursor.pending.take count, (List.take_append_drop count cursor.pending).symm, rfl⟩
  atoms := by
    rw [← Token.atomsOf_append]
    exact congrArg Token.atomsOf (List.take_append_drop count cursor.pending).symm

/-- Where tokens are left a run of them is taken. -/
theorem takes_take {cursor : Cursor} {count : Nat} (rest : cursor.pending ≠ []) (pos : 0 < count) :
    cursor.Takes (cursor.take count).1 (cursor.take count).2 := by
  refine ⟨cursor.reads_take count, ?_⟩
  have taken : (cursor.take count).2.left = cursor.left - count := List.length_drop
  rw [taken]
  exact Nat.sub_lt (List.length_pos_iff.2 rest) pos

end Cursor

/-! ### Cursors that are not at the end -/

namespace Cursor

variable {cursor : Cursor}

theorem peek_of_pending_eq_nil (none : cursor.pending = []) : cursor.peek = cursor.endOfFile := by
  simp [peek, none]

/-- At the end of a proper stream no other class of token stands at the cursor. -/
theorem Proper.pending_ne_nil (proper : cursor.Proper) (kind : cursor.peek.kind ≠ .endOfFile) :
    cursor.pending ≠ [] := by
  intro none
  rw [peek_of_pending_eq_nil none] at kind
  exact kind proper

/-- A token of a kind other than the end is one that is left. -/
theorem Proper.pending_ne_nil_of_isAt (proper : cursor.Proper) {kind : TokenKind}
    (at' : cursor.isAt kind = true) (other : kind ≠ .endOfFile) : cursor.pending ≠ [] := by
  refine proper.pending_ne_nil ?_
  rw [isAt, beq_iff_eq] at at'
  rw [at']
  exact other

theorem Proper.pending_ne_nil_of_atKeyword (proper : cursor.Proper) {keyword : String}
    (at' : cursor.atKeyword keyword = true) : cursor.pending ≠ [] := by
  refine proper.pending_ne_nil ?_
  simp only [atKeyword, Token.isKeyword, Bool.and_eq_true, beq_iff_eq] at at'
  simp [at'.1]

theorem Proper.pending_ne_nil_of_isOperator (proper : cursor.Proper) {operator : String}
    (at' : cursor.peek.isOperator operator = true) : cursor.pending ≠ [] := by
  refine proper.pending_ne_nil ?_
  simp only [Token.isOperator, Bool.and_eq_true, beq_iff_eq] at at'
  simp [at'.1]

theorem Proper.pending_ne_nil_of_isOptionalMark (proper : cursor.Proper)
    (at' : cursor.peek.isOptionalMark = true) : cursor.pending ≠ [] := by
  rw [Token.isOptionalMark, Bool.or_eq_true] at at'
  exact at'.elim proper.pending_ne_nil_of_isOperator proper.pending_ne_nil_of_isOperator

theorem bump_fst (rest : cursor.pending ≠ []) : cursor.bump.1 = cursor.peek := by
  obtain ⟨token, later, pending⟩ := List.exists_cons_of_ne_nil rest
  simp [bump, peek, pending]

end Cursor

/-! ### Computations that agree -/

namespace Parser

/-- Both computations give the same answer at the cursor, and the answer meets the condition. -/
def Agree (p q : Parser α) (cursor : Cursor) (post : α → Cursor → Prop) : Prop :=
  ∃ answer next, p cursor = some (answer, next) ∧ q cursor = some (answer, next) ∧ post answer next

variable {cursor next : Cursor} {p q : Parser α} {f g : α → Parser β} {post : β → Cursor → Prop}

/-- The second computation goes on from where the first one ended. -/
theorem bind_apply {answer : α} {next : Cursor} (first : p cursor = some (answer, next)) :
    (p >>= f) cursor = f answer next := by
  simp [Bind.bind, StateT.bind, first]

theorem map_apply {h : α → β} {answer : α} {next : Cursor}
    (first : p cursor = some (answer, next)) : (h <$> p) cursor = some (h answer, next) := by
  simp [Functor.map, StateT.map, first]

/-! ### Taking computations apart -/

/-- What comes first gives some answer. -/
theorem bind_eq_some {answer : β} (given : (p >>= f) cursor = some (answer, next)) :
    ∃ first middle, p cursor = some (first, middle) ∧ f first middle = some (answer, next) := by
  cases read : p cursor with
  | none => simp [Bind.bind, StateT.bind, read] at given
  | some result =>
    exact ⟨result.1, result.2, rfl, by simpa [Bind.bind, StateT.bind, read] using given⟩

/-- An answer that is given without reading. -/
theorem pure_eq_some {value answer : α}
    (given : (Pure.pure value : Parser α) cursor = some (answer, next)) :
    answer = value ∧ next = cursor := by
  obtain ⟨rfl, rfl⟩ := Prod.mk.inj (Option.some.inj given)
  exact ⟨rfl, rfl⟩

/-- The answer before it was changed. -/
theorem map_eq_some {make : α → β} {answer : β}
    (given : (make <$> p) cursor = some (answer, next)) :
    ∃ first, p cursor = some (first, next) ∧ answer = make first := by
  rw [← bind_pure_comp] at given
  obtain ⟨first, middle, read, rest⟩ := bind_eq_some given
  obtain ⟨rfl, rfl⟩ := pure_eq_some rest
  exact ⟨first, read, rfl⟩

/-- What comes after taking a token. -/
theorem bump_bind (f : Token → Parser β) (cursor : Cursor) :
    (bump >>= f) cursor = f cursor.bump.1 cursor.bump.2 :=
  rfl

theorem run_bind (length : Cursor → Nat) (f : List Token → Parser β) (cursor : Cursor) :
    (run length >>= f) cursor = f (cursor.take (length cursor)).1 (cursor.skip (length cursor)) :=
  rfl

/-- What comes after a question, at the same place. -/
theorem ask_bind (question : Cursor → α) (f : α → Parser β) (cursor : Cursor) :
    (ask question >>= f) cursor = f (question cursor) cursor :=
  rfl

theorem get_bind (f : Cursor → Parser β) (cursor : Cursor) :
    ((get : Parser Cursor) >>= f) cursor = f cursor cursor :=
  rfl

/-! ### Steps -/

namespace Agree

/-- Two computations agree if they do after the same first step. -/
theorem of_apply {answer : α} {next : Cursor} (left : p cursor = some (answer, next))
    (right : q cursor = some (answer, next)) (later : Agree (f answer) (g answer) next post) :
    Agree (p >>= f) (q >>= g) cursor post := by
  obtain ⟨result, last, left', right', holds⟩ := later
  exact ⟨result, last, (bind_apply left).trans left', (bind_apply right).trans right', holds⟩

/-- Computations that agree step by step agree. -/
theorem bind {middle : α → Cursor → Prop} (first : Agree p q cursor middle)
    (later : ∀ answer next, middle answer next → Agree (f answer) (g answer) next post) :
    Agree (p >>= f) (q >>= g) cursor post := by
  obtain ⟨answer, next, left, right, holds⟩ := first
  exact of_apply left right (later answer next holds)

theorem pure {answer : β} (holds : post answer cursor) :
    Agree (Pure.pure answer) (Pure.pure answer) cursor post :=
  ⟨answer, cursor, rfl, rfl, holds⟩

/-- Changing the answers of both leaves them in agreement. -/
theorem map {h : α → β} (first : Agree p q cursor fun answer next => post (h answer) next) :
    Agree (h <$> p) (h <$> q) cursor post := by
  obtain ⟨answer, next, left, right, holds⟩ := first
  exact ⟨h answer, next, map_apply left, map_apply right, holds⟩

theorem ite {condition : Prop} [Decidable condition] {p q p' q' : Parser β}
    (holds : condition → Agree p q cursor post) (fails : ¬condition → Agree p' q' cursor post) :
    Agree (if condition then p else p') (if condition then q else q') cursor post := by
  split
  · next h => exact holds h
  · next h => exact fails h

/-- Two branches that go on in the same way. -/
theorem join {condition : Prop} [Decidable condition] {p q p' q' : Parser α}
    (middle : α → Cursor → Prop) (holds : condition → Agree p q cursor middle)
    (fails : ¬condition → Agree p' q' cursor middle)
    (later : ∀ answer next, middle answer next → Agree (f answer) (g answer) next post) :
    Agree (if condition then p >>= f else p' >>= f) (if condition then q >>= g else q' >>= g)
      cursor post :=
  ite (fun h => (holds h).bind later) fun h => (fails h).bind later

/-- A weaker condition holds as well. -/
theorem mono {weaker : α → Cursor → Prop} {stronger : α → Cursor → Prop}
    (agree : Agree p q cursor stronger) (implies : ∀ answer next, stronger answer next →
      weaker answer next) : Agree p q cursor weaker := by
  obtain ⟨answer, next, left, right, holds⟩ := agree
  exact ⟨answer, next, left, right, implies answer next holds⟩

/-- A question is answered without reading. -/
theorem ask {question : Cursor → α}
    (later : Agree (f (question cursor)) (g (question cursor)) cursor post) :
    Agree (Parser.ask question >>= f) (Parser.ask question >>= g) cursor post :=
  later

theorem get {f g : Cursor → Parser β} (later : Agree (f cursor) (g cursor) cursor post) :
    Agree (MonadStateOf.get >>= f) (MonadStateOf.get >>= g) cursor post :=
  later

end Agree

/-! ### Single tokens and runs -/

/-- The next token is read, or none at the end. -/
theorem agree_bump (cursor : Cursor) :
    Agree bump bump cursor fun token next => cursor.Reads [token] next :=
  ⟨_, _, rfl, rfl, cursor.reads_bump⟩

theorem agree_bump_of_ne_nil {cursor : Cursor} (rest : cursor.pending ≠ []) :
    Agree bump bump cursor fun token next => cursor.Takes [token] next :=
  ⟨_, _, rfl, rfl, Cursor.takes_bump rest⟩

/-- A run of tokens is read. -/
theorem agree_run (length : Cursor → Nat) (cursor : Cursor) :
    Agree (run length) (run length) cursor fun tokens next => cursor.Reads tokens next :=
  ⟨_, _, rfl, rfl, cursor.reads_take _⟩

theorem bumpIf_of_not {condition : Cursor → Bool} (fails : condition cursor = false) :
    bumpIf condition cursor = some (none, cursor) := by
  have asked : ask condition cursor = some (condition cursor, cursor) := rfl
  rw [bumpIf, bind_apply asked, fails]
  rfl

theorem bumpIf_of {condition : Cursor → Bool} (holds : condition cursor = true) :
    bumpIf condition cursor = some (some cursor.bump.1, cursor.bump.2) := by
  have asked : ask condition cursor = some (condition cursor, cursor) := rfl
  rw [bumpIf, bind_apply asked, holds]
  rfl

theorem agree_run_of_pos {length : Cursor → Nat} {cursor : Cursor} (rest : cursor.pending ≠ [])
    (pos : 0 < length cursor) :
    Agree (run length) (run length) cursor fun tokens next => cursor.Takes tokens next :=
  ⟨_, _, rfl, rfl, Cursor.takes_take rest pos⟩

/-- A token that is read under a condition: either the condition fails and nothing is read, or it
holds and a token is. -/
theorem Agree.bumpIf {condition : Cursor → Bool} {f g : Option Token → Parser β}
    (absent : condition cursor = false → Agree (f none) (g none) cursor post)
    (present : condition cursor = true → ∀ token next, cursor.Reads [token] next →
      Agree (f token) (g token) next post) :
    Agree (Parser.bumpIf condition >>= f) (Parser.bumpIf condition >>= g) cursor post := by
  cases holds : condition cursor with
  | false =>
    have answer := bumpIf_of_not holds
    exact of_apply answer answer (absent holds)
  | true =>
    have answer := bumpIf_of holds
    exact of_apply answer answer (present holds _ _ cursor.reads_bump)

/-- A token that may be left out is read if the question allows it. -/
theorem agree_bumpIf (condition : Cursor → Bool) (cursor : Cursor) :
    Agree (bumpIf condition) (bumpIf condition) cursor fun token next =>
      cursor.Reads (Node.tokens token) next := by
  have agree : Agree (bumpIf condition >>= Pure.pure) (bumpIf condition >>= Pure.pure) cursor
      fun token next => cursor.Reads (Node.tokens token) next :=
    Agree.bumpIf (fun _ => .pure (.refl cursor)) fun _ _ _ reads => .pure reads
  simpa using agree

/-- A token that is read under a condition that cannot hold at the end. -/
theorem agree_bumpIf_of_ne_nil {condition : Cursor → Bool} {cursor : Cursor}
    (rest : condition cursor = true → cursor.pending ≠ []) :
    Agree (bumpIf condition) (bumpIf condition) cursor fun token next =>
      cursor.Reads (Node.tokens token) next ∧
        (token.isSome → cursor.Takes (Node.tokens token) next) := by
  cases holds : condition cursor with
  | false =>
    have answer := bumpIf_of_not holds
    exact ⟨none, cursor, answer, answer, .refl cursor, by simp⟩
  | true =>
    have answer := bumpIf_of holds
    exact ⟨_, _, answer, answer, cursor.reads_bump, fun _ => Cursor.takes_bump (rest holds)⟩

/-- A comma is taken if it is there. -/
theorem agree_comma {cursor : Cursor} (proper : cursor.Proper) :
    Agree (bumpIf (·.isAt .comma)) (bumpIf (·.isAt .comma)) cursor fun token next =>
      cursor.Reads (Node.tokens token) next ∧
        (token.isSome → cursor.Takes (Node.tokens token) next) :=
  agree_bumpIf_of_ne_nil fun comma => proper.pending_ne_nil_of_isAt comma (by decide)

/-- A required token is read, and where it is missing nothing is. -/
theorem agree_expect (kind : TokenKind) (cursor : Cursor) :
    Agree (expect kind) (expect kind) cursor fun token next => cursor.Reads [token] next :=
  .bumpIf (fun _ => .pure ((Cursor.Reads.refl cursor).of_atoms rfl))
    fun _ _ _ reads => .pure reads

/-- A required word is read, and where it is missing nothing is. -/
theorem agree_expectKeyword (keyword : String) (cursor : Cursor) :
    Agree (expectKeyword keyword) (expectKeyword keyword) cursor fun token next =>
      cursor.Reads [token] next :=
  .bumpIf (fun _ => .pure ((Cursor.Reads.refl cursor).of_atoms rfl))
    fun _ _ _ reads => .pure reads

/-- A function of the cursor reads what it says. -/
theorem agree_part {read : Cursor → α × Cursor} {view : α → List Token} {cursor : Cursor}
    (reads : cursor.Reads (view (read cursor).1) (read cursor).2) :
    Agree (part read) (part read) cursor fun answer next => cursor.Reads (view answer) next :=
  ⟨_, _, rfl, rfl, reads⟩

end Parser

end SuiteMigration
