import Mathlib.Tactic.Common
import SuiteMigration.Proofs.Reading.Foresight

/-!
# Computations that mirror each other

What a computation does at one cursor it does at a cursor abreast of it too: it takes as many tokens
and gives a like answer. This is asked for only where a closing delimiter of the way is still ahead
of what is read, so no question looks behind the way.

## Main definitions

* `Passage.Agrees` - a question has the same answer at cursors abreast
* `Parser.Mirrors` - a computation is mirrored by another one

## Main results

* `Parser.Mirrors.bind`, `Parser.MirrorsAt.ite` - sequences and branches
* `Parser.Mirrors.bump`, `Parser.Mirrors.run`, `Parser.Mirrors.bumpIf` - reading tokens
* `Parser.mirrors_typeHeader`, `Parser.mirrors_pattern` and others - the headers of declarations
-/

namespace SuiteMigration

variable {passage : Passage} {cursor cursor' next : Cursor}

/-! ### Questions -/

/-- The question has the same answer at cursors abreast, as long as a closing delimiter is ahead. -/
def Passage.Agrees (passage : Passage) (question : Cursor → β) : Prop :=
  ∀ cursor cursor', Abreast passage cursor cursor' → passage.Braced cursor →
    question cursor = question cursor'

/-- If the next token closes nothing, the one after it is on the way. -/
theorem Passage.Braced.inside_second (braced : passage.Braced cursor)
    (open_ : cursor.peek.kind.isClosing = false) : 1 + passage.stop.left < cursor.left := by
  obtain ⟨front, brace, rest, pending, kind, enough⟩ := braced
  cases front with
  | nil =>
    rw [Cursor.peek, pending, List.nil_append, List.headD_cons, kind] at open_
    exact Bool.noConfusion open_
  | cons first front =>
    have left : cursor.left = front.length + rest.length + 2 := by
      rw [Cursor.left, pending]
      simp only [List.length_append, List.length_cons]
      omega
    rw [left]
    omega

namespace Passage

/-- A question about the next token that is the same for like tokens. -/
theorem agrees_peek (test : Token → β)
    (respects : ∀ token token' : Token, token.Like token' → test token = test token') :
    passage.Agrees fun cursor => test cursor.peek :=
  fun _ _ abreast braced => respects _ _ (abreast.peek_like braced.inside)

theorem agrees_isAt (kind : TokenKind) : passage.Agrees (·.isAt kind) :=
  agrees_peek (fun token => token.kind == kind) fun _ _ like => by rw [like.kind]

theorem agrees_atKeyword (keyword : String) : passage.Agrees (·.atKeyword keyword) :=
  agrees_peek _ fun _ _ like => like.isKeyword keyword

/-- On the way neither stream is at its end. -/
theorem agrees_atEnd : passage.Agrees Cursor.atEnd := by
  intro cursor cursor' abreast braced
  obtain ⟨token, later, token', later', -, pending, pending', -⟩ := abreast.inside braced.inside
  rw [Cursor.atEnd, Cursor.atEnd, pending, pending']
  rfl

/-- Line breaks on the way are in both streams. -/
theorem agrees_atNewLine : passage.Agrees Cursor.atNewLine :=
  fun _ _ abreast braced => abreast.atNewLine_eq braced.inside

/-- Spaces on the way are in both streams. -/
theorem agrees_atAdjacent : passage.Agrees Cursor.atAdjacent :=
  fun _ _ abreast braced => abreast.atAdjacent_eq braced.inside

/-- Two questions at once. -/
theorem Agrees.and {first second : Cursor → Bool} (before : passage.Agrees first)
    (after : passage.Agrees second) : passage.Agrees fun cursor => first cursor && second cursor :=
  fun _ _ abreast braced =>
    congrArg₂ (· && ·) (before _ _ abreast braced) (after _ _ abreast braced)

theorem Agrees.or {first second : Cursor → Bool} (before : passage.Agrees first)
    (after : passage.Agrees second) : passage.Agrees fun cursor => first cursor || second cursor :=
  fun _ _ abreast braced =>
    congrArg₂ (· || ·) (before _ _ abreast braced) (after _ _ abreast braced)

theorem Agrees.not {question : Cursor → Bool} (agrees : passage.Agrees question) :
    passage.Agrees fun cursor => !question cursor :=
  fun _ _ abreast braced => congrArg (!·) (agrees _ _ abreast braced)

/-- Two tokens can be asked about, if the first one closes nothing. -/
theorem agrees_second (first : Token → Bool) (second : Token → Token → Bool)
    (opens : ∀ token, first token = true → token.kind.isClosing = false)
    (respects : ∀ token token' : Token, token.Like token' → first token = first token')
    (respects₂ : ∀ token token' next next' : Token, next.Like next' →
      lineBreakBetween (some token) next = lineBreakBetween (some token') next' →
      second token next = second token' next') :
    passage.Agrees fun cursor => first cursor.peek && second cursor.peek cursor.second := by
  intro cursor cursor' abreast braced
  have level := Level.later abreast
  simp only
  rw [← respects _ _ (abreast.peek_like braced.inside)]
  cases holds : first cursor.peek with
  | false => rfl
  | true =>
    rcases level.second_cases braced.inside with ⟨like, line, -⟩ | ⟨tail, -⟩
    · rw [respects₂ _ _ _ _ like line]
    · have enough := braced.inside_second (opens _ holds)
      have left := congrArg List.length tail
      rw [List.length_tail] at left
      simp only [Cursor.left] at enough
      omega

theorem isClosing_of_kind {token : Token} {kind : TokenKind} (same : (token.kind == kind) = true)
    (other : kind.isClosing = false) : token.kind.isClosing = false := by
  rwa [beq_iff_eq.1 same]

theorem agrees_atLabel : passage.Agrees Cursor.atLabel :=
  agrees_second (fun token => token.kind == .identifier)
    (fun _ next => next.kind == .colon) (fun _ same => isClosing_of_kind same rfl)
    (fun _ _ like => by rw [like.kind]) fun _ _ _ _ like _ => by rw [like.kind]

/-- A member on the way is one in both streams. -/
theorem agrees_atMember : passage.Agrees Cursor.atMember :=
  agrees_second (fun token => token.kind == .period)
    (fun _ next => [TokenKind.identifier, .number, .poundIdentifier].contains next.kind)
    (fun _ same => isClosing_of_kind same rfl)
    (fun _ _ like => by rw [like.kind]) fun _ _ _ _ like _ => by rw [like.kind]

theorem agrees_atCaseLabel : passage.Agrees Cursor.atCaseLabel := by
  refine .or (.or (agrees_atKeyword _) ?_) ?_
  · refine agrees_second (fun token => token.isKeyword "default")
      (fun _ next => next.kind == .colon) (fun _ same => ?_)
      (fun _ _ like => like.isKeyword _) fun _ _ _ _ like _ => by rw [like.kind]
    rw [Token.isKeyword, Bool.and_eq_true] at same
    exact isClosing_of_kind same.1 rfl
  · exact agrees_second (fun token => token.kind == .atSign)
      (fun _ next => next.text == "unknown") (fun _ same => isClosing_of_kind same rfl)
      (fun _ _ like => by rw [like.kind]) fun _ _ _ _ like _ => by rw [like.text]

theorem agrees_atReturnEnd : passage.Agrees Cursor.atReturnEnd :=
  .or (.or (.or agrees_atEnd agrees_atNewLine) (agrees_isAt _)) (agrees_isAt _)

theorem agrees_atBindingKeyword : passage.Agrees Cursor.atBindingKeyword :=
  .or (.or (agrees_atKeyword _) (agrees_atKeyword _)) (agrees_atKeyword _)

theorem agrees_isReserved : passage.Agrees fun cursor => cursor.peek.isReserved :=
  agrees_peek _ fun _ _ like => like.isReserved

theorem agrees_atJumpTarget : passage.Agrees Cursor.atJumpTarget :=
  .and (.and (agrees_isAt _) (.not agrees_atNewLine)) (.not agrees_isReserved)

theorem agrees_atArgumentEnd (closer : TokenKind) : passage.Agrees (·.atArgumentEnd closer) :=
  .or (.or agrees_atEnd (agrees_isAt _)) (agrees_isAt _)

/-- A plain pattern on the way is one in both streams. -/
theorem agrees_atPlainPattern : passage.Agrees Cursor.atPlainPattern :=
  agrees_second (fun token => token.kind == .identifier && !token.isReserved)
    (fun token next =>
      [TokenKind.colon, .comma, .leftBrace, .rightBrace, .rightParen, .semicolon,
          .endOfFile].contains next.kind ||
        next.isOperator "=" || next.isKeyword "in" || next.isKeyword "else" ||
        lineBreakBetween (some token) next)
    (fun _ same => isClosing_of_kind (Bool.and_eq_true _ _ ▸ same).1 rfl)
    (fun _ _ like => by rw [like.kind, like.isReserved])
    fun _ _ _ _ like line => by rw [like.kind, like.isOperator, like.isKeyword, like.isKeyword, line]

theorem agrees_atOptionalMark :
    passage.Agrees fun cursor => cursor.peek.isOptionalMark && cursor.atAdjacent :=
  .and (agrees_peek _ fun _ _ like => like.isOptionalMark) agrees_atAdjacent

theorem agrees_atAssignment : passage.Agrees fun cursor => cursor.peek.isOperator "=" :=
  agrees_peek _ fun _ _ like => like.isOperator _

/-- An operator on the way has its role in both streams. -/
theorem Ends.agrees_atOperator (ends : passage.Ends) (role : Cursor.OperatorRole) :
    passage.Agrees (·.atOperator role) :=
  fun _ _ abreast braced => (Level.later abreast).atOperator_eq_of_inside ends braced.inside role

/-- A declaration begins in both streams or in neither. -/
theorem Ends.agrees_declarationKeyword (ends : passage.Ends) :
    passage.Agrees fun cursor => cursor.declarationKeyword?.isSome := by
  intro cursor cursor' abreast _
  have declares := abreast.declarationKeyword?_rel ends
  simp only
  generalize cursor.declarationKeyword? = found, cursor'.declarationKeyword? = found' at declares ⊢
  cases declares <;> rfl

end Passage

/-! ### Computations -/

/-- Tokens that may be missing have the same words, or both are missing. -/
abbrev Token.Alike : Option Token → Option Token → Prop :=
  Option.Rel Token.Like

namespace Token.Alike

theorem refl (token : Option Token) : Token.Alike token token := by
  cases token with
  | none => exact .none
  | some token => exact .some (.refl token)

theorem getD {token token' : Option Token} (alike : Token.Alike token token') (missing : Token) :
    (token.getD missing).Like (token'.getD missing) := by
  cases alike with
  | none => exact .refl missing
  | some like => exact like

theorem isSome {token token' : Option Token} (alike : Token.Alike token token') :
    token.isSome = token'.isSome := by
  cases alike <;> rfl

end Token.Alike

namespace Parser

variable {α β : Type}

/-- From the cursor on the computation is mirrored from the other cursor on. -/
def MirrorsAt (passage : Passage) (cursor cursor' : Cursor) (p p' : Parser α)
    (like : α → α → Prop) : Prop :=
  ∀ answer next, p cursor = some (answer, next) → passage.Braced next →
    ∃ answer' next', p' cursor' = some (answer', next') ∧ Abreast passage next next' ∧
      like answer answer'

/-- The computation is mirrored from all cursors on that are abreast of each other. -/
structure Mirrors (passage : Passage) (p p' : Parser α) (like : α → α → Prop) : Prop where
  forward : Forward p
  mirrorsAt : ∀ {cursor cursor' : Cursor}, Abreast passage cursor cursor' →
    passage.Braced cursor → MirrorsAt passage cursor cursor' p p' like

/-- Any two answers. -/
def Any (_ _ : α) : Prop := True

variable {p p' q q' : Parser α} {f f' : α → Parser β} {like like' : α → α → Prop}
  {like₂ : β → β → Prop}

namespace MirrorsAt

theorem mono (mirrors : MirrorsAt passage cursor cursor' p p' like)
    (weaker : ∀ answer answer', like answer answer' → like' answer answer') :
    MirrorsAt passage cursor cursor' p p' like' := by
  intro answer next given braced
  obtain ⟨answer', next', given', abreast, alike⟩ := mirrors answer next given braced
  exact ⟨answer', next', given', abreast, weaker _ _ alike⟩

/-- The same branch is taken. -/
theorem ite {condition condition' : Bool} (same : condition = condition')
    (yes : condition = true → MirrorsAt passage cursor cursor' p p' like)
    (no : condition = false → MirrorsAt passage cursor cursor' q q' like) :
    MirrorsAt passage cursor cursor' (if condition = true then p else q)
      (if condition' = true then p' else q') like := by
  subst same
  cases condition with
  | true => exact yes rfl
  | false => exact no rfl

theorem bind (first : MirrorsAt passage cursor cursor' p p' like)
    (refl : ∀ answer, like answer answer)
    (later : ∀ answer answer', like answer answer' →
      Mirrors passage (f answer) (f' answer') like₂) :
    MirrorsAt passage cursor cursor' (p >>= f) (p' >>= f') like₂ := by
  intro answer last given braced
  obtain ⟨value, next, read, rest⟩ := bind_eq_some given
  have between := braced.back ((later value value (refl value)).forward next answer last rest)
  obtain ⟨value', next', read', abreast, alike⟩ := first value next read between
  obtain ⟨answer', last', rest', abreast', alike'⟩ :=
    (later value value' alike).mirrorsAt abreast between answer last rest braced
  exact ⟨answer', last', (bind_apply read').trans rest', abreast', alike'⟩

/-- What comes first does not matter for what is done then. -/
theorem after (first : MirrorsAt passage cursor cursor' p p' like)
    (later : ∀ answer answer', Mirrors passage (f answer) (f' answer') like₂) :
    MirrorsAt passage cursor cursor' (p >>= f) (p' >>= f') like₂ :=
  bind (show MirrorsAt passage cursor cursor' p p' Any from first.mono fun _ _ _ => trivial)
    (fun _ => trivial)
    fun answer answer' _ => later answer answer'

/-- What is asked at each cursor is known. -/
theorem asked (question question' : Cursor → α)
    (later : MirrorsAt passage cursor cursor' (f (question cursor)) (f' (question' cursor')) like₂) :
    MirrorsAt passage cursor cursor' (ask question >>= f) (ask question' >>= f') like₂ :=
  later

/-- A token is read at each cursor. -/
theorem bumped {f f' : Token → Parser β}
    (later : MirrorsAt passage cursor.bump.2 cursor'.bump.2 (f cursor.bump.1) (f' cursor'.bump.1)
      like₂) :
    MirrorsAt passage cursor cursor' (Parser.bump >>= f) (Parser.bump >>= f') like₂ :=
  later

end MirrorsAt

namespace Mirrors

theorem mono (mirrors : Mirrors passage p p' like)
    (weaker : ∀ answer answer', like answer answer' → like' answer answer') :
    Mirrors passage p p' like' :=
  ⟨mirrors.forward, fun abreast braced => (mirrors.mirrorsAt abreast braced).mono weaker⟩

/-- What the answers are does not matter. -/
theorem any (mirrors : Mirrors passage p p' like) : Mirrors passage p p' Any :=
  mirrors.mono fun _ _ _ => trivial

theorem pure {answer answer' : α} (alike : like answer answer') :
    Mirrors passage (Pure.pure answer) (Pure.pure answer') like := by
  refine ⟨.pure answer, fun {_ cursor'} abreast _ => ?_⟩
  intro _ _ given _
  cases given
  exact ⟨answer', cursor', rfl, abreast, alike⟩

theorem failure : Mirrors passage (failure : Parser α) p' like :=
  ⟨.failure, fun _ _ _ _ given => by cases given⟩

theorem bind (first : Mirrors passage p p' like) (refl : ∀ answer, like answer answer)
    (later : ∀ answer answer', like answer answer' →
      Mirrors passage (f answer) (f' answer') like₂) :
    Mirrors passage (p >>= f) (p' >>= f') like₂ :=
  ⟨first.forward.bind fun answer => (later answer answer (refl answer)).forward,
    fun abreast braced => (first.mirrorsAt abreast braced).bind refl later⟩

/-- What comes first does not matter for what is done then. -/
theorem after (first : Mirrors passage p p' like)
    (later : ∀ answer answer', Mirrors passage (f answer) (f' answer') like₂) :
    Mirrors passage (p >>= f) (p' >>= f') like₂ :=
  first.any.bind (fun _ => trivial) fun answer answer' _ => later answer answer'

/-- Nodes are made of like answers. -/
theorem map {make make' : α → β} (first : Mirrors passage p p' like)
    (refl : ∀ answer, like answer answer)
    (alike : ∀ answer answer', like answer answer' → like₂ (make answer) (make' answer')) :
    Mirrors passage (make <$> p) (make' <$> p') like₂ := by
  rw [← bind_pure_comp, ← bind_pure_comp]
  exact first.bind refl fun _ _ like => .pure (alike _ _ like)

theorem mapAny {make make' : α → β} (first : Mirrors passage p p' like) :
    Mirrors passage (make <$> p) (make' <$> p') Any :=
  first.any.map (fun _ => trivial) fun _ _ _ => trivial

theorem ite {condition : Prop} [Decidable condition] (yes : Mirrors passage p p' like)
    (no : Mirrors passage q q' like) :
    Mirrors passage (if condition then p else q) (if condition then p' else q') like := by
  split
  · exact yes
  · exact no

/-- A branch of a computation that goes on in the same way after it. -/
theorem join {condition condition' : Bool} (same : condition = condition')
    (yes : Mirrors passage p p' like) (no : Mirrors passage q q' like)
    (later : ∀ answer answer', Mirrors passage (f answer) (f' answer') like₂) :
    Mirrors passage (if condition = true then p >>= f else q >>= f)
      (if condition' = true then p' >>= f' else q' >>= f') like₂ := by
  subst same
  exact .ite (yes.after later) (no.after later)

/-- A question that has the same answer at cursors abreast. -/
theorem ask {question : Cursor → α} (agrees : passage.Agrees question) :
    Mirrors passage (Parser.ask question) (Parser.ask question) Eq := by
  refine ⟨.ask question, fun {_ cursor'} abreast braced => ?_⟩
  intro _ _ given _
  cases given
  exact ⟨question cursor', cursor', rfl, abreast, agrees _ _ abreast braced⟩

/-- A branch on a question that has the same answer at cursors abreast. -/
theorem branch {question : Cursor → Bool} (agrees : passage.Agrees question)
    (yes : Mirrors passage p p' like) (no : Mirrors passage q q' like) :
    Mirrors passage (Parser.ask question >>= fun answer => if answer = true then p else q)
      (Parser.ask question >>= fun answer => if answer = true then p' else q') like := by
  refine (ask agrees).bind (fun _ => rfl) fun answer _ same => ?_
  subst same
  exact .ite yes no

theorem bump : Mirrors passage Parser.bump Parser.bump Token.Like := by
  refine ⟨.bump, fun {cursor cursor'} abreast braced => ?_⟩
  intro answer next given _
  obtain ⟨rfl, rfl⟩ := Prod.mk.inj (Option.some.inj given)
  obtain ⟨like, after⟩ := abreast.bump braced.inside
  exact ⟨_, _, rfl, after, like⟩

/-- Both runs are empty, or neither. -/
def SomeAlike (tokens tokens' : List Token) : Prop :=
  tokens = [] ↔ tokens' = []

/-- A run is read that is equally long where a closing delimiter is ahead. -/
theorem runIf {length : Cursor → Nat}
    (measures : ∀ cursor cursor', Abreast passage cursor cursor' → passage.Braced cursor →
      length cursor + passage.stop.left < cursor.left → length cursor' = length cursor) :
    Mirrors passage (Parser.run length) (Parser.run length) SomeAlike := by
  refine ⟨.run length, fun {cursor cursor'} abreast braced => ?_⟩
  intro _ next given ahead
  cases given
  have left : (cursor.skip (length cursor)).left = cursor.left - length cursor :=
    Cursor.left_skip cursor (length cursor)
  have inside : passage.stop.left < (cursor.skip (length cursor)).left := ahead.inside
  have within : length cursor + passage.stop.left < cursor.left := by omega
  have same := measures cursor cursor' abreast braced within
  refine ⟨_, _, rfl, ?_, ?_⟩
  · rw [same]
    exact abreast.skip (Nat.le_of_lt within)
  · have both := abreast.left_eq
    have enough := (abreast.skip (Nat.le_of_lt within)).left_eq
    rw [SomeAlike, ← List.length_eq_zero_iff, ← List.length_eq_zero_iff, List.length_take,
      List.length_take, same]
    rw [Cursor.left_skip, Cursor.left_skip] at enough
    simp only [Cursor.left] at *
    omega

/-- A run of the same length is taken from both streams. -/
theorem run {length : Cursor → Nat} (measures : passage.Measures length) :
    Mirrors passage (Parser.run length) (Parser.run length) SomeAlike :=
  runIf fun _ _ abreast _ => measures _ _ abreast

/-- So is a run of a fixed length. -/
theorem runFixed (length : Nat) : Mirrors passage (Parser.run fun _ => length)
    (Parser.run fun _ => length) SomeAlike :=
  run fun _ _ _ _ => rfl

/-- A token is taken from both streams or from neither. -/
theorem bumpIf {condition : Cursor → Bool} (agrees : passage.Agrees condition) :
    Mirrors passage (Parser.bumpIf condition) (Parser.bumpIf condition)
      Token.Alike :=
  .branch agrees (bump.map Token.Like.refl fun _ _ like => .some like) (.pure .none)

/-- A required token is taken from both streams or is missing from both. -/
theorem expect (kind : TokenKind) :
    Mirrors passage (Parser.expect kind) (Parser.expect kind) Token.Like :=
  (bumpIf (Passage.agrees_isAt kind)).bind Token.Alike.refl fun _ _ like => .pure (Token.Alike.getD like _)

theorem expectKeyword (keyword : String) :
    Mirrors passage (Parser.expectKeyword keyword) (Parser.expectKeyword keyword) Token.Like :=
  (bumpIf (Passage.agrees_atKeyword keyword)).bind Token.Alike.refl fun _ _ like =>
    .pure (Token.Alike.getD like _)

end Mirrors

/-! ### Parts of the grammar -/

theorem mirrors_optionalMark : Mirrors passage optionalMark optionalMark Token.Alike :=
  .bumpIf Passage.agrees_atOptionalMark

/-- A cast is read with its mark in both streams. -/
theorem mirrors_castOperator : Mirrors passage castOperator castOperator Token.Like := by
  refine Mirrors.bump.bind Token.Like.refl fun word word' like => ?_
  rw [← like.text]
  refine .ite (mirrors_optionalMark.bind Token.Alike.refl fun mark mark' alike => ?_) (.pure like)
  cases alike with
  | none => exact .pure like
  | some marks =>
    exact .pure ⟨like.kind, by simp only [marks.text]⟩

/-- An operator between operands is read in both streams or in neither. -/
theorem mirrors_binaryOperator (ends : passage.Ends) (ternaries : Nat) :
    Mirrors passage (binaryOperator? ternaries) (binaryOperator? ternaries) Token.Alike := by
  refine ⟨forward_binaryOperator ternaries, fun {cursor cursor'} abreast braced => ?_⟩
  have between := ends.agrees_atOperator .between _ _ abreast braced
  have colon := Passage.agrees_isAt .colon _ _ abreast braced
  have isWord := Passage.agrees_atKeyword "is" _ _ abreast braced
  have asWord := Passage.agrees_atKeyword "as" _ _ abreast braced
  simp only at between colon isWord asWord
  refine MirrorsAt.ite (by rw [between, colon]) (fun _ => ?_) fun _ =>
    .ite (by rw [isWord, asWord]) (fun _ => ?_) fun _ => ?_
  · exact (Mirrors.bump.map Token.Like.refl fun _ _ like => .some like).mirrorsAt abreast braced
  · exact (mirrors_castOperator.map Token.Like.refl fun _ _ like => .some like).mirrorsAt abreast
      braced
  · exact (Mirrors.pure .none).mirrorsAt abreast braced

/-- A label is read in both streams or in neither. -/
theorem mirrors_label : Mirrors passage label? label? fun label label' =>
    label.isNone = label'.isNone :=
  .branch Passage.agrees_atLabel (Mirrors.bump.after fun _ _ => Mirrors.bump.after fun _ _ =>
    .pure rfl) (.pure rfl)

/-- Patterns are read in lockstep. -/
theorem mirrors_pattern : Mirrors passage pattern pattern Any :=
  .branch Passage.agrees_atPlainPattern Mirrors.bump.mapAny (Mirrors.run measures_patternRun).mapAny

theorem mirrors_typeAnnotation : Mirrors passage typeAnnotation typeAnnotation Any := by
  refine (Mirrors.bumpIf (Passage.agrees_isAt _)).bind Token.Alike.refl fun _ _ alike => ?_
  cases alike with
  | none => exact .pure trivial
  | some _ => exact (Mirrors.run measures_typeRun).after fun _ _ => .pure trivial

/-- The signature of a closure is read in both streams, right after the brace that opens it. -/
theorem mirrorsAt_closureSignature (ends : passage.Ends) (within : passage.Within cursor cursor') :
    MirrorsAt passage cursor cursor' closureSignature? closureSignature? Any := by
  have braced := within.encloses.braced
  refine .asked _ _ ?_
  rw [← within.signatureLength?_eq ends]
  cases cursor.signatureLength? with
  | none => exact (Mirrors.pure trivial).mirrorsAt within.abreast braced
  | some length =>
    exact ((Mirrors.runFixed length).after fun _ _ =>
      Mirrors.bump.after fun _ _ => .pure trivial).mirrorsAt within.abreast braced

/-- Attributes are read one after the other. -/
theorem part_attributes (fuel : Nat) : part (Cursor.attributes (fuel + 1)) = (do
    if ← ask fun cursor => cursor.isAt .atSign && cursor.second.kind == .identifier then
      let atSign ← bump
      let name ← bump
      let arguments ← run Cursor.attachedGroup
      let later ← part (Cursor.attributes fuel)
      return { atSign, name, arguments } :: later
    else return []) := by
  funext cursor
  simp only [part, Cursor.attributes]
  split
  · next sign =>
    rw [ask_bind, if_pos sign, bump_bind, bump_bind, run_bind]
    rfl
  · next other =>
    rw [ask_bind, if_neg other]
    rfl

/-- The attributes of a declaration are read in lockstep. -/
theorem mirrors_attributes (ends : passage.Ends) :
    Mirrors passage attributes attributes Any := by
  have all (fuel : Nat) :
      Mirrors passage (part (Cursor.attributes fuel)) (part (Cursor.attributes fuel)) Any := by
    induction fuel with
    | zero => exact .pure trivial
    | succ fuel ih =>
      rw [part_attributes]
      refine .branch (Passage.agrees_second (fun token => token.kind == .atSign)
        (fun _ next => next.kind == .identifier)
        (fun _ same => Passage.isClosing_of_kind same rfl) (fun _ _ like => by rw [like.kind])
        fun _ _ _ _ like _ => by rw [like.kind]) ?_ (.pure trivial)
      exact Mirrors.bump.after fun _ _ => Mirrors.bump.after fun _ _ =>
        (Mirrors.run ends.measures_attachedGroup).after fun _ _ => ih.after fun _ _ => .pure trivial
  refine ⟨.of_agree agree_attributes, fun {cursor cursor'} abreast braced => ?_⟩
  obtain ⟨proper, proper'⟩ := abreast.proper ends
  have both := (all (max cursor.left cursor'.left)).mirrorsAt abreast braced
  intro answer next given ahead
  rw [attributes, part, Cursor.attributes_congr proper (Nat.le_refl _) (Nat.le_max_left _ _)]
    at given
  rw [attributes, part, Cursor.attributes_congr proper' (Nat.le_refl _) (Nat.le_max_right _ _)]
  exact both answer next given ahead

/-- Modifiers are read one after the other. -/
theorem part_modifiers (fuel : Nat) : part (Cursor.modifiers (fuel + 1)) = (do
    if ← ask Cursor.atModifier then
      let name ← bump
      let detail ← run Cursor.attachedGroup
      let later ← part (Cursor.modifiers fuel)
      return { name, detail } :: later
    else return []) := by
  funext cursor
  simp only [part, Cursor.modifiers]
  split
  · next modifier =>
    rw [ask_bind, if_pos modifier, bump_bind, run_bind]
    rfl
  · next other =>
    rw [ask_bind, if_neg other]
    rfl

theorem mirrors_modifiers (ends : passage.Ends) : Mirrors passage modifiers modifiers Any := by
  have all (fuel : Nat) :
      Mirrors passage (part (Cursor.modifiers fuel)) (part (Cursor.modifiers fuel)) Any := by
    induction fuel with
    | zero => exact .pure trivial
    | succ fuel ih =>
      rw [part_modifiers]
      refine .branch (fun _ _ abreast _ => abreast.atModifier_eq ends) ?_ (.pure trivial)
      exact Mirrors.bump.after fun _ _ => (Mirrors.run ends.measures_attachedGroup).after fun _ _ =>
        ih.after fun _ _ => .pure trivial
  refine ⟨.of_agree agree_modifiers, fun {cursor cursor'} abreast braced => ?_⟩
  obtain ⟨proper, proper'⟩ := abreast.proper ends
  have both := (all (max cursor.left cursor'.left)).mirrorsAt abreast braced
  intro answer next given ahead
  rw [modifiers, part, Cursor.modifiers_congr proper (Nat.le_refl _) (Nat.le_max_left _ _)] at given
  rw [modifiers, part, Cursor.modifiers_congr proper' (Nat.le_refl _) (Nat.le_max_right _ _)]
  exact both answer next given ahead

/-- The types of an inheritance clause are read one after the other. -/
theorem part_inheritedTypes (fuel : Nat) : part (Cursor.inheritedTypes (fuel + 1)) = (do
    let tokens ← run Cursor.inheritedRun
    if ← ask (·.isAt .comma) then
      let comma ← bump
      let later ← part (Cursor.inheritedTypes fuel)
      return { tokens, comma := some comma } :: later
    else return if tokens.isEmpty then [] else [{ tokens, comma := none }]) := by
  funext cursor
  have isNext : (cursor.take cursor.inheritedRun).2 = cursor.skip cursor.inheritedRun := rfl
  simp only [part, Cursor.inheritedTypes, isNext]
  split
  · next comma =>
    rw [run_bind, ask_bind, if_pos comma, bump_bind]
    rfl
  · next other =>
    rw [run_bind, ask_bind, if_neg other]
    split <;> rfl

theorem mirrors_inheritanceClause (ends : passage.Ends) :
    Mirrors passage inheritanceClause inheritanceClause Any := by
  have all (fuel : Nat) : Mirrors passage (part (Cursor.inheritedTypes fuel))
      (part (Cursor.inheritedTypes fuel)) Any := by
    induction fuel with
    | zero => exact .pure trivial
    | succ fuel ih =>
      rw [part_inheritedTypes]
      exact (Mirrors.run measures_inheritedRun).after fun _ _ => .branch (Passage.agrees_isAt _)
        (Mirrors.bump.after fun _ _ => ih.after fun _ _ => .pure trivial) (.pure trivial)
  have types : Mirrors passage (part fun cursor => cursor.inheritedTypes (cursor.pending.length + 1))
      (part fun cursor => cursor.inheritedTypes (cursor.pending.length + 1)) Any := by
    refine ⟨.of_agree agree_inheritedTypes, fun {cursor cursor'} abreast braced => ?_⟩
    obtain ⟨proper, proper'⟩ := abreast.proper ends
    have both := (all (max cursor.left cursor'.left + 1)).mirrorsAt abreast braced
    intro answer next given ahead
    rw [part, Cursor.inheritedTypes_congr proper (Nat.lt_succ_self _)
      (Nat.lt_succ_of_le (Nat.le_max_left _ _))] at given
    rw [part, Cursor.inheritedTypes_congr proper' (Nat.lt_succ_self _)
      (Nat.lt_succ_of_le (Nat.le_max_right _ _))]
    exact both answer next given ahead
  refine (Mirrors.bumpIf (Passage.agrees_isAt _)).bind Token.Alike.refl fun _ _ alike => ?_
  cases alike with
  | none => exact .pure trivial
  | some _ => exact types.after fun _ _ => .pure trivial

/-- The parameters of a function are read as a group. -/
theorem next_parameterClause {token : Token} {later : List Token}
    (pending : cursor.pending = token :: later) : cursor.parameterClause.2 =
      if cursor.isAt .leftParen then cursor.skip cursor.balanced else cursor := by
  rw [Cursor.parameterClause]
  split
  · rw [Cursor.balanced, Nat.add_comm 1, Cursor.skip_succ pending, Cursor.bump_of_pending pending,
      Nat.add_sub_cancel]
    simp only
    split
    · split <;> rfl
    · rfl
  · rfl

/-- A parameter clause is read in lockstep. -/
theorem mirrors_parameterClause (ends : passage.Ends) :
    Mirrors passage (part Cursor.parameterClause) (part Cursor.parameterClause) Any := by
  refine ⟨.of_agree agree_parameterClause, fun {cursor cursor'} abreast braced => ?_⟩
  intro answer next given ahead
  obtain ⟨token, later, token', later', -, pending, pending', -⟩ := abreast.inside braced.inside
  obtain rfl := (congrArg Prod.snd (Option.some.inj given)).symm
  refine ⟨cursor'.parameterClause.1, cursor'.parameterClause.2, rfl, ?_, trivial⟩
  rw [next_parameterClause pending] at ahead ⊢
  rw [next_parameterClause pending', ← (Level.later abreast).isAt_eq ends _ (by decide)]
  split
  · next paren =>
    rw [if_pos paren] at ahead
    have inside := ahead.inside
    rw [Passage.Inside, Cursor.left_skip] at inside
    have within : cursor.balanced + passage.stop.left ≤ cursor.left := by omega
    rw [abreast.balanced_eq ends within]
    exact abreast.skip within
  · exact abreast

section

variable (ends : passage.Ends)
  (attributes attributes' : List Attribute) (modifiers modifiers' : List Modifier)

include ends

theorem mirrors_importDecl :
    Mirrors passage (importDecl attributes modifiers) (importDecl attributes' modifiers') Any := by
  have kinds : passage.Agrees fun cursor =>
      importKinds.contains cursor.peek.text && cursor.second.kind == .identifier := by
    intro cursor cursor' abreast braced
    have level := Level.later abreast
    have second := level.test_second braced.inside (fun token => token.kind == .identifier)
      (fun _ _ like => by rw [like.kind])
      (ends.kind_ne _ TokenKind.noConfusion TokenKind.noConfusion)
      (ends.kind_ne' _ TokenKind.noConfusion TokenKind.noConfusion TokenKind.noConfusion)
    simp only [(level.peek_like braced.inside).text, second]
  exact Mirrors.bump.after fun _ _ => (Mirrors.bumpIf kinds).after fun _ _ =>
    (Mirrors.run measures_importRun).after fun _ _ => .pure trivial

/-- The header of a type is read in lockstep, whatever has been read before. -/
theorem mirrors_typeHeader :
    Mirrors passage (typeHeader attributes modifiers) (typeHeader attributes' modifiers') Any :=
  Mirrors.bump.after fun _ _ => (Mirrors.expect _).after fun _ _ =>
    (Mirrors.run ends.measures_typeNameRun).after fun _ _ =>
    (mirrors_inheritanceClause ends).after fun _ _ =>
    (Mirrors.run measures_constraintRun).after fun _ _ => .pure trivial

/-- The header of a function is read in lockstep, whatever has been read before. -/
theorem mirrors_functionHeader : Mirrors passage (functionHeader attributes modifiers)
    (functionHeader attributes' modifiers') Any :=
  Mirrors.bump.after fun _ _ =>
    (Mirrors.bumpIf (.or (Passage.agrees_isAt _) (Passage.agrees_isAt _))).after fun _ _ =>
    (Mirrors.run ends.measures_genericParameters).after fun _ _ =>
    (mirrors_parameterClause ends).after fun _ _ =>
    (Mirrors.run measures_signatureRun).after fun _ _ => .pure trivial

theorem mirrors_initializerHeader : Mirrors passage (initializerHeader attributes modifiers)
    (initializerHeader attributes' modifiers') Any :=
  Mirrors.bump.after fun _ _ => mirrors_optionalMark.after fun _ _ =>
    (Mirrors.run ends.measures_genericParameters).after fun _ _ =>
    (mirrors_parameterClause ends).after fun _ _ =>
    (Mirrors.run measures_signatureRun).after fun _ _ => .pure trivial

omit ends in
theorem mirrors_rawDecl :
    Mirrors passage (rawDecl attributes modifiers) (rawDecl attributes' modifiers') Any :=
  (Mirrors.run measures_rawDeclarationRun).after fun _ _ => .pure trivial

end

end Parser

end SuiteMigration
