import SuiteMigration.Proofs.Reading.Losslessness
import SuiteMigration.Proofs.Reading.Range

/-!
# Reading ends and stays in range

Whatever tokens a stream has, as long as it ends with the token of the end and with no other one
before it, reading it comes to an end, looks at no token out of range, and closes no bracket that it
has not counted.

The loops inside a function of the grammar have fuel of their own, and go on without a word when it
runs out. Two amounts that both cover the tokens that are left give the same result, so what a loop
is given suffices. The counters of open brackets are integers in the runs; `Counted` has the same
loops with natural numbers, which give nothing where a counter would fall below zero.

## Main definitions

* `Counted.run`, `Counted.group` - runs and groups with a counter that cannot fall below zero
* `TokenStream.Settles`, `TokenStream.InRange` - reading a stream ends, and asks for no token out of
  range
* `Cursor.LoopsSettle`, `Cursor.CountsSafely` - the same of the loops and counters at a cursor

## Main results

* `fuel_congr` - a loop that has covered all that is left, from what one round does
* `Cursor.attributes_congr`, `castType_congr` and others - the loops of the grammar
* `reading_safe` - reading settles, stays in range and counts safely
-/

namespace SuiteMigration

/-! ### Loops with their own fuel -/

/-- A loop gives the same result with any two amounts of fuel that cover what is left to it, if a
round goes on only where less is left and nothing changes at the end. -/
theorem fuel_congr {f : Nat → σ → β} (left : σ → Nat) (proper : σ → Prop)
    (last : ∀ state, proper state → left state = 0 → f 0 state = f 1 state)
    (round : ∀ state n m, proper state →
      (∀ next, proper next → left next < left state → f n next = f m next) →
      f (n + 1) state = f (m + 1) state)
    {state : σ} {n m : Nat} (holds : proper state) (first : left state ≤ n)
    (second : left state ≤ m) : f n state = f m state := by
  -- Where nothing is left no round goes on, so all amounts give what a single round gives.
  have atEnd (state : σ) (holds : proper state) (done : left state = 0) (n : Nat) :
      f n state = f 1 state := by
    cases n with
    | zero => exact last state holds done
    | succ n => exact round state n 0 holds fun next _ less => by omega
  induction n generalizing m state with
  | zero =>
    have done := Nat.le_zero.1 first
    rw [atEnd state holds done 0, atEnd state holds done m]
  | succ n ih =>
    cases m with
    | zero =>
      have done := Nat.le_zero.1 second
      rw [atEnd state holds done (n + 1), atEnd state holds done 0]
    | succ m =>
      exact round state n m holds fun next nextHolds less => ih nextHolds (by omega) (by omega)

/-- A loop that may need a round beyond the last one of which something is left. -/
theorem fuel_congr_of_lt {f : Nat → σ → β} (left : σ → Nat) (proper : σ → Prop)
    (round : ∀ state n m, proper state →
      (∀ next, proper next → left next < left state → f n next = f m next) →
      f (n + 1) state = f (m + 1) state)
    {state : σ} {n m : Nat} (holds : proper state) (first : left state < n)
    (second : left state < m) : f n state = f m state := by
  obtain ⟨n, rfl⟩ : ∃ less, n = less + 1 := ⟨n - 1, by omega⟩
  obtain ⟨m, rfl⟩ : ∃ less, m = less + 1 := ⟨m - 1, by omega⟩
  refine fuel_congr (f := fun n => f (n + 1)) left proper ?_ ?_ holds
    (Nat.le_of_lt_succ first) (Nat.le_of_lt_succ second)
  · exact fun state holds done => round state 0 1 holds fun next _ less => by omega
  · exact fun state n m holds later => round state (n + 1) (m + 1) holds later

namespace Cursor

variable {cursor : Cursor} {n m : Nat}

/-- At the end of the stream there is no token of any other kind. -/
theorem Proper.not_isAt (proper : cursor.Proper) (done : cursor.left = 0) {kind : TokenKind}
    (other : kind ≠ .endOfFile) : cursor.isAt kind = false := by
  have none := List.eq_nil_of_length_eq_zero done
  refine Bool.eq_false_iff.2 fun here => ?_
  exact proper.pending_ne_nil_of_isAt here other none

theorem Proper.not_atModifier (proper : cursor.Proper) (done : cursor.left = 0) :
    cursor.atModifier = false := by
  have kind : cursor.isAt .identifier = false := proper.not_isAt done (by decide)
  rw [isAt] at kind
  simp [atModifier, kind]

/-- Where a modifier stands there is still a token to be read. -/
theorem Proper.pending_ne_nil_of_atModifier (proper : cursor.Proper)
    (modifier : cursor.atModifier = true) : cursor.pending ≠ [] := by
  intro none
  simp [proper.not_atModifier (List.length_eq_zero_iff.2 none)] at modifier

/-- Fuel for every token is enough to read attributes, and more of it changes nothing. -/
theorem attributes_congr (proper : cursor.Proper) (first : cursor.left ≤ n)
    (second : cursor.left ≤ m) : cursor.attributes n = cursor.attributes m := by
  refine fuel_congr (f := fun n cursor => attributes n cursor) left Proper ?_ ?_ proper first second
  · intro cursor proper done
    simp [attributes, proper.not_isAt done]
  · intro cursor n m proper later
    rw [attributes, attributes]
    simp only
    split
    · next here =>
      have rest := proper.pending_ne_nil_of_isAt (Bool.and_eq_true_iff.1 here).1 (by decide)
      have next := ((takes_bump rest).then cursor.bump.2.reads_bump).then
        cursor.bump.2.bump.2.reads_takeAttachedGroup
      rw [later _ (next.proper proper) next.fewer]
    · rfl

/-- Fuel for every token is enough to read modifiers, and more of it changes nothing. -/
theorem modifiers_congr (proper : cursor.Proper) (first : cursor.left ≤ n)
    (second : cursor.left ≤ m) : cursor.modifiers n = cursor.modifiers m := by
  refine fuel_congr (f := fun n cursor => modifiers n cursor) left Proper ?_ ?_ proper first second
  · intro cursor proper done
    simp [modifiers, proper.not_atModifier done]
  · intro cursor n m proper later
    rw [modifiers, modifiers]
    simp only
    split
    · next here =>
      have rest := proper.pending_ne_nil_of_atModifier here
      have next := (takes_bump rest).then cursor.bump.2.reads_takeAttachedGroup
      rw [later _ (next.proper proper) next.fewer]
    · rfl

/-- The types of an inheritance clause are read one round beyond the last token, where none is
left. -/
theorem inheritedTypes_congr (proper : cursor.Proper) (first : cursor.left < n)
    (second : cursor.left < m) : cursor.inheritedTypes n = cursor.inheritedTypes m := by
  refine fuel_congr_of_lt (f := fun n cursor => inheritedTypes n cursor) left Proper ?_ proper
    first second
  intro cursor n m proper later
  have type := cursor.reads_take cursor.inheritedRun
  rw [inheritedTypes, inheritedTypes]
  simp only
  split
  · next comma =>
    have rest := (type.proper proper).pending_ne_nil_of_isAt comma (by decide)
    have next := (takes_bump rest).after type
    rw [later _ (next.proper proper) next.fewer]
  · rfl

theorem left_skip (cursor : Cursor) (count : Nat) :
    (cursor.skip count).left = cursor.left - count :=
  List.length_drop

/-- An attached group is passed by skipping tokens. -/
theorem exists_skip_of_afterAttachedGroup? {next : Cursor}
    (found : cursor.afterAttachedGroup? = some next) : ∃ count, next = cursor.skip count := by
  rw [afterAttachedGroup?] at found
  split at found
  · rw [afterGroup?, Option.map_eq_some_iff] at found
    obtain ⟨length, -, rfl⟩ := found
    exact ⟨1 + length, rfl⟩
  · cases found
    exact ⟨0, by simp [skip, take]⟩

/-- After some tokens and an attached group fewer tokens are left. -/
theorem Proper.of_afterAttachedGroup? (proper : cursor.Proper) (rest : cursor.pending ≠ [])
    {count : Nat} (pos : 0 < count) {next : Cursor}
    (found : (cursor.skip count).afterAttachedGroup? = some next) :
    next.Proper ∧ next.left < cursor.left := by
  obtain ⟨more, rfl⟩ := exists_skip_of_afterAttachedGroup? found
  have some : 0 < cursor.left := List.length_pos_iff.2 rest
  exact ⟨proper, by rw [left_skip, left_skip]; omega⟩

/-- Fuel for every token is enough to look past attributes, and more of it changes nothing. -/
theorem afterAttributes?_congr (proper : cursor.Proper) (first : cursor.left ≤ n)
    (second : cursor.left ≤ m) : afterAttributes? n cursor = afterAttributes? m cursor := by
  refine fuel_congr left Proper ?_ ?_ proper first second
  · intro cursor proper done
    simp [afterAttributes?, proper.not_isAt done]
  · intro cursor n m proper later
    rw [afterAttributes?, afterAttributes?]
    split
    · next sign =>
      have rest := proper.pending_ne_nil_of_isAt sign (by decide)
      cases found : (cursor.skip 2).afterAttachedGroup? with
      | none => rfl
      | some next =>
        have fewer := proper.of_afterAttachedGroup? rest Nat.two_pos found
        simp only [later next fewer.1 fewer.2]
    · rfl

/-- Fuel for every token is enough to look past modifiers, and more of it changes nothing. -/
theorem afterModifiers?_congr (proper : cursor.Proper) (first : cursor.left ≤ n)
    (second : cursor.left ≤ m) : afterModifiers? n cursor = afterModifiers? m cursor := by
  refine fuel_congr left Proper ?_ ?_ proper first second
  · intro cursor proper done
    simp [afterModifiers?, proper.not_atModifier done]
  · intro cursor n m proper later
    rw [afterModifiers?, afterModifiers?]
    split
    · next modifier =>
      have rest := proper.pending_ne_nil_of_atModifier modifier
      cases found : (cursor.skip 1).afterAttachedGroup? with
      | none => rfl
      | some next =>
        have fewer := proper.of_afterAttachedGroup? rest Nat.one_pos found
        exact later next fewer.1 fewer.2
    · rfl

/-- A look-ahead over effects passes a token in each round. -/
theorem effectsEnd?_congr (proper : cursor.Proper) (inResult : Bool) (first : cursor.left < n)
    (second : cursor.left < m) :
    effectsEnd? inResult n cursor = effectsEnd? inResult m cursor := by
  -- An arrow changes what the later rounds allow, so both kinds of round are followed at once.
  refine congrFun (fuel_congr_of_lt (f := fun n cursor inResult => effectsEnd? inResult n cursor)
    left Proper ?_ proper first second) inResult
  intro cursor n m proper later
  funext inResult
  have further (inResult : Bool) {count : Nat} (pos : 0 < count)
      (other : cursor.peek.kind ≠ .endOfFile) :
      effectsEnd? inResult n (cursor.skip count) =
        effectsEnd? inResult m (cursor.skip count) := by
    have some : 0 < cursor.left := List.length_pos_iff.2 (proper.pending_ne_nil other)
    exact congrFun (later (cursor.skip count) proper (by rw [left_skip]; omega)) inResult
  rw [effectsEnd?, effectsEnd?]
  split
  · rfl
  split
  · rfl
  cases kind : cursor.peek.kind with
  | identifier | period | operator =>
    simp only
    split
    · exact further inResult Nat.one_pos (by simp [kind])
    · rfl
  | arrow => exact further true Nat.one_pos (by simp [kind])
  | leftParen | leftBracket =>
    simp only
    split
    · cases closed : closing? 1 cursor.pending.tail with
      | none => simp [afterGroup?, closed]
      | some length =>
        simpa [afterGroup?, closed] using further inResult (by omega) (by simp [kind])
    · rfl
  | _ => rfl

end Cursor

/-- Generic parameters have at least their opening token. -/
theorem angleRun_pos (depth : Int) (token : Token) (later : List Token) :
    0 < angleRun depth (token :: later) := by
  rw [angleRun]
  split
  · exact Nat.one_pos
  · omega

/-- Fuel for every token is enough to read a type name, and more of it changes nothing. -/
theorem typeNameRest_congr {n m : Nat} {tokens : List Token} (first : tokens.length ≤ n)
    (second : tokens.length ≤ m) : typeNameRest n tokens = typeNameRest m tokens := by
  refine fuel_congr List.length (fun _ => True) ?_ ?_ trivial first second
  · intro tokens _ done
    rw [List.eq_nil_of_length_eq_zero done]
    rfl
  · intro tokens n m _ later
    cases tokens with
    | nil => rfl
    | cons token rest =>
      have pos := angleRun_pos 0 token rest
      rw [typeNameRest, typeNameRest]
      simp only
      split
      · rw [later _ trivial (by rw [List.length_drop, List.length_cons]; omega)]
      split
      · rw [later _ trivial (by rw [List.length_drop, List.length_cons]; omega)]
      · rfl

/-- Fuel for every token is enough to read a cast type, and more of it changes nothing. -/
theorem castType_congr {n m : Nat} {tokens : List Token} (previous last : Option Token)
    (endOfFile : Token) (first : tokens.length ≤ n) (second : tokens.length ≤ m) :
    castType previous last endOfFile n tokens = castType previous last endOfFile m tokens := by
  have all := fuel_congr
    (f := fun n tokens previous last => castType previous last endOfFile n tokens)
    List.length (fun _ => True) ?_ ?_ trivial first second
  · exact congrFun (congrFun all previous) last
  · intro tokens _ done
    rw [List.eq_nil_of_length_eq_zero done]
    rfl
  · intro tokens n m _ later
    funext previous last
    cases tokens with
    | nil => rfl
    | cons token rest =>
      -- Which part comes next does not matter, only that the loop stops or takes a token.
      have round (length : Nat) (final : Option Token) :
          (if length == 0 then 0
            else length + castType final final endOfFile n ((token :: rest).drop length)) =
          if length == 0 then 0
            else length + castType final final endOfFile m ((token :: rest).drop length) := by
        split
        · rfl
        · next some =>
          rw [beq_iff_eq] at some
          have fewer : ((token :: rest).drop length).length < (token :: rest).length := by
            rw [List.length_drop, List.length_cons]
            omega
          rw [congrFun (congrFun (later _ trivial fewer) final) final]
      rw [castType, castType]
      exact round _ _

/-! ### Counters of open brackets -/

namespace Counted

/-- The number of tokens in a run, with a natural number for the open brackets. Nothing if one is
closed that is not open. -/
def run (stops : Bool → Option Token → Token → Bool) (begun : Bool) (depth : Nat)
    (previous : Option Token) : List Token → Option Nat
  | [] => some 0
  | token :: later =>
    if depth = 0 && stops begun previous token then some 0
    else if token.kind.isOpening then (run stops true (depth + 1) (some token) later).map (1 + ·)
    else if token.kind.isClosing then
      if depth = 0 then none else (run stops true (depth - 1) (some token) later).map (1 + ·)
    else (run stops true depth (some token) later).map (1 + ·)

/-- The number of tokens through the delimiter that closes the open ones, or of all tokens. Nothing
if one is closed that is not open. -/
def group : Nat → List Token → Option Nat
  | _, [] => some 0
  | depth, token :: later =>
    if depth = 0 then some 0
    else if token.kind.isOpening then (group (depth + 1) later).map (1 + ·)
    else if token.kind.isClosing then
      if depth = 0 then none else (group (depth - 1) later).map (1 + ·)
    else (group depth later).map (1 + ·)

/-- A run that stops at every closing delimiter outside all brackets closes none that is not
open. -/
theorem run_eq {stops : Bool → Option Token → Token → Bool}
    (closes : ∀ begun previous (token : Token), token.kind.isClosing = true →
      stops begun previous token = true) (begun : Bool) (depth : Nat) (previous : Option Token)
    (tokens : List Token) : run stops begun depth previous tokens =
      some (runWhile Token.delimiterDepth stops begun depth previous tokens) := by
  induction tokens generalizing begun depth previous with
  | nil => rfl
  | cons token later ih =>
    have outside : decide ((depth : Int) ≤ 0) = decide (depth = 0) := by
      rw [decide_eq_decide]
      omega
    rw [run, runWhile, outside]
    split
    · rfl
    · next goesOn =>
      by_cases opening : token.kind.isOpening
      · rw [if_pos opening, ih, Token.delimiterDepth, if_pos opening]
        rfl
      rw [if_neg opening, Token.delimiterDepth, if_neg opening]
      by_cases closing : token.kind.isClosing
      · -- Outside all brackets the run would have stopped at this delimiter.
        have inside : depth ≠ 0 := by
          rintro rfl
          exact goesOn (by simp [closes begun previous token closing])
        have less : (depth : Int) + -1 = (depth - 1 : Nat) := by omega
        rw [if_pos closing, if_neg inside, ih, if_pos closing, less]
        rfl
      · rw [if_neg closing, ih, if_neg closing, Int.add_zero]
        rfl

/-- A group never fails to end, be it at the last token. -/
theorem group_eq (depth : Nat) (tokens : List Token) :
    group depth tokens = some ((closing? depth tokens).getD tokens.length) := by
  induction tokens generalizing depth with
  | nil => cases depth <;> rfl
  | cons token later ih =>
    have further (depth : Nat) : ((group depth later).map (1 + ·)) =
        some (((closing? depth later).map (· + 1)).getD (token :: later).length) := by
      rw [ih]
      cases closing? depth later <;> simp [Nat.add_comm]
    cases depth with
    | zero => simp [group, closing?]
    | succ depth =>
      rw [group, closing?, if_neg (Nat.succ_ne_zero depth)]
      split
      · exact further (depth + 2)
      split
      · exact further depth
      · exact further (depth + 1)

end Counted

/-- A token that is taken is the next one, or one of no known kind. -/
theorem Cursor.kind_bump (cursor : Cursor) :
    cursor.bump.1.kind = .unknown ∨ cursor.bump.1.kind = cursor.peek.kind := by
  by_cases rest : cursor.pending = []
  · exact .inl (by simp [bump, rest, Token.missing])
  · exact .inr (by rw [bump_fst rest])

namespace Parser

theorem kind_castOperator {cursor next : Cursor} {operator : Token}
    (found : castOperator cursor = some (operator, next)) :
    operator.kind = cursor.bump.1.kind := by
  have bumped : bump cursor = some (cursor.bump.1, cursor.bump.2) := rfl
  rw [castOperator, bind_apply bumped] at found
  split at found
  · cases marked : cursor.bump.2.peek.isOptionalMark && cursor.bump.2.atAdjacent with
    | false =>
      have answer : optionalMark cursor.bump.2 = some (none, cursor.bump.2) := bumpIf_of_not marked
      rw [bind_apply answer] at found
      cases found
      rfl
    | true =>
      have answer : optionalMark cursor.bump.2 =
          some (some cursor.bump.2.bump.1, cursor.bump.2.bump.2) := bumpIf_of marked
      rw [bind_apply answer] at found
      cases found
      rfl
  · cases found
    rfl

/-- A colon is an operator only while a ternary is open. -/
theorem ternaries_pos_of_colon {ternaries : Nat} {cursor next : Cursor} {operator : Token}
    (found : binaryOperator? ternaries cursor = some (some operator, next))
    (colon : operator.kind = .colon) : 0 < ternaries := by
  have asked : (get : Parser Cursor) cursor = some (cursor, cursor) := rfl
  have atColon (kind : operator.kind = cursor.bump.1.kind) : cursor.peek.kind = .colon := by
    rcases cursor.kind_bump with unknown | same
    · rw [colon, unknown] at kind
      cases kind
    · rw [← same, ← kind, colon]
  rw [binaryOperator?, bind_apply asked] at found
  -- The colon was read as an operator, or as the word of a cast, which it is not.
  split at found
  · next here =>
    cases found
    simp only [Cursor.atOperator, Cursor.isAt, atColon rfl, Bool.or_eq_true, Bool.and_eq_true,
      bne_iff_ne] at here
    rcases here with ⟨impossible, -⟩ | ⟨-, some⟩
    · cases impossible
    · exact Nat.pos_of_ne_zero some
  split at found
  · next keyword =>
    cases cast : castOperator cursor with
    | none => simp [Functor.map, StateT.map, cast] at found
    | some answer =>
      rw [map_apply cast] at found
      cases found
      have kind := atColon (kind_castOperator cast)
      simp [Cursor.atKeyword, Token.isKeyword, kind] at keyword
  · cases found

end Parser

/-! ### Safe reading -/

/-- The stream is read to its end, and more fuel than it is given changes nothing. -/
structure TokenStream.Settles (stream : TokenStream) : Prop where
  file : ∃ statements, ∀ fuel ≥ fuelFor stream, Parser.fileStatements fuel (.start stream) =
    some (statements, stream.cursorAt stream.tokens.length)
  expression : ∀ position, ∃ expr, ∃ last ≤ stream.tokens.length, ∀ fuel ≥ fuelFor stream,
    Parser.expr fuel position (.start stream) = some (expr, stream.cursorAt last)

/-- At the index, and wherever reading or looking ahead goes from there, the tokens that are asked
for are in range. -/
structure TokenStream.InRange (stream : TokenStream) (index : Nat) : Prop where
  next : stream.toList[index]? = some (stream.cursorAt index).peek
  second : index < stream.tokens.length →
    stream.toList[index + 1]? = some (stream.cursorAt index).second
  moves : ∀ tokens cursor, (stream.cursorAt index).Reads tokens cursor →
    ∃ later, index ≤ later ∧ later ≤ stream.tokens.length ∧ cursor = stream.cursorAt later
  group : (stream.cursorAt index).peek.kind.isOpening = true →
    stream.Tracks (index + 1) (Indexed.groupEnd stream.toList stream.toList.length 0 index)
      (stream.cursorAt index).afterGroup?
  declaration : stream.Tracks index (Indexed.declarationKeyword stream.toList index)
    (stream.cursorAt index).declarationKeyword?
  closure : index < stream.tokens.length →
    stream.Tracks (index + 1) (Indexed.closureKeyword stream.toList (index + 1))
      (stream.cursorAt (index + 1)).signatureEnd?
  generic : (stream.cursorAt index).peek.opensAngle && (stream.cursorAt index).leftBound →
    Indexed.genericEnd stream.toList index stream.toList.length 0 index =
      some ((stream.cursorAt index).genericArguments?.map (index + ·))

/-- More fuel than the loops at the cursor are given changes nothing. -/
structure Cursor.LoopsSettle (cursor : Cursor) : Prop where
  attributes : ∀ more, cursor.attributes (cursor.left + more) = cursor.attributes cursor.left
  modifiers : ∀ more, cursor.modifiers (cursor.left + more) = cursor.modifiers cursor.left
  inheritedTypes : ∀ more,
    cursor.inheritedTypes (cursor.left + 1 + more) = cursor.inheritedTypes (cursor.left + 1)
  typeName : ∀ more, typeNameRest (cursor.left + more) cursor.pending = cursor.typeNameRun
  cast : ∀ more,
    castType cursor.previous none cursor.endOfFile (cursor.left + more) cursor.pending =
      cursor.castRun
  afterAttributes : ∀ more, Cursor.afterAttributes? (cursor.left + more) cursor =
    Cursor.afterAttributes? cursor.left cursor
  afterModifiers : ∀ more, Cursor.afterModifiers? (cursor.left + more) cursor =
    Cursor.afterModifiers? cursor.left cursor
  effects : ∀ inResult more, Cursor.effectsEnd? inResult (cursor.left + 1 + more) cursor =
    Cursor.effectsEnd? inResult (cursor.left + 1) cursor

/-- The runs at the cursor close no bracket that they have not opened, and a colon closes no ternary
that is not open. -/
structure Cursor.CountsSafely (cursor : Cursor) : Prop where
  group : (Counted.group 1 cursor.pending.tail).map (1 + ·) = some cursor.balanced
  catches : Counted.run (fun _ _ token => token.kind == .leftBrace || token.kind.isClosing)
    false 0 cursor.previous cursor.pending = some cursor.catchRun
  pattern : Counted.run
    (fun begun previous token =>
      token.kind == .colon || token.kind == .comma || token.isOperator "=" ||
        token.isKeyword "in" || token.isKeyword "else" || token.kind == .leftBrace ||
        token.kind.isClosing || token.kind == .semicolon ||
        begun && lineBreakBetween previous token)
    false 0 cursor.previous cursor.pending = some cursor.patternRun
  declaration : ∀ first later, cursor.pending = first :: later →
    (Counted.run
      (fun _ previous token =>
        lineBreakBetween previous token || token.kind == .semicolon || token.kind.isClosing)
      false 0 (some first) later).map (1 + ·) = some cursor.rawDeclarationRun
  stray : Counted.run (fun _ _ token => token.kind == .comma || token.kind.isClosing)
    false 0 cursor.previous cursor.pending = some cursor.strayRun
  ternaries : ∀ ternaries operator next,
    Parser.binaryOperator? ternaries cursor = some (some operator, next) →
      operator.kind = .colon → 0 < ternaries

namespace TokenStream.Ended

variable {stream : TokenStream}

/-- Every reading of a stream that ends settles. -/
theorem settles (ended : stream.Ended) : stream.Settles where
  file := by
    obtain ⟨statements, last, answer, reads, done⟩ := SourceFile.exists_reading ended.last
    rw [← TokenStream.cursorAt_zero] at reads
    obtain ⟨index, -, le, rfl⟩ := reads.exists_cursorAt (Nat.zero_le _)
    have all : stream.tokens.length ≤ index := List.drop_eq_nil_iff.1 done
    rw [Nat.le_antisymm le all] at answer
    exact ⟨statements, answer⟩
  expression := by
    intro position
    obtain ⟨expr, last, answer, reads⟩ := Expr.exists_reading ended.last position
    rw [← TokenStream.cursorAt_zero] at reads
    obtain ⟨index, -, le, rfl⟩ := reads.exists_cursorAt (Nat.zero_le _)
    exact ⟨expr, index, le, answer⟩

/-- Every index in a stream is in range for the tests that look around it. -/
theorem inRange (ended : stream.Ended) {index : Nat} (le : index ≤ stream.tokens.length) :
    stream.InRange index where
  next := getElem?_toList le
  second := by
    intro lt
    have second := stream.getElem?_second index
    rwa [Nat.min_eq_left (by rw [length_toList]; omega)] at second
  moves := fun _ _ reads => reads.exists_cursorAt le
  group := tracks_groupEnd ended le
  declaration := tracks_declarationKeyword ended le
  closure := tracks_closureKeyword ended
  generic := by
    intro opens
    have enough : stream.tokens.length < index + stream.toList.length := by
      rw [length_toList]
      omega
    rw [genericEnd_eq ended _ 0 (Nat.le_refl index) le enough, Cursor.genericArguments?,
      if_pos opens, decide_eq_false (Nat.lt_irrefl index)]
    rfl

end TokenStream.Ended

namespace Cursor

/-- Every loop settles at a proper place. -/
theorem Proper.loopsSettle {cursor : Cursor} (proper : cursor.Proper) : cursor.LoopsSettle where
  attributes := fun _ => attributes_congr proper (by omega) (by omega)
  modifiers := fun _ => modifiers_congr proper (by omega) (by omega)
  inheritedTypes := fun _ => inheritedTypes_congr proper (by omega) (by omega)
  typeName := fun _ => typeNameRest_congr (Nat.le_add_right _ _) (Nat.le_refl _)
  cast := fun _ => castType_congr _ _ _ (Nat.le_add_right _ _) (Nat.le_refl _)
  afterAttributes := fun _ => afterAttributes?_congr proper (by omega) (by omega)
  afterModifiers := fun _ => afterModifiers?_congr proper (by omega) (by omega)
  effects := fun inResult _ => effectsEnd?_congr proper inResult (by omega) (by omega)

/-- The runs at any cursor count safely. -/
theorem countsSafely (cursor : Cursor) : cursor.CountsSafely where
  group := by rw [Counted.group_eq]; rfl
  catches := Counted.run_eq (by simp +contextual) false 0 _ _
  pattern := Counted.run_eq (by simp +contextual) false 0 _ _
  declaration := by
    intro first later pending
    rw [Counted.run_eq (by simp +contextual), rawDeclarationRun, pending]
    rfl
  stray := Counted.run_eq (by simp +contextual) false 0 _ _
  ternaries := fun _ _ _ => Parser.ternaries_pos_of_colon

end Cursor

/-- Reading a stream is safe. With the fuel that the number of its tokens gives, the stream is read
to its end, and more fuel changes nothing; the same holds of every function of the grammar with fuel
for the tokens left and its rank, and of every loop inside such a function. Wherever reading has
come to, the tokens that it asks for are in range, and no counter falls below zero. -/
theorem reading_safe (stream : TokenStream) (ended : stream.Ended) :
    stream.Settles ∧ (∀ n m, Settled n m) ∧
      ∀ index ≤ stream.tokens.length, stream.InRange index ∧
        (stream.cursorAt index).LoopsSettle ∧ (stream.cursorAt index).CountsSafely := by
  refine ⟨ended.settles, settled, fun index le => ⟨ended.inRange le, ?_, ?_⟩⟩
  · exact (TokenStream.proper_cursorAt ended index).loopsSettle
  · exact Cursor.countsSafely _

/-- A closure whose signature and braces never end. -/
theorem reading_safe_unclosed :
    TokenStream.Settles
      { tokens := [.ofPunctuation '{', .ofPunctuation '(', .ofName "x", .ofPunctuation ',',
          .ofPunctuation '@', .ofOperator "?", .ofPunctuation ':']
        endOfFile := { kind := .endOfFile, text := "" } } :=
  (reading_safe _ ⟨rfl, by decide⟩).1

end SuiteMigration
