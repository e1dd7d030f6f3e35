import Mathlib.Tactic.Common
import SuiteMigration.Proofs.Reading.Extents

/-!
# Looking ahead in two places

The questions that need more than the next two tokens have the same answer at cursors that are
abreast. What is looked through is a group that is closed on the way, or ends before the way does; a
generic argument list is found in both streams unless it goes on behind the way.

## Main definitions

* `Passage.Encloses` - the delimiter that closes an open group is ahead on the way

## Main results

* `Abreast.declarationKeyword?_rel` - a declaration begins in both streams or in neither
* `Abreast.signatureLength?_eq` - the signature of a closure is equally long
* `Level.genericArguments?_eq` - a generic argument list is equally long
-/

namespace SuiteMigration

variable {passage : Passage} {before before' token token' : Token} {tokens tokens' : List Token}
  {cursor cursor' next : Cursor}

/-! ### Groups -/

/-- Open groups are closed one after the other. -/
theorem closing?_split (depth more : Nat) {length : Nat} {tokens : List Token}
    (closed : closing? (depth + more) tokens = some length) :
    ∃ first second, closing? depth tokens = some first ∧
      closing? more (tokens.drop first) = some second ∧ length = first + second := by
  induction tokens generalizing depth length with
  | nil =>
    cases depth with
    | zero => exact ⟨0, length, by simp [closing?], by simpa using closed, (Nat.zero_add _).symm⟩
    | succ depth =>
      rw [Nat.succ_add] at closed
      simp [closing?] at closed
  | cons token later ih =>
    cases depth with
    | zero => exact ⟨0, length, by simp [closing?], by simpa using closed, (Nat.zero_add _).symm⟩
    | succ depth =>
      -- Whatever the token does to the depth, the split of what follows is moved by one.
      have step (depth : Nat) (inner : (closing? (depth + more) later).map (· + 1) = some length) :
          ∃ first second, (closing? depth later).map (· + 1) = some first ∧
            closing? more ((token :: later).drop first) = some second ∧ length = first + second := by
        obtain ⟨count, found, rfl⟩ := Option.map_eq_some_iff.1 inner
        obtain ⟨first, second, isFirst, isSecond, rfl⟩ := ih depth found
        exact ⟨first + 1, second, by rw [isFirst, Option.map_some], isSecond, by omega⟩
      rw [Nat.succ_add, closing?] at closed
      rw [closing?]
      split at closed
      · next opening =>
        rw [if_pos opening]
        exact step (depth + 2) (by rw [← closed, show depth + 2 + more = depth + more + 2 by omega])
      · next opening =>
        rw [if_neg opening]
        split at closed
        · next closing => rw [if_pos closing]; exact step depth closed
        · next closing =>
          rw [if_neg closing]
          exact step (depth + 1)
            (by rw [← closed, show depth + 1 + more = depth + more + 1 by omega])

/-- A group ends with the delimiter that closes it. -/
theorem closing?_last (depth : Nat) {length : Nat} {tokens : List Token}
    (closed : closing? (depth + 1) tokens = some length) :
    ∃ front brace rest, tokens = front ++ brace :: rest ∧ brace.kind.isClosing = true ∧
      length = front.length + 1 := by
  induction tokens generalizing depth length with
  | nil => simp [closing?] at closed
  | cons token later ih =>
    have step {depth : Nat} (inner : (closing? (depth + 1) later).map (· + 1) = some length) :
        ∃ front brace rest, token :: later = front ++ brace :: rest ∧ brace.kind.isClosing = true ∧
          length = front.length + 1 := by
      obtain ⟨count, found, rfl⟩ := Option.map_eq_some_iff.1 inner
      obtain ⟨front, brace, rest, rfl, closing, rfl⟩ := ih _ found
      exact ⟨token :: front, brace, rest, rfl, closing, rfl⟩
    rw [closing?] at closed
    split at closed
    · exact step closed
    split at closed
    · next closing =>
      cases depth with
      | zero =>
        obtain rfl : 1 = length := by simpa [closing?] using closed
        exact ⟨[], token, later, rfl, closing, rfl⟩
      | succ depth => exact step closed
    · exact step closed

/-- The group that is open at the cursor is closed on the way. -/
def Passage.Encloses (passage : Passage) (cursor : Cursor) : Prop :=
  ∃ length, closing? 1 cursor.pending = some length ∧ length + passage.stop.left ≤ cursor.left

namespace Passage.Encloses

variable (encloses : passage.Encloses cursor)

include encloses

/-- The delimiter that closes the group is ahead. -/
theorem braced : passage.Braced cursor := by
  obtain ⟨length, closed, within⟩ := encloses
  obtain ⟨front, brace, rest, pending, closing, rfl⟩ := closing?_last 0 closed
  refine ⟨front, brace, rest, pending, closing, ?_⟩
  rw [Cursor.left, Cursor.left, pending, List.length_append, List.length_cons] at within
  rw [Cursor.left]
  omega

theorem inside : passage.Inside cursor :=
  encloses.braced.inside

/-- A token that is no delimiter can be passed. -/
theorem skip (opening : cursor.peek.kind.isOpening = false)
    (closing : cursor.peek.kind.isClosing = false) : passage.Encloses (cursor.skip 1) := by
  obtain ⟨length, closed, within⟩ := encloses
  cases pending : cursor.pending with
  | nil => simp [pending, closing?] at closed
  | cons token later =>
    have isPeek : cursor.peek = token := by rw [Cursor.peek, pending, List.headD_cons]
    rw [isPeek] at opening closing
    rw [pending, closing?, if_neg (by simp [opening]), if_neg (by simp [closing])] at closed
    obtain ⟨count, found, rfl⟩ := Option.map_eq_some_iff.1 closed
    refine ⟨count, ?_, ?_⟩
    · rwa [Cursor.skip_succ pending]
    · rw [Cursor.left_skip]
      omega

/-- A group can be passed. -/
theorem afterGroup? (opening : cursor.peek.kind.isOpening = true) :
    ∃ length, closing? 1 cursor.pending.tail = some length ∧
      1 + length + passage.stop.left ≤ cursor.left ∧ passage.Encloses (cursor.skip (1 + length)) := by
  obtain ⟨length, closed, within⟩ := encloses
  cases pending : cursor.pending with
  | nil => simp [pending, closing?] at closed
  | cons token later =>
    have isPeek : cursor.peek = token := by rw [Cursor.peek, pending, List.headD_cons]
    rw [isPeek] at opening
    rw [pending, closing?, if_pos opening] at closed
    obtain ⟨count, found, rfl⟩ := Option.map_eq_some_iff.1 closed
    obtain ⟨first, second, isFirst, isSecond, rfl⟩ := closing?_split 1 1 found
    refine ⟨first, isFirst, by omega, second, ?_, ?_⟩
    · rw [Nat.add_comm 1 first, Cursor.skip_succ pending]
      exact isSecond
    · rw [Cursor.left_skip]
      omega

end Passage.Encloses

/-- A group that is closed on the way can be passed in both streams. -/
theorem Abreast.afterGroup?_of_closed (abreast : Abreast passage cursor cursor') (length : Nat)
    (closed : closing? 1 cursor.pending.tail = some length)
    (within : 1 + length + passage.stop.left ≤ cursor.left) :
    cursor.afterGroup? = some (cursor.skip (1 + length)) ∧
      cursor'.afterGroup? = some (cursor'.skip (1 + length)) ∧
      Abreast passage (cursor.skip (1 + length)) (cursor'.skip (1 + length)) := by
  refine ⟨by rw [Cursor.afterGroup?, closed, Option.map_some], ?_, abreast.skip within⟩
  obtain ⟨-, like, echoes⟩ := abreast
  cases echoes with
  | nil =>
    simp only [Cursor.left, List.nil_append] at within
    omega
  | cons like' gap later =>
    simp only [List.cons_append, List.tail_cons, Cursor.left, List.length_cons,
      List.length_append] at closed within
    rw [Cursor.afterGroup?, List.cons_append, List.tail_cons,
      later.closing?_eq closed (by omega), Option.map_some]

/-- What is opened on the way is closed on it. -/
theorem Passage.Ends.encloses (ends : passage.Ends) (abreast : Abreast passage cursor cursor')
    (previous : cursor.previous = some token) (opening : token.kind.isOpening = true) :
    passage.Encloses cursor := by
  obtain ⟨on, like, echoes⟩ := abreast
  obtain rfl := Option.some.inj previous
  obtain ⟨length, closed⟩ := Option.isSome_iff_exists.1 (ends.enclosed _ _ on opening)
  refine ⟨length, closing?_append closed _, ?_⟩
  rw [Cursor.left, Cursor.left, List.length_append]
  exact Nat.add_le_add_right (closing?_le closed) _

/-- A group can be passed in both streams. -/
theorem Abreast.afterGroup?_rel (ends : passage.Ends) (abreast : Abreast passage cursor cursor')
    (inside : passage.Inside cursor) (opening : cursor.peek.kind.isOpening = true) :
    Option.Rel (Abreast passage) cursor.afterGroup? cursor'.afterGroup? := by
  obtain ⟨first, later, _, _, -, pending, -, -, next, -⟩ := abreast.inside inside
  have isPeek : cursor.peek = first := by rw [Cursor.peek, pending, List.headD_cons]
  obtain ⟨length, closed, within⟩ := ends.encloses next rfl (isPeek ▸ opening)
  have left : cursor.left = later.length + 1 := by rw [Cursor.left, pending, List.length_cons]
  change length + passage.stop.left ≤ later.length at within
  obtain ⟨found, found', next⟩ := abreast.afterGroup?_of_closed length
    (by rwa [pending]) (by rw [left]; omega)
  rw [found, found']
  exact .some next

/-! ### Declarations -/

namespace Level

variable (level : Level passage cursor cursor') (ends : passage.Ends)

include level ends

/-- Neither the token after the way nor a token at its end begins a declaration in one stream only. -/
theorem declares_eq : isDeclarationKeyword cursor.peek cursor.second =
    isDeclarationKeyword cursor'.peek cursor'.second := by
  by_cases inside : passage.Inside cursor
  · rcases level.second_cases inside with ⟨like, -⟩ | ⟨-, isStop, isStop', parts⟩
    · exact (level.peek_like inside).isDeclarationKeyword like
    · rw [isStop, isStop', parts.declares]
  · rcases level.cases with ⟨_, _, _, _, here, -⟩ | ⟨-, abreast⟩
    · exact absurd here inside
    · obtain ⟨isStop, isStop'⟩ := abreast.peek_stop inside
      have other := ends.kind_ne .identifier TokenKind.noConfusion TokenKind.noConfusion
      have other' := ends.kind_ne' .identifier TokenKind.noConfusion
        TokenKind.noConfusion TokenKind.noConfusion
      rw [Cursor.isAt] at other other'
      rw [isStop, isStop', isDeclarationKeyword, isDeclarationKeyword, other, other',
        Bool.false_and, Bool.false_and]

omit ends in
/-- A token that follows the next one and does not come after the way is on the way. -/
theorem inside_bump (inside : passage.Inside cursor) (test : Token → Bool)
    (holds : test cursor.second = true) (fails : test passage.stop.peek = false) :
    passage.Inside cursor.bump.2 := by
  obtain ⟨token, later, token', later', -, pending, pending', -, next, -⟩ := level.inside inside
  rw [Cursor.bump_of_pending pending]
  by_contra outside
  have isSecond : cursor.second = passage.stop.peek := by
    rw [← (next.peek_stop outside).1, Cursor.second, Cursor.peek, pending, List.tail_cons]
  rw [isSecond, fails] at holds
  exact Bool.noConfusion holds

/-- A name that follows the next token is on the way. -/
theorem within_of_name (inside : passage.Inside cursor) (name : cursor.second.kind = .identifier) :
    2 + passage.stop.left ≤ cursor.left := by
  have next := level.inside_bump inside (fun token => token.kind == .identifier)
    (beq_iff_eq.2 name) (ends.kind_ne _ TokenKind.noConfusion TokenKind.noConfusion)
  obtain ⟨token, later, _, _, -, pending, -⟩ := level.inside inside
  have left : cursor.left = later.length + 1 := by rw [Cursor.left, pending, List.length_cons]
  rw [Cursor.bump_of_pending pending, Passage.Inside] at next
  rw [left]
  change passage.stop.left < later.length at next
  omega

end Level

namespace Abreast

variable (abreast : Abreast passage cursor cursor') (ends : passage.Ends)

include abreast ends

theorem afterAttachedGroup?_rel :
    Option.Rel (Abreast passage) cursor.afterAttachedGroup? cursor'.afterAttachedGroup? := by
  rw [Cursor.afterAttachedGroup?, Cursor.afterAttachedGroup?]
  by_cases inside : passage.Inside cursor
  · rw [← abreast.atAttachedParen_eq inside]
    split
    · next attached =>
      rw [Cursor.atAttachedParen, Bool.and_eq_true, Cursor.isAt, beq_iff_eq] at attached
      exact abreast.afterGroup?_rel ends inside (by rw [attached.1]; rfl)
    · exact .some abreast
  · obtain ⟨isStop, isStop'⟩ := abreast.peek_stop inside
    have other := ends.kind_ne .leftParen TokenKind.noConfusion TokenKind.noConfusion
    have other' := ends.kind_ne' .leftParen TokenKind.noConfusion TokenKind.noConfusion
      TokenKind.noConfusion
    rw [Cursor.isAt] at other other'
    rw [Cursor.atAttachedParen, Cursor.atAttachedParen, Cursor.isAt, Cursor.isAt, isStop, isStop',
      other, other', Bool.false_and]
    exact .some abreast

/-- A modifier stands at both cursors or at neither. -/
theorem atModifier_eq : cursor.atModifier = cursor'.atModifier := by
  by_cases inside : passage.Inside cursor
  · have level := Level.later abreast
    have like := level.peek_like inside
    obtain ⟨token, later, token', later', -, pending, pending', -, next, -⟩ := abreast.inside inside
    have declares := (Level.later next).declares_eq ends
    -- Whether a declaration begins behind the word is a question about the second and the third
    -- token.
    have isThird {cursor : Cursor} {token : Token} {later : List Token}
        (pending : cursor.pending = token :: later) :
        Cursor.peek { cursor with previous := some token, pending := later } = cursor.second ∧
          Cursor.second { cursor with previous := some token, pending := later } =
            cursor.pending.getD 2 cursor.endOfFile := by
      rw [Cursor.peek, Cursor.second, Cursor.second, pending]
      cases later with
      | nil => exact ⟨rfl, rfl⟩
      | cons _ later => cases later <;> exact ⟨rfl, rfl⟩
    rw [(isThird pending).1, (isThird pending).2, (isThird pending').1, (isThird pending').2]
      at declares
    have word : (cursor.second.text != "class" && modifierWords.contains cursor.second.text) =
        (cursor'.second.text != "class" && modifierWords.contains cursor'.second.text) :=
      level.test_second inside
        (fun token => token.text != "class" && modifierWords.contains token.text)
        (fun _ _ like => by rw [like.text]) (by rw [ends.word, Bool.and_false])
        (by rw [ends.word', Bool.and_false])
    simp only [Cursor.atModifier, like.kind, like.text, declares, word]
  · obtain ⟨isStop, isStop'⟩ := abreast.peek_stop inside
    simp only [Cursor.atModifier, isStop, isStop', ends.word, ends.word', Bool.and_false,
      Bool.false_and]

theorem afterAttributes?_rel (fuel : Nat) : Option.Rel (Abreast passage)
    (Cursor.afterAttributes? fuel cursor) (Cursor.afterAttributes? fuel cursor') := by
  induction fuel generalizing cursor cursor' with
  | zero => exact .some abreast
  | succ fuel ih =>
    have level := Level.later abreast
    rw [Cursor.afterAttributes?, Cursor.afterAttributes?,
      ← level.isAt_eq ends .atSign (by decide)]
    split
    · next sign =>
      have inside : passage.Inside cursor := by
        by_contra outside
        rw [Cursor.isAt, (abreast.peek_stop outside).1] at sign
        exact Bool.noConfusion (sign.symm.trans (ends.kind_ne _ TokenKind.noConfusion
          TokenKind.noConfusion))
      -- The name behind the sign may be the stop, which is no name.
      have name : (cursor.second.kind == .identifier) = (cursor'.second.kind == .identifier) :=
        level.test_second inside (fun token => token.kind == .identifier)
          (fun _ _ like => by rw [like.kind])
          (ends.kind_ne _ TokenKind.noConfusion TokenKind.noConfusion)
          (ends.kind_ne' _ TokenKind.noConfusion TokenKind.noConfusion TokenKind.noConfusion)
      rw [← name]
      split
      · next isName =>
        rw [beq_iff_eq] at isName
        have group := (abreast.skip (level.within_of_name ends inside isName)).afterAttachedGroup?_rel
          ends
        generalize (cursor.skip 2).afterAttachedGroup? = found,
          (cursor'.skip 2).afterAttachedGroup? = found' at group ⊢
        cases group with
        | none => exact .none
        | some next => exact ih next
      · exact .none
    · exact .some abreast

theorem afterModifiers?_rel (fuel : Nat) : Option.Rel (Abreast passage)
    (Cursor.afterModifiers? fuel cursor) (Cursor.afterModifiers? fuel cursor') := by
  induction fuel generalizing cursor cursor' with
  | zero => exact .some abreast
  | succ fuel ih =>
    rw [Cursor.afterModifiers?, Cursor.afterModifiers?, ← abreast.atModifier_eq ends]
    split
    · next modifier =>
      have inside : passage.Inside cursor := by
        by_contra outside
        simp only [Cursor.atModifier, (abreast.peek_stop outside).1, ends.word, Bool.and_false,
          Bool.false_and, Bool.false_eq_true] at modifier
      rw [Passage.Inside] at inside
      have passed : 1 + passage.stop.left ≤ cursor.left := by omega
      have group := (abreast.skip passed).afterAttachedGroup?_rel ends
      generalize (cursor.skip 1).afterAttachedGroup? = found,
        (cursor'.skip 1).afterAttachedGroup? = found' at group ⊢
      cases group with
      | none => exact .none
      | some next => exact ih next
    · exact .some abreast

/-- A declaration begins at both cursors or at neither. -/
theorem declarationKeyword?_rel : Option.Rel (Abreast passage) cursor.declarationKeyword?
    cursor'.declarationKeyword? := by
  obtain ⟨proper, proper'⟩ := abreast.proper ends
  have enough := Nat.le_max_left cursor.left cursor'.left
  have enough' := Nat.le_max_right cursor.left cursor'.left
  -- The fuels differ, so both are raised to the larger one.
  have attributes := abreast.afterAttributes?_rel ends (max cursor.left cursor'.left)
  rw [← Cursor.afterAttributes?_congr proper (Nat.le_refl _) enough,
    ← Cursor.afterAttributes?_congr proper' (Nat.le_refl _) enough'] at attributes
  rw [Cursor.declarationKeyword?, Cursor.declarationKeyword?]
  generalize Cursor.afterAttributes? cursor.pending.length cursor = found,
    Cursor.afterAttributes? cursor'.pending.length cursor' = found' at attributes ⊢
  cases attributes with
  | none => exact .none
  | @some middle middle' middles =>
    obtain ⟨proper, proper'⟩ := middles.proper ends
    have enough := Nat.le_max_left middle.left middle'.left
    have enough' := Nat.le_max_right middle.left middle'.left
    have modifiers := middles.afterModifiers?_rel ends (max middle.left middle'.left)
    rw [← Cursor.afterModifiers?_congr proper (Nat.le_refl _) enough,
      ← Cursor.afterModifiers?_congr proper' (Nat.le_refl _) enough'] at modifiers
    simp only [Option.bind_eq_bind, Option.bind_some]
    generalize Cursor.afterModifiers? middle.pending.length middle = found,
      Cursor.afterModifiers? middle'.pending.length middle' = found' at modifiers ⊢
    cases modifiers with
    | none => exact .none
    | some last =>
      rw [Option.bind_some, Option.bind_some, ← (Level.later last).declares_eq ends]
      split
      · exact .some last
      · exact .none

end Abreast

/-! ### Closures -/

/-- Cursors abreast of each other, inside a group that is closed on the way. -/
structure Passage.Within (passage : Passage) (cursor cursor' : Cursor) : Prop where
  abreast : Abreast passage cursor cursor'
  encloses : passage.Encloses cursor

namespace Passage.Within

variable (within : passage.Within cursor cursor')

include within

theorem skip (opening : cursor.peek.kind.isOpening = false)
    (closing : cursor.peek.kind.isClosing = false) :
    passage.Within (cursor.skip 1) (cursor'.skip 1) := by
  have inside := within.encloses.inside
  rw [Inside] at inside
  exact ⟨within.abreast.skip (by omega), within.encloses.skip opening closing⟩

theorem afterGroup?_rel (opening : cursor.peek.kind.isOpening = true) :
    Option.Rel passage.Within cursor.afterGroup? cursor'.afterGroup? := by
  obtain ⟨length, closed, reaches, encloses⟩ := within.encloses.afterGroup? opening
  obtain ⟨found, found', next⟩ := within.abreast.afterGroup?_of_closed length closed reaches
  rw [found, found']
  exact .some ⟨next, encloses⟩

theorem peek_like : cursor.peek.Like cursor'.peek :=
  (Level.later within.abreast).peek_like within.encloses.inside

theorem afterCaptureList?_rel :
    Option.Rel passage.Within cursor.afterCaptureList? cursor'.afterCaptureList? := by
  rw [Cursor.afterCaptureList?, Cursor.afterCaptureList?, Cursor.isAt, Cursor.isAt,
    ← within.peek_like.kind]
  split
  · next bracket =>
    exact within.afterGroup?_rel (by rw [beq_iff_eq.1 bracket]; rfl)
  · exact .some within

/-- A parameter list without parentheses ends before the group does. -/
theorem skip_shorthandRun : passage.Within (cursor.skip (Cursor.shorthandRun cursor.pending))
    (cursor'.skip (Cursor.shorthandRun cursor'.pending)) := by
  -- Each round takes a name and a comma, so the induction is on the number of tokens left.
  induction count : cursor.left using Nat.strongRecOn generalizing cursor cursor' with
  | _ count ih =>
    obtain ⟨token, later, token', later', -, pending, pending', like, -⟩ :=
      within.abreast.inside within.encloses.inside
    have isPeek : cursor.peek = token := by rw [Cursor.peek, pending, List.headD_cons]
    by_cases name : (token.kind == .identifier && token.text != "in") = true
    · have kind : token.kind = .identifier := by simp_all
      have second := within.skip (by rw [isPeek, kind]; rfl) (by rw [isPeek, kind]; rfl)
      rw [Cursor.skip_succ pending, Cursor.skip_succ pending'] at second
      obtain ⟨next, rest, next', rest', -, ahead, ahead', nextLike, -⟩ :=
        second.abreast.inside second.encloses.inside
      obtain rfl : later = next :: rest := ahead
      obtain rfl : later' = next' :: rest' := ahead'
      rw [pending, pending', Cursor.shorthandRun, Cursor.shorthandRun, ← like.kind, ← like.text,
        ← nextLike.kind, if_pos name, if_pos name]
      split
      · next comma =>
        rw [beq_iff_eq] at comma
        have third := second.skip
          (by rw [Cursor.peek, Cursor.skip_zero]; simp [comma, TokenKind.isOpening])
          (by rw [Cursor.peek, Cursor.skip_zero]; simp [comma, TokenKind.isClosing])
        have further := ih _ ?_ third rfl
        · rw [Nat.add_comm 2, Nat.add_comm 2, Cursor.skip_succ pending, Cursor.skip_succ pending',
            Cursor.skip_succ rfl, Cursor.skip_succ rfl]
          exact further
        · have left : cursor.left = rest.length + 2 := by
            rw [Cursor.left, pending, List.length_cons, List.length_cons]
          rw [← count, Cursor.left_skip, Cursor.left_skip, left, Cursor.left, List.length_cons]
          omega
      · rw [Cursor.skip_succ pending, Cursor.skip_succ pending']
        exact second
    · have none {token : Token} {later : List Token}
          (other : ¬ (token.kind == .identifier && token.text != "in") = true) :
          Cursor.shorthandRun (token :: later) = 0 := by
        cases later <;> rw [Cursor.shorthandRun, if_neg other]
      rw [pending, pending', none name, none (by rwa [← like.kind, ← like.text])]
      exact within

theorem afterParameters?_rel :
    Option.Rel passage.Within cursor.afterParameters? cursor'.afterParameters? := by
  rw [Cursor.afterParameters?, Cursor.afterParameters?, Cursor.isAt, Cursor.isAt,
    ← within.peek_like.kind]
  split
  · next paren =>
    exact within.afterGroup?_rel (by rw [beq_iff_eq.1 paren]; rfl)
  · exact .some within.skip_shorthandRun

theorem effectsEnd?_rel (inResult : Bool) (fuel : Nat) : Option.Rel passage.Within
    (Cursor.effectsEnd? inResult fuel cursor) (Cursor.effectsEnd? inResult fuel cursor') := by
  induction fuel generalizing cursor cursor' inResult with
  | zero => exact .none
  | succ fuel ih =>
    have like := within.peek_like
    obtain ⟨last, last', previous, previous', before⟩ := within.abreast.previous
    have throws : cursor.previous.any (·.isKeyword "throws") =
        cursor'.previous.any (·.isKeyword "throws") := by
      rw [previous, previous', Option.any_some, Option.any_some, before.isKeyword]
    have next (inResult : Bool) (opening : cursor.peek.kind.isOpening = false)
        (closing : cursor.peek.kind.isClosing = false) : Option.Rel passage.Within
          (Cursor.effectsEnd? inResult fuel (cursor.skip 1))
          (Cursor.effectsEnd? inResult fuel (cursor'.skip 1)) :=
      ih (within.skip opening closing) inResult
    rw [Cursor.effectsEnd?, Cursor.effectsEnd?]
    simp only [← like.isKeyword, ← like.kind, ← like.text, ← like.consistsOf, ← throws,
      ← within.abreast.atNewLine_eq within.encloses.inside]
    split
    · exact .some within
    split
    · exact .none
    -- A word of the effects is passed in one step, a bracket with its group; all other kinds end
    -- the search.
    cases kind : cursor.peek.kind
    case identifier | period | operator =>
      simp only
      split
      · exact next inResult (by rw [kind]; rfl) (by rw [kind]; rfl)
      · exact .none
    case arrow => exact next true (by rw [kind]; rfl) (by rw [kind]; rfl)
    case leftParen | leftBracket =>
      simp only
      split
      · have group := within.afterGroup?_rel (by rw [kind]; rfl)
        generalize cursor.afterGroup? = found, cursor'.afterGroup? = found' at group ⊢
        cases group with
        | none => exact .none
        | some next => exact ih next inResult
      · exact .none
    all_goals exact .none

theorem signatureEnd?_rel (ends : passage.Ends) :
    Option.Rel passage.Within cursor.signatureEnd? cursor'.signatureEnd? := by
  have captures := within.afterCaptureList?_rel
  rw [Cursor.signatureEnd?, Cursor.signatureEnd?]
  generalize cursor.afterCaptureList? = found, cursor'.afterCaptureList? = found' at captures ⊢
  cases captures with
  | none => exact .none
  | @some middle middle' captures =>
    have parameters := captures.afterParameters?_rel
    simp only [Option.bind_eq_bind, Option.bind_some]
    generalize middle.afterParameters? = found, middle'.afterParameters? = found' at parameters ⊢
    cases parameters with
    | none => exact .none
    | @some last last' parameters =>
      obtain ⟨proper, proper'⟩ := parameters.abreast.proper ends
      have enough := Nat.lt_succ_of_le (Nat.le_max_left last.left last'.left)
      have enough' := Nat.lt_succ_of_le (Nat.le_max_right last.left last'.left)
      rw [Option.bind_some, Option.bind_some,
        Cursor.effectsEnd?_congr proper false (Nat.lt_succ_self _) enough,
        Cursor.effectsEnd?_congr proper' false (Nat.lt_succ_self _) enough']
      exact parameters.effectsEnd?_rel false _

/-- The signature of a closure is equally long in both streams. -/
theorem signatureLength?_eq (ends : passage.Ends) :
    cursor.signatureLength? = cursor'.signatureLength? := by
  have keyword := within.signatureEnd?_rel ends
  rw [Cursor.signatureLength?, Cursor.signatureLength?]
  generalize cursor.signatureEnd? = found, cursor'.signatureEnd? = found' at keyword ⊢
  cases keyword with
  | none => rfl
  | some keyword =>
    have start := within.abreast.left_eq
    have reached := keyword.abreast.left_eq
    simp only [Option.map_some, Option.some.injEq, Cursor.left] at *
    omega

end Passage.Within

/-! ### Generic arguments -/

/-- A call or a member access does not begin behind the way. -/
theorem Passage.Ends.follows_eq_false (ends : passage.Ends) (last last' : Token) :
    ((passage.stop.peek.kind == .leftParen || passage.stop.peek.kind == .period) &&
        adjacent (some last) passage.stop.peek) = false ∧
      ((passage.stop'.peek.kind == .leftParen || passage.stop'.peek.kind == .period) &&
        adjacent (some last') passage.stop'.peek) = false := by
  constructor
  · rcases ends.kind with kind | kind <;> rw [kind] <;> rfl
  · rcases ends.kind' with kind | kind | kind <;> rw [kind] <;> rfl

/-- A call or a member access follows a token of the way in both streams, or in neither. -/
theorem Echoes.follows_eq (ends : passage.Ends)
    (echoes : Echoes passage before tokens before' tokens') :
    ((((tokens ++ passage.stop.pending).headD passage.stop.endOfFile).kind == .leftParen ||
        ((tokens ++ passage.stop.pending).headD passage.stop.endOfFile).kind == .period) &&
      adjacent (some before) ((tokens ++ passage.stop.pending).headD passage.stop.endOfFile)) =
    ((((tokens' ++ passage.stop'.pending).headD passage.stop'.endOfFile).kind == .leftParen ||
        ((tokens' ++ passage.stop'.pending).headD passage.stop'.endOfFile).kind == .period) &&
      adjacent (some before') ((tokens' ++ passage.stop'.pending).headD passage.stop'.endOfFile)) := by
  cases echoes with
  | nil =>
    obtain ⟨stops, stops'⟩ := ends.follows_eq_false before before'
    rw [Cursor.peek] at stops stops'
    rw [List.nil_append, List.nil_append, stops, stops']
  | cons like gap _ =>
    rw [List.cons_append, List.cons_append, List.headD_cons, List.headD_cons, ← like.kind,
      adjacent_congr gap]

/-- A generic argument list that is closed on the way is closed at the same place in the other
stream, and one that cannot be closed on it cannot be closed there either. -/
theorem Echoes.genericRun?_eq (ends : passage.Ends)
    (echoes : Echoes passage before tokens before' tokens') (begun : Bool) (depth : Int)
    (closes : Cursor.genericOpen begun depth (some before) tokens = false ∨
      ∀ begun depth previous,
        Cursor.genericRun? passage.stop'.endOfFile begun depth previous passage.stop'.pending = none)
    (within : ∀ length ∈ Cursor.genericRun? passage.stop.endOfFile begun depth (some before)
      (tokens ++ passage.stop.pending), length ≤ tokens.length) :
    Cursor.genericRun? passage.stop'.endOfFile begun depth (some before')
        (tokens' ++ passage.stop'.pending) =
      Cursor.genericRun? passage.stop.endOfFile begun depth (some before)
        (tokens ++ passage.stop.pending) := by
  induction echoes generalizing begun depth with
  | @nil last =>
    have none : Cursor.genericRun? passage.stop.endOfFile begun depth (some last)
        ([] ++ passage.stop.pending) = none := by
      rw [Option.eq_none_iff_forall_not_mem]
      intro length found
      have pos := Cursor.pos_of_genericRun found
      exact absurd (within length found) (Nat.not_le_of_lt pos)
    rw [none]
    rcases closes with closes | never
    · exact Bool.noConfusion closes
    · exact never _ _ _
  | @cons before before' token token' later later' like gap echoes ih =>
    rw [List.cons_append, Cursor.genericRun?] at within ⊢
    rw [List.cons_append, Cursor.genericRun?, ← lineBreakBetween_congr gap, ← like.kind,
      ← like.consistsOf, ← like.angleDepth]
    rw [Cursor.genericOpen] at closes
    split
    · rfl
    next goes =>
    rw [if_neg goes] at within closes
    have further (depth : Int)
        (closes : Cursor.genericOpen true depth (some token) later = false ∨
          ∀ begun depth previous, Cursor.genericRun? passage.stop'.endOfFile begun depth previous
            passage.stop'.pending = none)
        (within : ∀ length ∈ (Cursor.genericRun? passage.stop.endOfFile true depth (some token)
          (later ++ passage.stop.pending)).map (· + 1), length ≤ (token :: later).length) :
        (Cursor.genericRun? passage.stop'.endOfFile true depth (some token')
            (later' ++ passage.stop'.pending)).map (· + 1) =
          (Cursor.genericRun? passage.stop.endOfFile true depth (some token)
            (later ++ passage.stop.pending)).map (· + 1) := by
      rw [ih true depth closes]
      intro length found
      exact Nat.le_of_succ_le_succ (within (length + 1) (Option.mem_map_of_mem _ found))
    split
    · next operator =>
      rw [if_pos operator] at within closes
      split
      · next signs =>
        rw [if_pos signs] at within
        rw [signs, Bool.true_and] at closes
        simp only at within ⊢
        split
        · rw [echoes.follows_eq ends]
        · next unclosed =>
          rw [if_neg unclosed] at within
          split
          · rfl
          · next deeper =>
            rw [if_neg deeper] at within
            refine further _ (closes.imp_left fun stops => ?_) within
            rw [Bool.and_eq_false_iff] at stops
            exact stops.resolve_left (by simp; omega)
      · rfl
    · next other =>
      rw [if_neg other] at within closes
      split
      · next fits =>
        rw [if_pos fits] at within
        rw [fits, Bool.true_and] at closes
        exact further _ closes within
      · rfl

/-- A generic argument list is equally long in both streams, as long as it ends on the way. -/
theorem Abreast.genericArguments?_eq (ends : passage.Ends) (abreast : Abreast passage cursor cursor')
    (within : ∀ length ∈ cursor.genericArguments?, length + passage.stop.left ≤ cursor.left) :
    cursor'.genericArguments? = cursor.genericArguments? := by
  have level := Level.later abreast
  by_cases inside : passage.Inside cursor
  · have like := level.peek_like inside
    obtain ⟨first, _, _, _, -, pending, -, -, -, bound⟩ := level.inside inside
    have isPeek : cursor.peek = first := by rw [Cursor.peek, pending, List.headD_cons]
    rw [Cursor.genericArguments?] at within ⊢
    rw [Cursor.genericArguments?, ← like.opensAngle]
    by_cases opens : cursor.peek.opensAngle = true
    · -- Only an operator can open the list, so that it is bound alike on its left.
      have operator : first.kind = .operator := by
        rw [isPeek, Token.opensAngle, Bool.and_eq_true, beq_iff_eq] at opens
        exact opens.1
      rw [← bound operator]
      split
      · next both =>
        rw [if_pos both] at within
        obtain ⟨on, -, echoes⟩ := abreast
        refine echoes.genericRun?_eq ends false 0 (ends.generics.imp_left fun closed => ?_)
          fun length found => ?_
        · cases echoes with
          | nil =>
            simp only [Passage.Inside, Cursor.left, List.nil_append] at inside
            omega
          | cons _ _ _ =>
            rw [Bool.and_eq_true, Cursor.leftBound, Bool.and_eq_true] at both
            exact closed _ _ _ on opens both.2.1
        · simpa [Cursor.left] using within length found
      · rfl
    · rw [Bool.eq_false_iff.2 opens, Bool.false_and, Bool.false_and]
      rfl
  · -- At the stop no list begins: there is no operator, or one that stands apart.
    obtain ⟨isStop, isStop'⟩ := abreast.peek_stop inside
    have none : passage.stop.peek.opensAngle = false := by
      have other := ends.kind_ne .operator TokenKind.noConfusion TokenKind.noConfusion
      rw [Cursor.isAt] at other
      rw [Token.opensAngle, other, Bool.false_and]
    have none' : (passage.stop'.peek.opensAngle && cursor'.leftBound) = false := by
      cases operator : passage.stop'.isAt .operator with
      | false =>
        rw [Cursor.isAt] at operator
        rw [Token.opensAngle, operator, Bool.false_and, Bool.false_and]
      | true =>
        rcases abreast.cases with ⟨_, _, _, _, here, -⟩ | ⟨-, -, last, last', -, previous', parts⟩
        · exact absurd here inside
        · rw [Cursor.leftBound, Cursor.atAdjacent, previous', isStop', parts.apart operator,
            Bool.false_and, Bool.and_false]
    rw [Cursor.genericArguments?, Cursor.genericArguments?, isStop, isStop', none, none',
      Bool.false_and]
    rfl

end SuiteMigration
