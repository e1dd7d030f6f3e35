import SuiteMigration.Proofs.Reading.Consumption

/-!
# Looking ahead stays in range

The look-aheads can be written as loops over an index into all tokens of a stream. Such a loop asks
for the token at its index without asking first whether there is one, and leaves it to the token
that ends the stream to stop it. `Indexed` has the loops in this form. They give nothing where an
index has left the range, and also where they have not stopped after as many rounds as the stream
has tokens. Here each of them gives an answer, and it is that of the look-ahead over a cursor.

## Main definitions

* `TokenStream.Ended` - the stream ends with the one token that ends a source
* `TokenStream.cursorAt` - the cursor before the token with the given index
* `Indexed.groupEnd`, `Indexed.declarationKeyword`, `Indexed.closureKeyword`, `Indexed.genericEnd` -
  the look-aheads as loops over an index
* `TokenStream.Tracks` - a loop over an index and a look-ahead find the same place

## Main results

* `Cursor.Reads.exists_cursorAt` - reading goes from one index to a later one
* `tracks_declarationKeyword`, `tracks_closureKeyword`, `genericEnd_eq` - the look-aheads stay in
  range
-/

namespace SuiteMigration

/-! ### Cursors as indices -/

namespace TokenStream

/-- The stream ends with the token that ends a source, and holds no other one. -/
structure Ended (stream : TokenStream) : Prop where
  last : stream.endOfFile.kind = .endOfFile
  only : ∀ token ∈ stream.tokens, token.kind ≠ .endOfFile

/-- The cursor before the token with the given index. -/
def cursorAt (stream : TokenStream) (index : Nat) : Cursor where
  previous := (stream.tokens.take index).getLast?
  pending := stream.tokens.drop index
  endOfFile := stream.endOfFile

variable {stream : TokenStream} {index : Nat}

theorem cursorAt_zero (stream : TokenStream) : stream.cursorAt 0 = .start stream := rfl

/-- In a stream that ends, every place is a proper one to read from. -/
theorem proper_cursorAt (ended : stream.Ended) (index : Nat) : (stream.cursorAt index).Proper :=
  ended.last

/-- Skipping tokens is moving the index. -/
@[simp] theorem skip_cursorAt (index count : Nat) :
    (stream.cursorAt index).skip count = stream.cursorAt (index + count) := by
  simp only [cursorAt, Cursor.skip, Cursor.take, Cursor.mk.injEq, List.drop_drop, and_true]
  rw [List.take_add, List.getLast?_append]

theorem length_toList (stream : TokenStream) :
    stream.toList.length = stream.tokens.length + 1 := by
  simp [toList]

/-- The tokens left at an index are those from it to the end. -/
theorem left_cursorAt (index : Nat) :
    (stream.cursorAt index).left = stream.tokens.length - index :=
  List.length_drop

/-- The token that is so many places after the cursor, or the one that ends the stream. -/
theorem getElem?_clamped (stream : TokenStream) (index offset : Nat) :
    stream.toList[min (index + offset) (stream.toList.length - 1)]? =
      some ((stream.cursorAt index).pending.getD offset stream.endOfFile) := by
  simp only [toList, cursorAt, List.length_append, List.length_singleton,
    List.getD_eq_getElem?_getD, List.getElem?_drop]
  rcases Nat.lt_or_ge (index + offset) stream.tokens.length with lt | ge
  · rw [Nat.min_eq_left (by omega), List.getElem?_append_left lt, List.getElem?_eq_getElem lt]
    rfl
  · rw [Nat.min_eq_right (by omega), List.getElem?_eq_none ge, Nat.add_sub_cancel]
    simp

/-- The token at an index in range stands at its cursor. -/
theorem getElem?_toList (le : index ≤ stream.tokens.length) :
    stream.toList[index]? = some (stream.cursorAt index).peek := by
  have clamped := stream.getElem?_clamped index 0
  rw [Nat.add_zero, toList, List.length_append, List.length_singleton, Nat.add_sub_cancel,
    Nat.min_eq_left le] at clamped
  rw [toList, clamped, Cursor.peek]
  simp [cursorAt, List.headD_eq_head?_getD, List.head?_eq_getElem?]

theorem getElem?_second (stream : TokenStream) (index : Nat) :
    stream.toList[min (index + 1) (stream.toList.length - 1)]? =
      some (stream.cursorAt index).second := by
  rw [getElem?_clamped, Cursor.second]
  simp [cursorAt, List.headD_eq_head?_getD, List.head?_eq_getElem?]

/-- What is to be read at an index is the token there, then what is to be read behind it. -/
theorem pending_cursorAt (lt : index < stream.tokens.length) :
    (stream.cursorAt index).pending =
      (stream.cursorAt index).peek :: (stream.cursorAt (index + 1)).pending := by
  simp only [cursorAt, Cursor.peek]
  rw [List.drop_eq_getElem_cons lt]
  rfl

/-- The token before an index in range has been read last. -/
theorem previous_cursorAt (lt : index < stream.tokens.length) :
    (stream.cursorAt (index + 1)).previous = some (stream.cursorAt index).peek := by
  have token := pending_cursorAt lt
  have taken : stream.tokens.take (index + 1) =
      stream.tokens.take index ++ [(stream.cursorAt index).peek] := by
    rw [List.take_add, show stream.tokens.drop index = (stream.cursorAt index).pending from rfl,
      token]
    rfl
  rw [cursorAt, taken, List.getLast?_concat]

/-- Only the last token ends a source. -/
theorem Ended.kind_eq_iff (ended : stream.Ended) (le : index ≤ stream.tokens.length) :
    (stream.cursorAt index).peek.kind = .endOfFile ↔ index = stream.tokens.length := by
  constructor
  · intro kind
    by_contra ne
    have token := pending_cursorAt (Nat.lt_of_le_of_ne le ne)
    have member : (stream.cursorAt index).peek ∈ stream.tokens.drop index := by
      rw [show stream.tokens.drop index = (stream.cursorAt index).pending from rfl, token]
      exact List.mem_cons_self
    exact ended.only _ (List.mem_of_mem_drop member) kind
  · rintro rfl
    rw [Cursor.peek_of_pending_eq_nil (by simp [cursorAt])]
    exact ended.last

/-- Only the place behind all tokens shows the end of the file. -/
theorem Ended.lt_of_kind (ended : stream.Ended) (le : index ≤ stream.tokens.length)
    (kind : (stream.cursorAt index).peek.kind ≠ .endOfFile) : index < stream.tokens.length :=
  Nat.lt_of_le_of_ne le fun eq => kind ((ended.kind_eq_iff le).2 eq)

end TokenStream

open TokenStream

/-- Reading goes from one index to a later one that is still in range. -/
theorem Cursor.Reads.exists_cursorAt {stream : TokenStream} {index : Nat} {tokens : List Token}
    {next : Cursor} (le : index ≤ stream.tokens.length)
    (reads : (stream.cursorAt index).Reads tokens next) :
    ∃ later, index ≤ later ∧ later ≤ stream.tokens.length ∧ next = stream.cursorAt later := by
  obtain ⟨passed, pending, previous⟩ := reads.moved
  have length : stream.tokens.length - index = passed.length + next.pending.length := by
    rw [← left_cursorAt, Cursor.left, pending, List.length_append]
  have taken : next = (stream.cursorAt index).skip passed.length := by
    obtain ⟨_, _, _⟩ := next
    simp only [skip, take, Cursor.mk.injEq]
    rw [pending, List.take_left, List.drop_left]
    exact ⟨previous, rfl, reads.endOfFile⟩
  rw [skip_cursorAt] at taken
  exact ⟨index + passed.length, by omega, by omega, taken⟩

/-! ### The look-aheads as loops over an index -/

namespace Indexed

variable (tokens : List Token)

/-- The token before the index. Below the first token there is none. -/
def before (index : Nat) : Option Token :=
  if index = 0 then none else tokens[index - 1]?

/-- Some line ends before the token. -/
def lineBreakBefore (index : Nat) : Option Bool := do
  let token ← tokens[index]?
  if index = 0 then return token.leading.containsNewline
  else
    let last ← before tokens index
    return token.leading.containsNewline || last.trailing.containsNewline

/-- Nothing stands between the token and the one before it. -/
def adjacentBefore (index : Nat) : Option Bool := do
  let token ← tokens[index]?
  if index = 0 then return false
  else
    let last ← before tokens index
    return token.leading.isEmpty && last.trailing.isEmpty

/-- The token at the index, or the last one if the index is too large. -/
def clamped (index : Nat) : Option Token :=
  tokens[min index (tokens.length - 1)]?

/-- The index after the delimiter that closes the open ones, if there is such a delimiter. -/
def groupEnd : Nat → Nat → Nat → Option (Option Nat)
  | 0, _, _ => none
  | fuel + 1, depth, index => do
    let token ← tokens[index]?
    if token.kind == .endOfFile then return none
    else if token.kind.isOpening then groupEnd fuel (depth + 1) (index + 1)
    else if token.kind.isClosing then
      if depth - 1 = 0 then return some (index + 1) else groupEnd fuel (depth - 1) (index + 1)
    else groupEnd fuel depth (index + 1)

/-- The index after a group attached to the token before, or the same index without one. -/
def attachedGroupEnd (index : Nat) : Option (Option Nat) := do
  let token ← tokens[index]?
  let attached ← adjacentBefore tokens index
  if token.kind == .leftParen && attached then groupEnd tokens tokens.length 0 index
  else return some index

/-- The index after the attributes, if they are well formed. -/
def attributesEnd : Nat → Nat → Option (Option Nat)
  | 0, _ => none
  | fuel + 1, index => do
    let sign ← tokens[index]?
    if sign.kind == .atSign then
      let name ← tokens[index + 1]?
      if name.kind == .identifier then
        match ← attachedGroupEnd tokens (index + 2) with
        | some next => attributesEnd fuel next
        | none => return none
      else return none
    else return some index

/-- A declaration begins with the token. -/
def declares (index : Nat) : Option Bool := do
  let token ← clamped tokens index
  let next ← clamped tokens (index + 1)
  return isDeclarationKeyword token next

/-- The token is a modifier. -/
def isModifier (index : Nat) : Option Bool := do
  let token ← tokens[index]?
  let next ← clamped tokens (index + 1)
  let nextDeclares ← declares tokens (index + 1)
  return token.kind == .identifier && modifierWords.contains token.text &&
    (token.text != "class" || nextDeclares ||
      next.text != "class" && modifierWords.contains next.text)

/-- The index after the modifiers, if they are well formed. -/
def modifiersEnd : Nat → Nat → Option (Option Nat)
  | 0, _ => none
  | fuel + 1, index => do
    if ← isModifier tokens index then
      match ← attachedGroupEnd tokens (index + 1) with
      | some next => modifiersEnd fuel next
      | none => return none
    else return some index

/-- The index of the keyword of the declaration that begins here. -/
def declarationKeyword (index : Nat) : Option (Option Nat) := do
  match ← attributesEnd tokens tokens.length index with
  | none => return none
  | some index =>
    match ← modifiersEnd tokens tokens.length index with
    | none => return none
    | some index => return if ← declares tokens index then some index else none

/-- The index after a parameter list without parentheses. -/
def shorthandEnd : Nat → Nat → Option Nat
  | 0, _ => none
  | fuel + 1, index => do
    let token ← tokens[index]?
    if token.kind == .identifier && token.text != "in" then
      let next ← tokens[index + 1]?
      if next.kind == .comma then shorthandEnd fuel (index + 2) else return index + 1
    else return index

/-- The index of the keyword `in`, from after the parameters of a signature on. -/
def effectsEnd : Nat → Bool → Nat → Option (Option Nat)
  | 0, _, _ => none
  | fuel + 1, inResult, index => do
    let token ← tokens[index]?
    let last ← before tokens index
    let lineBreak ← lineBreakBefore tokens index
    if token.isKeyword "in" then return some index
    else if lineBreak && token.kind != .arrow then return none
    else match token.kind with
      | .identifier =>
        if ["async", "throws", "rethrows"].contains token.text || inResult then
          effectsEnd fuel inResult (index + 1)
        else return none
      | .period => if inResult then effectsEnd fuel inResult (index + 1) else return none
      | .arrow => effectsEnd fuel true (index + 1)
      | .operator =>
        if inResult && token.consistsOf "<>?!&" then effectsEnd fuel inResult (index + 1)
        else return none
      | .leftParen | .leftBracket =>
        if inResult || last.isKeyword "throws" then
          match ← groupEnd tokens tokens.length 0 index with
          | some next => effectsEnd fuel inResult next
          | none => return none
        else return none
      | _ => return none

/-- The index after the capture list that may begin here. -/
def capturesEnd (index : Nat) : Option (Option Nat) := do
  let token ← tokens[index]?
  if token.kind == .leftBracket then groupEnd tokens tokens.length 0 index else return some index

/-- The index after the parameters that may begin here. -/
def parametersEnd (index : Nat) : Option (Option Nat) := do
  let token ← tokens[index]?
  if token.kind == .leftParen then groupEnd tokens tokens.length 0 index
  else some <$> shorthandEnd tokens tokens.length index

/-- The index of the keyword `in` that ends the signature of the closure just opened. -/
def closureKeyword (index : Nat) : Option (Option Nat) := do
  match ← capturesEnd tokens index with
  | none => return none
  | some index =>
    match ← parametersEnd tokens index with
    | none => return none
    | some index => effectsEnd tokens tokens.length false index

/-- The index after the bracket that closes a generic argument list, provided a call or a member
access follows directly. -/
def genericEnd (start : Nat) : Nat → Int → Nat → Option (Option Nat)
  | 0, _, _ => none
  | fuel + 1, depth, index => do
    let token ← tokens[index]?
    let lineBreak ← lineBreakBefore tokens index
    if start < index && lineBreak then return none
    else if token.kind == .operator then
      if token.consistsOf "<>?!&" then
        let depth := depth + token.angleDepth
        if depth = 0 then
          let next ← tokens[index + 1]?
          let attached ← adjacentBefore tokens (index + 1)
          return if (next.kind == .leftParen || next.kind == .period) && attached then
            some (index + 1) else none
        else if depth < 0 then return none
        else genericEnd start fuel depth (index + 1)
      else return none
    else if Cursor.isGenericArgument token.kind then genericEnd start fuel depth (index + 1)
    else return none

end Indexed

/-! ### Trivia and words at an index -/

section

variable {stream : TokenStream} {index : Nat}

/-- The token before the next index is the one read at this index. -/
theorem before_eq (le : index ≤ stream.tokens.length) :
    Indexed.before stream.toList (index + 1) = some (stream.cursorAt index).peek := by
  rw [Indexed.before, if_neg (Nat.succ_ne_zero index), Nat.add_sub_cancel, getElem?_toList le]

/-- The indexed test for a line break is in range, and answers as the reading does. -/
theorem lineBreakBefore_eq (le : index ≤ stream.tokens.length) :
    Indexed.lineBreakBefore stream.toList index = some (stream.cursorAt index).atNewLine := by
  cases index with
  | zero =>
    rw [Indexed.lineBreakBefore, getElem?_toList le]
    simp [Cursor.atNewLine, lineBreakBetween, cursorAt]
  | succ index =>
    rw [Indexed.lineBreakBefore, getElem?_toList le]
    simp [before_eq (Nat.le_of_lt le), Cursor.atNewLine, lineBreakBetween, previous_cursorAt le]

/-- The indexed test for touching tokens is in range, and answers as the reading does. -/
theorem adjacentBefore_eq (le : index ≤ stream.tokens.length) :
    Indexed.adjacentBefore stream.toList index = some (stream.cursorAt index).atAdjacent := by
  cases index with
  | zero =>
    rw [Indexed.adjacentBefore, getElem?_toList le]
    simp [Cursor.atAdjacent, adjacent, cursorAt]
  | succ index =>
    rw [Indexed.adjacentBefore, getElem?_toList le]
    simp [before_eq (Nat.le_of_lt le), Cursor.atAdjacent, adjacent, previous_cursorAt le]

/-- The clamped access is in range, and finds the token that is read next. -/
theorem clamped_eq (le : index ≤ stream.tokens.length) :
    Indexed.clamped stream.toList index = some (stream.cursorAt index).peek := by
  have last : index ≤ stream.toList.length - 1 := by simpa [toList] using le
  rw [Indexed.clamped, Nat.min_eq_left last, getElem?_toList le]

/-- The indexed test for a declaration keyword is in range, and answers as the reading does. -/
theorem declares_eq (le : index ≤ stream.tokens.length) :
    Indexed.declares stream.toList index =
      some (isDeclarationKeyword (stream.cursorAt index).peek (stream.cursorAt index).second) := by
  rw [Indexed.declares, clamped_eq le, Indexed.clamped, getElem?_second]
  rfl

/-- The indexed test for a modifier is in range, and answers as the reading does. -/
theorem isModifier_eq (le : index ≤ stream.tokens.length) :
    Indexed.isModifier stream.toList index = some (stream.cursorAt index).atModifier := by
  have next := stream.getElem?_second index
  have afterNext := stream.getElem?_clamped index 2
  rw [Indexed.isModifier, getElem?_toList le, Indexed.declares, Indexed.clamped, Indexed.clamped,
    next, show index + 1 + 1 = index + 2 from rfl, afterNext]
  rfl

end

/-! ### The same place is found -/

/-- A loop over an index stays in range and finds the place of the look-ahead, at the given index or
later. -/
def TokenStream.Tracks (stream : TokenStream) (low : Nat) (probe : Option (Option Nat))
    (answer : Option Cursor) : Prop :=
  ∃ found, probe = some found ∧ answer = found.map stream.cursorAt ∧
    ∀ index ∈ found, low ≤ index ∧ index ≤ stream.tokens.length

namespace TokenStream.Tracks

variable {stream : TokenStream} {low index : Nat}

theorem absent : stream.Tracks low (some none) none :=
  ⟨none, rfl, rfl, by simp⟩

theorem found (ge : low ≤ index) (le : index ≤ stream.tokens.length) :
    stream.Tracks low (some (some index)) (some (stream.cursorAt index)) :=
  ⟨some index, rfl, rfl, by simp [ge, le]⟩

/-- A bound from below may be lowered. -/
theorem mono {lower : Nat} {probe : Option (Option Nat)} {answer : Option Cursor}
    (tracks : stream.Tracks low probe answer) (le : lower ≤ low) :
    stream.Tracks lower probe answer := by
  obtain ⟨found, hit, same, bounds⟩ := tracks
  refine ⟨found, hit, same, fun index member => ?_⟩
  have bound := bounds index member
  omega

/-- A look-ahead that goes on from the place that another one finds. -/
theorem andThen {probe result : Option (Option Nat)} {answer last : Option Cursor} {lower : Nat}
    (tracks : stream.Tracks low probe answer)
    (missed : probe = some none → answer = none → stream.Tracks lower result last)
    (hit : ∀ index, low ≤ index → index ≤ stream.tokens.length → probe = some (some index) →
      answer = some (stream.cursorAt index) → stream.Tracks lower result last) :
    stream.Tracks lower result last := by
  obtain ⟨found, probed, answered, bounds⟩ := tracks
  cases found with
  | none => exact missed probed answered
  | some index =>
    obtain ⟨ge, le⟩ := bounds index rfl
    exact hit index ge le probed answered

end TokenStream.Tracks

/-! ### Groups -/

/-- A closing bracket is found among the tokens that were searched. -/
theorem closing?_le {depth length : Nat} {tokens : List Token}
    (found : closing? depth tokens = some length) : length ≤ tokens.length := by
  induction tokens generalizing depth length with
  | nil =>
    cases depth with
    | zero => simp_all [closing?]
    | succ depth => simp [closing?] at found
  | cons token later ih =>
    cases depth with
    | zero =>
      obtain rfl : 0 = length := by simpa [closing?] using found
      exact Nat.zero_le _
    | succ depth =>
      have step {depth : Nat} (found : (closing? depth later).map (· + 1) = some length) :
          length ≤ (token :: later).length := by
        obtain ⟨rest, restFound, rfl⟩ := Option.map_eq_some_iff.1 found
        simpa using ih restFound
      rw [closing?] at found
      split at found
      · exact step found
      split at found <;> exact step found

/-- A run that takes a token more ends where the run after that token ends. -/
theorem map_succ_map_add (index : Nat) (run : Option Nat) :
    (run.map (· + 1)).map (index + ·) = run.map (index + 1 + ·) := by
  cases run with
  | none => rfl
  | some length => simp; omega

/-- The end of a group is looked for in range, and stops at the end of the stream. -/
theorem groupEnd_eq {stream : TokenStream} (ended : stream.Ended) {fuel index : Nat}
    (le : index ≤ stream.tokens.length) (enough : stream.tokens.length < index + fuel)
    (depth : Nat) :
    Indexed.groupEnd stream.toList fuel (depth + 1) index =
      some ((closing? (depth + 1) (stream.cursorAt index).pending).map (index + ·)) := by
  induction fuel generalizing index depth with
  | zero => omega
  | succ fuel ih =>
    rw [Indexed.groupEnd, getElem?_toList le]
    -- The token that ends the stream stops the loop; before any other one there is a next index.
    by_cases atEnd : (stream.cursorAt index).peek.kind = .endOfFile
    · have done : (stream.cursorAt index).pending = [] := by
        simp [cursorAt, (ended.kind_eq_iff le).1 atEnd]
      simp [atEnd, done, closing?]
    have lt := ended.lt_of_kind le atEnd
    have later (depth : Nat) := ih (show index + 1 ≤ _ from lt) (by omega) depth
    rw [pending_cursorAt lt, closing?]
    simp only [Option.bind_eq_bind, Option.bind_some, beq_iff_eq, atEnd, if_false]
    by_cases opening : (stream.cursorAt index).peek.kind.isOpening
    · rw [if_pos opening, if_pos opening, later, map_succ_map_add]
    rw [if_neg opening, if_neg opening]
    by_cases closing : (stream.cursorAt index).peek.kind.isClosing
    · rw [if_pos closing, if_pos closing, map_succ_map_add]
      cases depth with
      | zero => simp [closing?]
      | succ depth => rw [if_neg (by omega), Nat.add_sub_cancel, later]
    · rw [if_neg closing, if_neg closing, later, map_succ_map_add]

section

variable {stream : TokenStream} {index : Nat}

/-- The group that begins with an opening delimiter. -/
theorem tracks_groupEnd (ended : stream.Ended) (le : index ≤ stream.tokens.length)
    (opening : (stream.cursorAt index).peek.kind.isOpening = true) :
    stream.Tracks (index + 1) (Indexed.groupEnd stream.toList stream.toList.length 0 index)
      (stream.cursorAt index).afterGroup? := by
  have other : (stream.cursorAt index).peek.kind ≠ .endOfFile := by
    intro kind
    rw [kind] at opening
    cases opening
  have lt := ended.lt_of_kind le other
  have length := stream.length_toList
  have first : Indexed.groupEnd stream.toList stream.toList.length 0 index =
      Indexed.groupEnd stream.toList stream.tokens.length (0 + 1) (index + 1) := by
    rw [length, Indexed.groupEnd, getElem?_toList le]
    simp [other, opening]
  have tail : (stream.cursorAt index).pending.tail = (stream.cursorAt (index + 1)).pending := by
    rw [pending_cursorAt lt, List.tail_cons]
  rw [first, groupEnd_eq ended lt (by omega), Cursor.afterGroup?, tail]
  cases found : closing? 1 (stream.cursorAt (index + 1)).pending with
  | none => exact .absent
  | some run =>
    have within := closing?_le found
    rw [← Cursor.left, left_cursorAt] at within
    simp only [Option.map_some, skip_cursorAt]
    rw [← Nat.add_assoc]
    exact .found (by omega) (by omega)

/-- The scan over a group attached to a name stays in range, and ends where the reading of it does.
-/
theorem tracks_attachedGroupEnd (ended : stream.Ended) (le : index ≤ stream.tokens.length) :
    stream.Tracks index (Indexed.attachedGroupEnd stream.toList index)
      (stream.cursorAt index).afterAttachedGroup? := by
  rw [Indexed.attachedGroupEnd, getElem?_toList le, adjacentBefore_eq le,
    Cursor.afterAttachedGroup?, Cursor.atAttachedParen, Cursor.isAt]
  simp only [Option.bind_eq_bind, Option.bind_some]
  split
  · next attached =>
    rw [Bool.and_eq_true, beq_iff_eq] at attached
    exact (tracks_groupEnd ended le (by rw [attached.1]; rfl)).mono (by omega)
  · exact .found (Nat.le_refl _) le

/-! ### Declarations -/

/-- The scan over attributes stays in range, and ends where the reading of them does. -/
theorem tracks_attributesEnd (ended : stream.Ended) (fuel more : Nat)
    (le : index ≤ stream.tokens.length) (enough : stream.tokens.length < index + fuel)
    (enough' : stream.tokens.length ≤ index + more) :
    stream.Tracks index (Indexed.attributesEnd stream.toList fuel index)
      (Cursor.afterAttributes? more (stream.cursorAt index)) := by
  induction fuel generalizing index more with
  | zero => omega
  | succ fuel ih =>
    rw [Indexed.attributesEnd, getElem?_toList le]
    simp only [Option.bind_eq_bind, Option.bind_some]
    by_cases sign : (stream.cursorAt index).peek.kind = .atSign
    · -- A sign does not end the stream, so the token after it is in range. If that is a name, it
      -- does not end the stream either, and the index after it is in range too.
      have lt := ended.lt_of_kind le (by simp [sign])
      have second : (stream.cursorAt index).second = (stream.cursorAt (index + 1)).peek := by
        rw [Cursor.second, pending_cursorAt lt]
        rfl
      obtain ⟨more, rfl⟩ : ∃ less, more = less + 1 := ⟨more - 1, by omega⟩
      rw [Cursor.afterAttributes?, Cursor.isAt, if_pos (by simp [sign]), if_pos (by simp [sign]),
        getElem?_toList lt, second]
      simp only [Option.bind_some]
      split
      · next name =>
        have le : index + 2 ≤ stream.tokens.length :=
          ended.lt_of_kind lt (by simp [beq_iff_eq.1 name])
        rw [skip_cursorAt]
        refine (tracks_attachedGroupEnd ended le).andThen ?_ ?_
        · intro probe answer
          rw [probe, answer]
          exact .absent
        · intro next ge le probe answer
          rw [probe, answer]
          exact (ih _ le (by omega) (by omega)).mono (by omega)
      · exact .absent
    · rw [if_neg (by simpa using sign)]
      cases more with
      | zero => exact .found (Nat.le_refl _) le
      | succ more =>
        rw [Cursor.afterAttributes?, Cursor.isAt, if_neg (by simpa using sign)]
        exact .found (Nat.le_refl _) le

/-- The scan over modifiers stays in range, and ends where the reading of them does. -/
theorem tracks_modifiersEnd (ended : stream.Ended) (fuel more : Nat)
    (le : index ≤ stream.tokens.length) (enough : stream.tokens.length < index + fuel)
    (enough' : stream.tokens.length ≤ index + more) :
    stream.Tracks index (Indexed.modifiersEnd stream.toList fuel index)
      (Cursor.afterModifiers? more (stream.cursorAt index)) := by
  induction fuel generalizing index more with
  | zero => omega
  | succ fuel ih =>
    rw [Indexed.modifiersEnd, isModifier_eq le]
    simp only [Option.bind_eq_bind, Option.bind_some]
    cases modifier : (stream.cursorAt index).atModifier with
    | true =>
      have kind : (stream.cursorAt index).peek.kind = .identifier := by
        simp only [Cursor.atModifier, Bool.and_eq_true, beq_iff_eq] at modifier
        exact modifier.1.1
      have le : index + 1 ≤ stream.tokens.length := ended.lt_of_kind le (by simp [kind])
      obtain ⟨more, rfl⟩ : ∃ less, more = less + 1 := ⟨more - 1, by omega⟩
      rw [Cursor.afterModifiers?, if_pos modifier, skip_cursorAt]
      refine (tracks_attachedGroupEnd ended le).andThen ?_ ?_
      · intro probe answer
        rw [probe, answer]
        exact .absent
      · intro next ge le probe answer
        rw [probe, answer]
        exact (ih _ le (by omega) (by omega)).mono (by omega)
    | false =>
      cases more with
      | zero => exact .found (Nat.le_refl _) le
      | succ more =>
        rw [Cursor.afterModifiers?, modifier]
        exact .found (Nat.le_refl _) le

/-- The look-ahead for a declaration stays in range. -/
theorem tracks_declarationKeyword (ended : stream.Ended) (le : index ≤ stream.tokens.length) :
    stream.Tracks index (Indexed.declarationKeyword stream.toList index)
      (stream.cursorAt index).declarationKeyword? := by
  have length := stream.length_toList
  rw [Indexed.declarationKeyword, Cursor.declarationKeyword?]
  refine (tracks_attributesEnd ended stream.toList.length (stream.cursorAt index).left le
    (by omega) (by rw [left_cursorAt]; omega)).andThen ?_ ?_
  · intro probe answer
    rw [probe, answer]
    exact .absent
  · intro next ge le probe answer
    rw [probe, answer]
    refine (tracks_modifiersEnd ended stream.toList.length (stream.cursorAt next).left le
      (by omega) (by rw [left_cursorAt]; omega)).andThen ?_ ?_
    · intro probe answer
      simp only [Option.bind_eq_bind, Option.bind_some, probe, answer]
      exact .absent
    · intro last ge le probe answer
      simp only [Option.bind_eq_bind, Option.bind_some, probe, answer, declares_eq le]
      split
      · exact .found (by omega) le
      · exact .absent

/-! ### Closures -/

/-- The scan over parameters in shorthand stays in range, and is as long as the reading of them. -/
theorem shorthandEnd_eq (ended : stream.Ended) (fuel : Nat) (le : index ≤ stream.tokens.length)
    (enough : stream.tokens.length < index + fuel) :
    Indexed.shorthandEnd stream.toList fuel index =
        some (index + Cursor.shorthandRun (stream.cursorAt index).pending) ∧
      index + Cursor.shorthandRun (stream.cursorAt index).pending ≤ stream.tokens.length := by
  induction fuel generalizing index with
  | zero => omega
  | succ fuel ih =>
    rw [Indexed.shorthandEnd, getElem?_toList le]
    rcases Nat.lt_or_eq_of_le le with lt | rfl
    · rw [getElem?_toList lt, pending_cursorAt lt]
      simp only [Option.bind_eq_bind, Option.bind_some]
      rcases Nat.lt_or_eq_of_le (show index + 1 ≤ _ from lt) with lt' | last
      · have later := ih (show index + 2 ≤ _ from lt') (by omega)
        rw [pending_cursorAt lt', Cursor.shorthandRun]
        split
        · split
          · rw [later.1, show index + 1 + 1 = index + 2 from rfl]
            exact ⟨by simp; omega, by omega⟩
          · exact ⟨rfl, by omega⟩
        · exact ⟨rfl, by omega⟩
      · -- The last token before the end has no comma after it.
        have kind := (ended.kind_eq_iff lt).2 last
        have none : (stream.cursorAt (index + 1)).pending = [] := by simp [cursorAt, last]
        rw [kind, none, Cursor.shorthandRun]
        split
        · exact ⟨rfl, by omega⟩
        · exact ⟨rfl, by omega⟩
    · -- At the end itself no name stands, so nothing after it is looked at.
      have kind := (ended.kind_eq_iff le).2 rfl
      have none : (stream.cursorAt stream.tokens.length).pending = [] := by simp [cursorAt]
      rw [none]
      simp [kind, Cursor.shorthandRun]

/-- The scan over effects and a result type stays in range, and ends where the reading of them does.
-/
theorem tracks_effectsEnd (ended : stream.Ended) (fuel more : Nat) (inResult : Bool)
    (pos : 0 < index) (le : index ≤ stream.tokens.length)
    (enough : stream.tokens.length < index + fuel) (enough' : stream.tokens.length < index + more) :
    stream.Tracks index (Indexed.effectsEnd stream.toList fuel inResult index)
      (Cursor.effectsEnd? inResult more (stream.cursorAt index)) := by
  induction fuel generalizing index more inResult with
  | zero => omega
  | succ fuel ih =>
    obtain ⟨more, rfl⟩ : ∃ less, more = less + 1 := ⟨more - 1, by omega⟩
    -- A brace has been read before, so there is a token before the index to look back at.
    obtain ⟨before, rfl⟩ : ∃ before, index = before + 1 := ⟨index - 1, by omega⟩
    have next (inResult : Bool) (other : (stream.cursorAt (before + 1)).peek.kind ≠ .endOfFile) :
        stream.Tracks (before + 1) (Indexed.effectsEnd stream.toList fuel inResult (before + 1 + 1))
          (Cursor.effectsEnd? inResult more ((stream.cursorAt (before + 1)).skip 1)) := by
      have lt := ended.lt_of_kind le other
      rw [skip_cursorAt]
      exact (ih more inResult (by omega) lt (by omega) (by omega)).mono (by omega)
    rw [Indexed.effectsEnd, Cursor.effectsEnd?, getElem?_toList le, lineBreakBefore_eq le,
      before_eq (Nat.le_of_lt le), previous_cursorAt le]
    simp only [Option.bind_eq_bind, Option.bind_some, Option.any_some]
    split
    · exact .found (Nat.le_refl _) le
    split
    · exact .absent
    cases kind : (stream.cursorAt (before + 1)).peek.kind with
    | identifier =>
      simp only
      split
      · exact next inResult (by simp [kind])
      · exact .absent
    | period =>
      simp only
      split
      · exact next inResult (by simp [kind])
      · exact .absent
    | arrow => exact next true (by simp [kind])
    | operator =>
      simp only
      split
      · exact next inResult (by simp [kind])
      · exact .absent
    | leftParen | leftBracket =>
      simp only
      split
      · refine (tracks_groupEnd ended le (by rw [kind]; rfl)).andThen ?_ ?_
        · intro probe answer
          rw [probe, answer]
          exact .absent
        · intro last ge le probe answer
          rw [probe, answer]
          exact (ih more inResult (by omega) le (by omega) (by omega)).mono (by omega)
      · exact .absent
    | _ => exact .absent

/-- The scan over a capture list stays in range, and ends where the reading of it does. -/
theorem tracks_capturesEnd (ended : stream.Ended) (le : index ≤ stream.tokens.length) :
    stream.Tracks index (Indexed.capturesEnd stream.toList index)
      (stream.cursorAt index).afterCaptureList? := by
  rw [Indexed.capturesEnd, getElem?_toList le, Cursor.afterCaptureList?, Cursor.isAt]
  simp only [Option.bind_eq_bind, Option.bind_some]
  split
  · next bracket =>
    have opening : (stream.cursorAt index).peek.kind.isOpening := by rw [beq_iff_eq.1 bracket]; rfl
    exact (tracks_groupEnd ended le opening).mono (by omega)
  · exact .found (Nat.le_refl _) le

/-- The scan over closure parameters stays in range, and ends where the reading of them does. -/
theorem tracks_parametersEnd (ended : stream.Ended) (le : index ≤ stream.tokens.length) :
    stream.Tracks index (Indexed.parametersEnd stream.toList index)
      (stream.cursorAt index).afterParameters? := by
  have length := stream.length_toList
  obtain ⟨shorthand, within⟩ := shorthandEnd_eq ended stream.toList.length le (by omega)
  rw [Indexed.parametersEnd, getElem?_toList le, Cursor.afterParameters?, Cursor.isAt]
  simp only [Option.bind_eq_bind, Option.bind_some, shorthand, skip_cursorAt]
  split
  · next paren =>
    have opening : (stream.cursorAt index).peek.kind.isOpening := by rw [beq_iff_eq.1 paren]; rfl
    exact (tracks_groupEnd ended le opening).mono (by omega)
  · exact .found (Nat.le_add_right _ _) within

/-- The look-ahead for the signature of a closure stays in range. It begins after the brace that
opens the closure. -/
theorem tracks_closureKeyword (ended : stream.Ended) (lt : index < stream.tokens.length) :
    stream.Tracks (index + 1) (Indexed.closureKeyword stream.toList (index + 1))
      (stream.cursorAt (index + 1)).signatureEnd? := by
  have length := stream.length_toList
  rw [Indexed.closureKeyword, Cursor.signatureEnd?]
  refine (tracks_capturesEnd ended lt).andThen ?_ ?_
  · intro probe answer
    rw [probe, answer]
    exact .absent
  · intro next ge le probe answer
    rw [probe, answer]
    refine (tracks_parametersEnd ended le).andThen ?_ ?_
    · intro probe answer
      simp only [Option.bind_eq_bind, Option.bind_some, probe, answer]
      exact .absent
    · intro last ge le probe answer
      simp only [Option.bind_eq_bind, Option.bind_some, probe, answer]
      refine (tracks_effectsEnd ended _ _ false (by omega) le (by omega) ?_).mono (by omega)
      rw [← Cursor.left, left_cursorAt]
      omega

/-! ### Generic arguments -/

/-- The look-ahead for generic arguments stays in range, also one token past their end. -/
theorem genericEnd_eq (ended : stream.Ended) {start : Nat} (fuel : Nat) (depth : Int)
    (ge : start ≤ index) (le : index ≤ stream.tokens.length)
    (enough : stream.tokens.length < index + fuel) :
    Indexed.genericEnd stream.toList start fuel depth index =
      some ((Cursor.genericRun? stream.endOfFile (decide (start < index)) depth
        (stream.cursorAt index).previous (stream.cursorAt index).pending).map (index + ·)) := by
  induction fuel generalizing index depth with
  | zero => omega
  | succ fuel ih =>
    rw [Indexed.genericEnd, getElem?_toList le, lineBreakBefore_eq le]
    simp only [Option.bind_eq_bind, Option.bind_some]
    by_cases atEnd : (stream.cursorAt index).peek.kind = .endOfFile
    · have done : (stream.cursorAt index).pending = [] := by
        simp [cursorAt, (ended.kind_eq_iff le).1 atEnd]
      simp [atEnd, done, Cursor.genericRun?, Cursor.isGenericArgument]
    have lt := ended.lt_of_kind le atEnd
    have later (depth : Int) := ih depth (show start ≤ index + 1 by omega) lt (by omega)
    have begun : decide (start < index + 1) = true := by simpa using Nat.lt_succ_of_le ge
    rw [begun, previous_cursorAt lt] at later
    rw [pending_cursorAt lt, Cursor.genericRun?, Cursor.atNewLine]
    split
    · rfl
    split
    · split
      · -- The bracket that closes the list is no end of the stream, so a token follows it.
        rw [getElem?_toList lt, adjacentBefore_eq lt, Cursor.atAdjacent, previous_cursorAt lt]
        have next : (stream.cursorAt (index + 1)).pending.headD stream.endOfFile =
            (stream.cursorAt (index + 1)).peek := rfl
        simp only [Option.bind_some, next]
        split
        · split
          · rfl
          · rfl
        split
        · rfl
        · rw [later, map_succ_map_add]
      · rfl
    split
    · rw [later, map_succ_map_add]
    · rfl

end

end SuiteMigration
