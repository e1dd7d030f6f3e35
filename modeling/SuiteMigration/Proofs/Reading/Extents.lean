import Mathlib.Tactic.Common
import SuiteMigration.Proofs.Reading.Echoes

/-!
# Runs in two places

How many tokens belong to a run is told from their words and from the line breaks between them. So at
cursors that are abreast runs are equally long, as long as they end on the way.

## Main definitions

* `Passage.Measures` - a run is equally long in both streams

## Main results

* `measures_typeRun`, `measures_signatureRun` and others - the runs of the grammar
* `Abreast.castRun_eq` - the type of a cast, which may go up to the end of the way
-/

namespace SuiteMigration

/-- A run that ends before the end of the way is equally long in both streams. -/
def Passage.Measures (passage : Passage) (length : Cursor → Nat) : Prop :=
  ∀ cursor cursor', Abreast passage cursor cursor' → length cursor + passage.stop.left < cursor.left →
    length cursor' = length cursor

variable {passage : Passage} {before before' token token' : Token} {tokens tokens' : List Token}
  {cursor cursor' next : Cursor}

/-! ### Groups -/

/-- A group that is closed in some tokens is closed in them whatever comes after. -/
theorem closing?_append {depth length : Nat} {tokens : List Token}
    (closed : closing? depth tokens = some length) (rest : List Token) :
    closing? depth (tokens ++ rest) = some length := by
  induction tokens generalizing depth length with
  | nil =>
    cases depth with
    | zero => simpa [closing?] using closed
    | succ depth => simp [closing?] at closed
  | cons token later ih =>
    cases depth with
    | zero => simpa [closing?] using closed
    | succ depth =>
      have step {depth : Nat} (inner : (closing? depth later).map (· + 1) = some length) :
          (closing? depth (later ++ rest)).map (· + 1) = some length := by
        obtain ⟨count, found, rfl⟩ := Option.map_eq_some_iff.1 inner
        rw [ih found, Option.map_some]
      rw [List.cons_append]
      rw [closing?] at closed ⊢
      split at closed
      · next opening => rw [if_pos opening]; exact step closed
      · next opening =>
        rw [if_neg opening]
        split at closed
        · next closing => rw [if_pos closing]; exact step closed
        · next closing => rw [if_neg closing]; exact step closed

/-- A group that is closed on the way is closed at the same place in the other stream. -/
theorem Echoes.closing?_eq (echoes : Echoes passage before tokens before' tokens') {depth length : Nat}
    {rest : List Token} (closed : closing? depth (tokens ++ rest) = some length)
    (within : length ≤ tokens.length) (rest' : List Token) :
    closing? depth (tokens' ++ rest') = some length := by
  induction echoes generalizing depth length with
  | nil =>
    obtain rfl := Nat.le_zero.1 within
    cases depth with
    | zero => simp [closing?]
    | succ depth =>
      exfalso
      rw [List.nil_append, closing?.eq_def] at closed
      grind [Option.map_eq_some_iff]
  | @cons _ _ _ _ later later' like _ _ ih =>
    cases depth with
    | zero => simpa [closing?] using closed
    | succ depth =>
      have step {depth : Nat} (inner : (closing? depth (later ++ rest)).map (· + 1) = some length) :
          (closing? depth (later' ++ rest')).map (· + 1) = some length := by
        obtain ⟨count, found, rfl⟩ := Option.map_eq_some_iff.1 inner
        rw [ih found (Nat.le_of_succ_le_succ within), Option.map_some]
      rw [List.cons_append, closing?] at closed ⊢
      rw [← like.kind]
      split at closed
      · next opening => rw [if_pos opening]; exact step closed
      · next opening =>
        rw [if_neg opening]
        split at closed
        · next closing => rw [if_pos closing]; exact step closed
        · next closing => rw [if_neg closing]; exact step closed

/-! ### Runs up to a token that stops them -/

/-- A run that a token of the way stops is equally long in the other stream, if tokens count and stop
by their words and by the line breaks between them. -/
theorem Echoes.runWhile_eq {change : Token → Int} {stops : Bool → Option Token → Token → Bool}
    (counts : ∀ token token' : Token, token.Like token' → change token = change token')
    (tests : ∀ begun {before before' token token' : Token}, before.Like before' → token.Like token' →
      lineBreakBetween (some before) token = lineBreakBetween (some before') token' →
      stops begun (some before) token = stops begun (some before') token')
    (echoes : Echoes passage before tokens before' tokens') (like : before.Like before')
    (rest rest' : List Token) (begun : Bool) (depth : Int)
    (within : runWhile change stops begun depth (some before) (tokens ++ rest) < tokens.length) :
    runWhile change stops begun depth (some before') (tokens' ++ rest') =
      runWhile change stops begun depth (some before) (tokens ++ rest) := by
  induction echoes generalizing begun depth with
  | nil => exact absurd within (Nat.not_lt_zero _)
  | cons like' gap _ ih =>
    rw [List.cons_append, runWhile] at within ⊢
    rw [List.cons_append, runWhile, ← tests begun like like' (lineBreakBetween_congr gap),
      ← counts _ _ like']
    split
    · rfl
    · next goes =>
      rw [if_neg goes, List.length_cons] at within
      rw [ih like' true _ (by omega)]

/-- A run has the same length in both streams when what it counts and where it stops depend only on
what both share. -/
theorem measures_runWhile {change : Token → Int} {stops : Bool → Option Token → Token → Bool}
    (begun : Bool) (depth : Int)
    (counts : ∀ token token' : Token, token.Like token' → change token = change token')
    (tests : ∀ begun {before before' token token' : Token}, before.Like before' → token.Like token' →
      lineBreakBetween (some before) token = lineBreakBetween (some before') token' →
      stops begun (some before) token = stops begun (some before') token') :
    passage.Measures fun cursor =>
      runWhile change stops begun depth cursor.previous cursor.pending := by
  rintro _ _ ⟨-, like, echoes⟩ within
  refine echoes.runWhile_eq counts tests like _ _ begun depth ?_
  simpa [Cursor.left] using within

theorem measures_restOfLine : passage.Measures Cursor.restOfLine :=
  measures_runWhile false 0 (fun _ _ _ => rfl) fun _ _ _ _ _ _ _ line => by simp only [line]

theorem measures_typeRun : passage.Measures Cursor.typeRun :=
  measures_runWhile false 0 (fun _ _ like => like.typeDepth) fun _ _ _ _ _ _ like line => by
    simp only [line, like.kind, like.isOperator, like.isKeyword]

theorem measures_patternRun : passage.Measures Cursor.patternRun :=
  measures_runWhile false 0 (fun _ _ like => like.delimiterDepth) fun _ _ _ _ _ _ like line => by
    simp only [line, like.kind, like.isOperator, like.isKeyword]

theorem measures_catchRun : passage.Measures Cursor.catchRun :=
  measures_runWhile false 0 (fun _ _ like => like.delimiterDepth) fun _ _ _ _ _ _ like _ => by
    simp only [like.kind]

theorem measures_inheritedRun : passage.Measures Cursor.inheritedRun :=
  measures_runWhile false 0 (fun _ _ like => like.typeDepth) fun _ _ _ _ _ _ like _ => by
    simp only [like.kind, like.isKeyword]

theorem measures_signatureRun : passage.Measures Cursor.signatureRun :=
  measures_runWhile false 0 (fun _ _ like => like.typeDepth) fun _ _ _ _ _ last like line => by
    simp only [line, like.kind, like.text, Option.any_some, last.kind]

theorem measures_strayRun : passage.Measures Cursor.strayRun :=
  measures_runWhile false 0 (fun _ _ like => like.delimiterDepth) fun _ _ _ _ _ _ like _ => by
    simp only [like.kind]

/-- Before the end of the way the next tokens have the same words. -/
theorem Abreast.peek_like (abreast : Abreast passage cursor cursor') (inside : passage.Inside cursor) :
    cursor.peek.Like cursor'.peek :=
  (Level.later abreast).peek_like inside

theorem measures_constraintRun : passage.Measures Cursor.constraintRun := by
  intro cursor cursor' abreast within
  have inside : passage.Inside cursor := Nat.lt_of_le_of_lt (Nat.le_add_left _ _) within
  have same : cursor.atKeyword "where" = cursor'.atKeyword "where" :=
    (abreast.peek_like inside).isKeyword "where"
  rw [Cursor.constraintRun] at within ⊢
  rw [Cursor.constraintRun, ← same]
  split
  · next keyword =>
    rw [if_pos keyword] at within
    refine measures_runWhile false 0 (fun _ _ _ => rfl) (fun _ _ _ _ _ _ like _ => ?_) _ _ abreast
      within
    simp only [like.kind]
  · rfl

/-- The first token of a declaration always belongs to it, so the run begins after this token. -/
theorem measures_rawDeclarationRun : passage.Measures Cursor.rawDeclarationRun := by
  rintro _ _ ⟨-, like, echoes⟩ within
  cases echoes with
  | nil =>
    simp only [Cursor.left, List.nil_append] at within
    omega
  | cons like' gap later =>
    simp only [Cursor.rawDeclarationRun, List.cons_append, Cursor.left, List.length_cons,
      List.length_append] at within ⊢
    rw [later.runWhile_eq (fun _ _ like => like.delimiterDepth)
      (fun _ _ _ _ _ _ like line => by simp only [line, like.kind]) like' passage.stop.pending
        passage.stop'.pending false 0 (by omega)]

/-! ### Runs in brackets -/

/-- Generic brackets that are closed on the way are closed at the same place in the other stream. -/
theorem Echoes.angleRun_eq (ends : passage.Ends)
    (echoes : Echoes passage before tokens before' tokens') (depth : Int)
    (within : angleRun depth (tokens ++ passage.stop.pending) ≤ tokens.length) :
    angleRun depth (tokens' ++ passage.stop'.pending) =
      angleRun depth (tokens ++ passage.stop.pending) := by
  obtain ⟨first, rest, stop_eq⟩ := List.exists_cons_of_ne_nil ends.rest
  induction echoes generalizing depth with
  | nil =>
    have pos := angleRun_pos depth first rest
    rw [List.nil_append, stop_eq, List.length_nil] at within
    omega
  | @cons _ _ token token' later later' like gap echoes ih =>
    rw [List.cons_append, List.length_cons] at within
    rw [List.cons_append, List.cons_append]
    rw [angleRun] at within ⊢
    rw [angleRun, ← like.angleDepth]
    cases echoes with
    | nil =>
      -- What comes after the way begins no block, so the clause is closed by its depth.
      have running : ((first.kind == .leftBrace || first.kind == .rightBrace) ||
          first.kind == .semicolon) = false := by
        have kind := ends.kind
        rw [Cursor.peek, stop_eq, List.headD_cons] at kind
        rcases kind with kind | kind <;> rw [kind] <;> rfl
      have closed : depth + token.angleDepth ≤ 0 := by
        by_contra unclosed
        have pos := angleRun_pos (depth + token.angleDepth) first rest
        rw [List.nil_append, stop_eq, List.head?_cons, Option.any_some, running, Bool.or_false,
          if_neg (by simpa using unclosed), List.length_nil] at within
        omega
      rw [decide_eq_true closed, Bool.true_or, Bool.true_or, if_pos rfl, if_pos rfl]
    | @cons _ _ next next' after after' nextLike nextGap echoes =>
      rw [List.cons_append, List.cons_append, List.head?_cons, List.head?_cons, Option.any_some,
        Option.any_some] at *
      rw [← nextLike.kind]
      split
      · rfl
      · next runs =>
        rw [if_neg runs] at within
        rw [ih _ (by omega)]

/-- The generic parameters that begin where both readings stand are as long in the other stream. -/
theorem Abreast.angles_eq (ends : passage.Ends) (abreast : Abreast passage cursor cursor')
    (within : cursor.angles + passage.stop.left ≤ cursor.left) : cursor'.angles = cursor.angles := by
  obtain ⟨-, -, echoes⟩ := abreast
  refine echoes.angleRun_eq ends 0 ?_
  simpa [Cursor.left, Cursor.angles] using within

theorem Passage.Ends.measures_genericParameters (ends : passage.Ends) :
    passage.Measures Cursor.genericParameters := by
  intro cursor cursor' abreast within
  have inside : passage.Inside cursor := Nat.lt_of_le_of_lt (Nat.le_add_left _ _) within
  rw [Cursor.genericParameters] at within ⊢
  rw [Cursor.genericParameters, ← (abreast.peek_like inside).opensAngle]
  split
  · next opens =>
    rw [if_pos opens] at within
    exact abreast.angles_eq ends (Nat.le_of_lt within)
  · rfl

/-- A group that is closed on the way is closed at the same place in the other stream. -/
theorem Abreast.balanced_eq (ends : passage.Ends) (abreast : Abreast passage cursor cursor')
    (within : cursor.balanced + passage.stop.left ≤ cursor.left) :
    cursor'.balanced = cursor.balanced := by
  have rest := List.length_pos_iff.2 ends.rest
  obtain ⟨-, like, echoes⟩ := abreast
  cases echoes with
  | nil =>
    simp only [Cursor.left, Cursor.balanced, List.nil_append] at within
    omega
  | cons like' gap later =>
    simp only [Cursor.balanced, List.cons_append, List.tail_cons, Cursor.left, List.length_cons,
      List.length_append] at within ⊢
    cases closed : closing? 1 (_ ++ passage.stop.pending) with
    | none =>
      rw [closed, Option.getD_none] at within
      omega
    | some length =>
      rw [closed, Option.getD_some] at within
      rw [later.closing?_eq closed (by omega), Option.getD_some, Option.getD_some]

/-- Whether the next token touches the last one is a matter of tokens both streams share. -/
theorem Abreast.atAdjacent_eq (abreast : Abreast passage cursor cursor')
    (inside : passage.Inside cursor) : cursor.atAdjacent = cursor'.atAdjacent := by
  obtain ⟨token, later, token', later', -, pending, pending', -, -, -, gap⟩ := abreast.inside inside
  simpa [Cursor.atAdjacent, Cursor.peek, pending, pending'] using gap

/-- Both readings stand at the start of a line, or neither does. -/
theorem Abreast.atNewLine_eq (abreast : Abreast passage cursor cursor')
    (inside : passage.Inside cursor) : cursor.atNewLine = cursor'.atNewLine := by
  obtain ⟨token, later, token', later', -, pending, pending', -, -, line, -⟩ := abreast.inside inside
  simpa [Cursor.atNewLine, Cursor.peek, pending, pending'] using line

/-- Both readings stand at a parenthesis attached to what was read, or neither does. -/
theorem Abreast.atAttachedParen_eq (abreast : Abreast passage cursor cursor')
    (inside : passage.Inside cursor) : cursor.atAttachedParen = cursor'.atAttachedParen := by
  rw [Cursor.atAttachedParen, Cursor.atAttachedParen, Cursor.isAt, Cursor.isAt,
    (abreast.peek_like inside).kind, abreast.atAdjacent_eq inside]

theorem Passage.Ends.measures_attachedGroup (ends : passage.Ends) :
    passage.Measures Cursor.attachedGroup := by
  intro cursor cursor' abreast within
  have inside : passage.Inside cursor := Nat.lt_of_le_of_lt (Nat.le_add_left _ _) within
  rw [Cursor.attachedGroup] at within ⊢
  rw [Cursor.attachedGroup, ← abreast.atAttachedParen_eq inside]
  split
  · next attached =>
    rw [if_pos attached] at within
    exact abreast.balanced_eq ends (Nat.le_of_lt within)
  · rfl

/-! ### Paths and labels -/

theorem Echoes.importPath_eq (echoes : Echoes passage before tokens before' tokens')
    {last last' : Option Token} (sameKind : last.map (·.kind) = last'.map (·.kind))
    (rest rest' : List Token)
    (within : importPath (some before) last (tokens ++ rest) < tokens.length) :
    importPath (some before') last' (tokens' ++ rest') =
      importPath (some before) last (tokens ++ rest) := by
  induction echoes generalizing last last' with
  | nil => exact absurd within (Nat.not_lt_zero _)
  | @cons _ _ token token' _ _ like gap _ ih =>
    have isNone : last.isNone = last'.isNone := by
      rw [← Option.isNone_map, sameKind, Option.isNone_map]
    have isPeriod : last.all (·.kind == .period) = last'.all (·.kind == .period) := by
      rw [show last.all (·.kind == .period) = (last.map (·.kind)).all (· == .period) by
        cases last <;> rfl, sameKind]
      cases last' <;> rfl
    rw [List.cons_append, importPath] at within ⊢
    rw [List.cons_append, importPath, ← isNone, ← isPeriod, ← lineBreakBetween_congr gap,
      ← like.kind]
    refine ite_congr rfl (fun goes => ?_) fun _ => rfl
    rw [if_pos goes, List.length_cons] at within
    have sameLast : (some token).map (·.kind) = (some token').map (·.kind) := congrArg some like.kind
    rw [ih sameLast (by omega)]

theorem measures_importRun : passage.Measures Cursor.importRun := by
  rintro _ _ ⟨-, like, echoes⟩ within
  refine echoes.importPath_eq rfl _ _ ?_
  simpa [Cursor.left, Cursor.importRun] using within

/-- A case label that ends inside the passage has the same length in both streams. -/
theorem Echoes.caseLabel_eq (echoes : Echoes passage before tokens before' tokens') (depth : Nat)
    (rest rest' : List Token) (within : caseLabel depth (tokens ++ rest) < tokens.length) :
    caseLabel depth (tokens' ++ rest') = caseLabel depth (tokens ++ rest) := by
  induction echoes generalizing depth with
  | nil => exact absurd within (Nat.not_lt_zero _)
  | cons like _ _ ih =>
    rw [List.cons_append, caseLabel] at within ⊢
    -- The kinds of the tokens decide where a label ends, and both streams have the same ones.
    rw [List.cons_append, caseLabel, ← like.kind]
    rw [List.length_cons] at within
    split
    · rfl
    split
    · rfl
    next notBrace notColon =>
    rw [if_neg notBrace, if_neg notColon] at within
    split
    · next opening =>
      rw [if_pos opening] at within
      rw [ih _ (by omega)]
    next notOpening =>
    rw [if_neg notOpening] at within
    split
    · next closing =>
      rw [if_pos closing] at within
      rw [ih _ (by omega)]
    · next notClosing =>
      rw [if_neg notClosing] at within
      rw [ih _ (by omega)]

theorem measures_labelRun : passage.Measures Cursor.labelRun := by
  rintro _ _ ⟨-, like, echoes⟩ within
  refine echoes.caseLabel_eq 0 _ _ ?_
  simpa [Cursor.left, Cursor.labelRun] using within

/-- A leading run of tokens of like kinds that ends inside the passage has the same length in both
streams. -/
theorem Echoes.takeWhile_eq {test : Token → Bool}
    (respects : ∀ token token' : Token, token.Like token' → test token = test token')
    (echoes : Echoes passage before tokens before' tokens') (rest rest' : List Token)
    (within : ((tokens ++ rest).takeWhile test).length < tokens.length) :
    ((tokens' ++ rest').takeWhile test).length = ((tokens ++ rest).takeWhile test).length := by
  induction echoes with
  | nil => exact absurd within (Nat.not_lt_zero _)
  | cons like _ _ ih =>
    rw [List.cons_append, List.takeWhile_cons] at within ⊢
    rw [List.cons_append, List.takeWhile_cons, ← respects _ _ like]
    split
    · next holds =>
      rw [if_pos holds, List.length_cons, List.length_cons] at within
      rw [List.length_cons, List.length_cons, ih (by omega)]
    · rfl

theorem measures_loopModifiers : passage.Measures Cursor.loopModifiers := by
  rintro _ _ ⟨-, like, echoes⟩ within
  refine echoes.takeWhile_eq (fun _ _ like => by simp only [like.isKeyword]) _ _ ?_
  simpa [Cursor.left, Cursor.loopModifiers] using within

/-! ### Types -/

/-- A name comes next in both streams, or in neither. -/
theorem Abreast.nameNext_eq (ends : passage.Ends) (abreast : Abreast passage cursor cursor') :
    cursor.pending.head?.any (·.kind == .identifier) =
      cursor'.pending.head?.any (·.kind == .identifier) := by
  have isAt {cursor : Cursor} (proper : cursor.Proper) :
      cursor.pending.head?.any (·.kind == .identifier) = cursor.isAt .identifier := by
    rw [Cursor.isAt, Cursor.peek]
    cases cursor.pending with
    | nil => simp [show cursor.endOfFile.kind = _ from proper]
    | cons token later => rfl
  obtain ⟨proper, proper'⟩ := abreast.proper ends
  rw [isAt proper, isAt proper']
  exact (Level.later abreast).isAt_eq ends _ (by decide)

/-- What follows the first name of a written type is as long in the other stream, whatever fuel
counts it there. -/
theorem Abreast.typeNameRest_eq (ends : passage.Ends) (abreast : Abreast passage cursor cursor')
    {n m : Nat} (fuel : cursor.left ≤ n) (fuel' : cursor'.left ≤ m)
    (within : typeNameRest n cursor.pending + passage.stop.left < cursor.left) :
    typeNameRest m cursor'.pending = typeNameRest n cursor.pending := by
  induction n generalizing cursor cursor' m with
  | zero =>
    rw [Nat.le_zero.1 fuel] at within
    exact absurd within (Nat.not_lt_zero _)
  | succ n ih =>
    have inside : passage.Inside cursor := Nat.lt_of_le_of_lt (Nat.le_add_left _ _) within
    obtain ⟨token, later, token', later', -, pending, pending', like, next, -⟩ := abreast.inside inside
    have left : cursor.left = later.length + 1 := by rw [Cursor.left, pending, List.length_cons]
    have left' : cursor'.left = later'.length + 1 := by rw [Cursor.left, pending', List.length_cons]
    cases m with
    | zero => exact absurd (left' ▸ fuel') (Nat.not_succ_le_zero _)
    | succ m =>
      -- Behind its next part the name goes on, with the fuel that is left.
      have further {count : Nat} (pos : 0 < count)
          (within : count + typeNameRest n (cursor.skip count).pending + passage.stop.left <
            cursor.left) :
          typeNameRest m (cursor'.skip count).pending = typeNameRest n (cursor.skip count).pending := by
        refine ih (abreast.skip (by omega)) ?_ ?_ ?_ <;> rw [Cursor.left_skip] <;> omega
      have sameName : later.head?.any (·.kind == .identifier) =
          later'.head?.any (·.kind == .identifier) := next.nameNext_eq ends
      rw [pending, typeNameRest] at within ⊢
      rw [pending', typeNameRest, ← like.opensAngle, ← like.kind, ← sameName]
      split
      · next opens =>
        rw [if_pos opens, ← pending] at within
        replace within : angleRun 0 cursor.pending +
            typeNameRest n (cursor.skip (angleRun 0 cursor.pending)).pending + passage.stop.left <
              cursor.left := within
        have same : angleRun 0 (token' :: later') = angleRun 0 (token :: later) := by
          rw [← pending, ← pending']
          refine abreast.angles_eq ends ?_
          rw [Cursor.angles]
          omega
        have pos := angleRun_pos 0 token later
        rw [same, ← pending, ← pending']
        rw [← pending] at pos
        exact congrArg _ (further pos within)
      split
      · next other dotted =>
        rw [if_neg other, if_pos dotted] at within
        have drop (later : List Token) (token : Token) : later.drop 1 = (token :: later).drop 2 := rfl
        rw [drop later token, ← pending] at within ⊢
        rw [drop later' token', ← pending']
        exact congrArg _ (further Nat.two_pos within)
      · rfl

theorem Passage.Ends.measures_typeNameRun (ends : passage.Ends) :
    passage.Measures Cursor.typeNameRun :=
  fun _ _ abreast within => abreast.typeNameRest_eq ends (Nat.le_refl _) (Nat.le_refl _) within

/-- The number of tokens in the next part of the type of a cast. -/
def castPart (previous last : Option Token) (endOfFile token : Token) (later : List Token) : Nat :=
  let expectsName := last.all fun token =>
    token.kind == .period || token.kind == .arrow || token.isKeyword "any" || token.isKeyword "some"
  let bound : Cursor := { previous, pending := token :: later, endOfFile }
  let next := later.headD endOfFile
  if last.isSome && lineBreakBetween previous token then 0
  else match expectsName, token.kind with
    | true, .identifier => 1
    | true, .leftParen | true, .leftBracket => 1 + (closing? 1 later).getD later.length
    | false, .period => if next.kind == .identifier then 1 else 0
    | false, .arrow => 1
    | false, .operator =>
      if bound.leftBound then
        if token.startsWith "<" then angleRun 0 (token :: later)
        else if token.consistsOf "?!" then 1
        else 0
      else 0
    | _, _ => 0

/-- One step of a cast type: its next part, then what follows that part. -/
theorem castType_cons (previous last : Option Token) (endOfFile token : Token) (later : List Token)
    (fuel : Nat) : castType previous last endOfFile (fuel + 1) (token :: later) =
      if castPart previous last endOfFile token later == 0 then 0
      else castPart previous last endOfFile token later +
        castType ((token :: later).take (castPart previous last endOfFile token later)).getLast?
          ((token :: later).take (castPart previous last endOfFile token later)).getLast? endOfFile
          fuel ((token :: later).drop (castPart previous last endOfFile token later)) :=
  rfl

/-- The last parts of two types so far: none, or the tokens just read. -/
def Cursor.SameParts (cursor cursor' : Cursor) (last last' : Option Token) : Prop :=
  last = none ∧ last' = none ∨ last = cursor.previous ∧ last' = cursor'.previous

/-- Each part of a cast type that ends inside the passage has the same length in both streams. -/
theorem Abreast.castPart_eq (ends : passage.Ends) (abreast : Abreast passage cursor cursor')
    {last last' : Option Token} (same : cursor.SameParts cursor' last last') {later later' : List Token}
    (pending : cursor.pending = token :: later) (pending' : cursor'.pending = token' :: later')
    (inside : passage.Inside cursor)
    (within : castPart cursor.previous last cursor.endOfFile token later + passage.stop.left ≤
      cursor.left) :
    castPart cursor'.previous last' cursor'.endOfFile token' later' =
      castPart cursor.previous last cursor.endOfFile token later := by
  have isSelf : (⟨cursor.previous, token :: later, cursor.endOfFile⟩ : Cursor) = cursor := by
    rw [← pending]
  have isSelf' : (⟨cursor'.previous, token' :: later', cursor'.endOfFile⟩ : Cursor) = cursor' := by
    rw [← pending']
  -- What comes before the part is the token read last, or nothing in both streams.
  have isSome : last'.isSome = last.isSome := by
    obtain ⟨before, before', previous, previous', -⟩ := abreast.previous
    rcases same with ⟨rfl, rfl⟩ | ⟨rfl, rfl⟩
    · rfl
    · rw [previous, previous']
      rfl
  have expects : (last'.all fun token => token.kind == .period || token.kind == .arrow ||
        token.isKeyword "any" || token.isKeyword "some") =
      last.all fun token => token.kind == .period || token.kind == .arrow ||
        token.isKeyword "any" || token.isKeyword "some" := by
    obtain ⟨before, before', previous, previous', like⟩ := abreast.previous
    rcases same with ⟨rfl, rfl⟩ | ⟨rfl, rfl⟩
    · rfl
    · simp only [previous, previous', Option.all_some, like.kind, like.isKeyword]
  obtain ⟨first, rest, first', rest', -, ahead, ahead', like, next, line, -⟩ := abreast.inside inside
  obtain ⟨rfl, rfl⟩ := List.cons.inj (pending.symm.trans ahead)
  obtain ⟨rfl, rfl⟩ := List.cons.inj (pending'.symm.trans ahead')
  rw [castPart] at within ⊢
  rw [castPart, isSome, expects, ← line, ← like.kind, ← like.startsWith, ← like.consistsOf]
  simp only [isSelf, isSelf'] at within ⊢
  split
  · rfl
  next goes =>
  rw [if_neg goes] at within
  generalize (last.all fun token => token.kind == .period || token.kind == .arrow ||
    token.isKeyword "any" || token.isKeyword "some") = expectsName at within ⊢
  -- Most kinds of tokens are decided by what both streams share. A period looks one token further,
  -- and operators and brackets open runs.
  cases expectsName <;> cases kind : token.kind <;> try rfl
  all_goals rw [kind] at within
  all_goals simp only at within ⊢
  case false.period =>
    have same : Cursor.isAt ⟨some token, later, cursor.endOfFile⟩ .identifier =
        Cursor.isAt ⟨some token', later', cursor'.endOfFile⟩ .identifier :=
      (Level.later next).isAt_eq ends _ (by decide)
    simp only [Cursor.isAt, Cursor.peek] at same
    rw [same]
  case false.operator =>
    obtain ⟨first, _, _, _, -, ahead, -, -, -, bound⟩ := (Level.later abreast).inside inside
    obtain rfl : token = first := (List.cons.inj (pending.symm.trans ahead)).1
    rw [← bound kind]
    split
    · next leftBound =>
      rw [if_pos leftBound] at within
      split
      · next opens =>
        rw [if_pos opens, ← pending] at within
        rw [← pending, ← pending']
        exact abreast.angles_eq ends within
      · rfl
    · rfl
  case true.leftParen | true.leftBracket =>
    have balanced := abreast.balanced_eq ends
    simp only [Cursor.balanced, pending, pending', List.tail_cons] at balanced
    exact balanced within

/-- What comes behind the way is no part of a type. -/
theorem castPart_of_kind {previous last : Option Token} {endOfFile : Token} {later : List Token}
    (kind : token.kind = .comma ∨ token.kind = .rightParen ∨ token.kind = .endOfFile) :
    castPart previous last endOfFile token later = 0 := by
  rw [castPart]
  split
  · rfl
  · rcases kind with kind | kind | kind <;> rw [kind] <;> cases last.all _ <;> rfl

/-- An operator apart from the type before it is no part of that type. -/
theorem castPart_of_apart {previous last : Option Token} {endOfFile : Token} {later : List Token}
    (kind : token.kind = .operator) (apart : adjacent previous token = false) :
    castPart previous last endOfFile token later = 0 := by
  have unbound : Cursor.leftBound ⟨previous, token :: later, endOfFile⟩ = false := by
    rw [Cursor.leftBound, Cursor.atAdjacent, show Cursor.peek _ = token from rfl, apart,
      Bool.false_and]
  rw [castPart]
  split
  · rfl
  · rw [kind, unbound]
    cases last.all _ <;> rfl

/-- A cast type ends where no further part begins. -/
theorem castType_of_part {previous last : Option Token} {endOfFile : Token} {later : List Token}
    (none : castPart previous last endOfFile token later = 0) (fuel : Nat) :
    castType previous last endOfFile fuel (token :: later) = 0 := by
  cases fuel with
  | zero => rfl
  | succ fuel => rw [castType_cons, none, beq_self_eq_true, if_pos rfl]

/-- After some tokens the last one of them has been read. -/
theorem Cursor.previous_skip {later : List Token} (pending : cursor.pending = token :: later)
    {count : Nat} (pos : count ≠ 0) :
    ((token :: later).take count).getLast? = (cursor.skip count).previous := by
  obtain ⟨count, rfl⟩ := Nat.exists_eq_succ_of_ne_zero pos
  simp [skip, take, pending, List.getLast?_cons]

/-- Behind the way no cast type goes on, in neither stream. -/
theorem Abreast.castType_outside (ends : passage.Ends) (abreast : Abreast passage cursor cursor')
    (outside : ¬passage.Inside cursor) (last last' : Option Token) (n m : Nat) :
    castType cursor.previous last cursor.endOfFile n cursor.pending = 0 ∧
      castType cursor'.previous last' cursor'.endOfFile m cursor'.pending = 0 := by
  rcases abreast.cases with ⟨_, _, _, _, here, -⟩ |
    ⟨pending, pending', _, _, -, previous', parts⟩
  · exact absurd here outside
  obtain ⟨first, rest, stop_eq⟩ := List.exists_cons_of_ne_nil ends.rest
  have kind := ends.kind
  rw [Cursor.peek, stop_eq, List.headD_cons] at kind
  rw [pending, stop_eq, pending']
  refine ⟨castType_of_part (castPart_of_kind (kind.imp_right .inl)) n, ?_⟩
  cases stop_eq' : passage.stop'.pending with
  | nil => cases m <;> rfl
  | cons first' rest' =>
    have isPeek : passage.stop'.peek = first' := by rw [Cursor.peek, stop_eq', List.headD_cons]
    refine castType_of_part ?_ m
    rcases ends.kind' with kind' | kind' | kind'
    · exact castPart_of_kind (.inr (.inl (isPeek ▸ kind')))
    · exact castPart_of_kind (.inr (.inr (isPeek ▸ kind')))
    · -- An operator may stand there, but apart from what was read.
      refine castPart_of_apart (isPeek ▸ kind') ?_
      rw [previous', ← isPeek]
      exact parts.apart (by rw [Cursor.isAt, kind', beq_self_eq_true])

/-- The type of a cast may end with the way. -/
theorem Abreast.castType_eq (ends : passage.Ends) (abreast : Abreast passage cursor cursor')
    {last last' : Option Token} (same : cursor.SameParts cursor' last last') {n m : Nat}
    (fuel : cursor.left ≤ n) (fuel' : cursor'.left ≤ m)
    (within : castType cursor.previous last cursor.endOfFile n cursor.pending + passage.stop.left ≤
      cursor.left) :
    castType cursor'.previous last' cursor'.endOfFile m cursor'.pending =
      castType cursor.previous last cursor.endOfFile n cursor.pending := by
  -- The fuels of both readings differ, so the second one is taken apart along with the first.
  induction n generalizing cursor cursor' last last' m with
  | zero =>
    have rest := List.length_pos_iff.2 ends.rest
    have enough := abreast.stop_le
    simp only [Cursor.left] at *
    omega
  | succ n ih =>
    by_cases inside : passage.Inside cursor
    · obtain ⟨token, later, token', later', -, pending, pending', -⟩ := abreast.inside inside
      have left : cursor.left = later.length + 1 := by rw [Cursor.left, pending, List.length_cons]
      have left' : cursor'.left = later'.length + 1 := by
        rw [Cursor.left, pending', List.length_cons]
      cases m with
      | zero => exact absurd (left' ▸ fuel') (Nat.not_succ_le_zero _)
      | succ m =>
        rw [pending, castType_cons] at within ⊢
        rw [pending', castType_cons]
        have part := abreast.castPart_eq ends same pending pending' inside
        -- From here only the length of the first part matters.
        generalize castPart cursor.previous last cursor.endOfFile token later = length at *
        have reaches : length + passage.stop.left ≤ cursor.left := by
          by_cases none : length = 0
          · rw [none, Nat.zero_add]
            exact abreast.stop_le
          · rw [if_neg (by simpa using none)] at within
            exact Nat.le_trans (Nat.add_le_add_right (Nat.le_add_right _ _) _) within
        rw [part reaches]
        split
        · rfl
        next some =>
        rw [if_neg some] at within
        have pos : length ≠ 0 := by simpa using some
        rw [Cursor.previous_skip pending pos, ← pending] at within ⊢
        rw [Cursor.previous_skip pending' pos, ← pending']
        refine congrArg (length + ·) (ih (abreast.skip reaches) (.inr ⟨rfl, rfl⟩) ?_ ?_ ?_)
        · rw [Cursor.left_skip]
          omega
        · rw [Cursor.left_skip]
          omega
        · rw [Cursor.left_skip]
          change castType _ _ cursor.endOfFile n (cursor.pending.drop length) + _ ≤ _
          omega
    · obtain ⟨none, none'⟩ := abreast.castType_outside ends inside last last' (n + 1) m
      rw [none, none']

/-- A cast type that ends inside the passage has the same length in both streams. -/
theorem Abreast.castRun_eq (ends : passage.Ends) (abreast : Abreast passage cursor cursor')
    (within : cursor.castRun + passage.stop.left ≤ cursor.left) : cursor'.castRun = cursor.castRun :=
  abreast.castType_eq ends (.inl ⟨rfl, rfl⟩) (Nat.le_refl _) (Nat.le_refl _) within

end SuiteMigration
