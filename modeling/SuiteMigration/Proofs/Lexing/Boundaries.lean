import Mathlib.Tactic.Common
import SuiteMigration.Piece

/-!
# Where runs of characters end

How far a name, a number or an operator reaches depends on what comes after it, but on little of
that: one or two characters. So it stays what it is when the text after it is exchanged for one that
begins with the same two characters, or for one that begins with a character that ends every run, or
with a comment.

## Main definitions

* `Lexeme.Halts` - a text that goes on with no lexeme
* `Lexeme.Near` - a text that can stand for another one behind a lexeme

## Main results

* `Lexeme.Near.takeWhile` - a run of characters stays one when the text after it is exchanged
* `Lexeme.Near.identifier`, `Lexeme.Near.number`, `Lexeme.Near.operator` - so do the classes that are
  runs
-/

namespace SuiteMigration

namespace Lexeme

/-! ### What follows a lexeme -/

/-- The characters that end every run: blanks, line breaks and punctuation that stands alone. -/
def haltingCharacters : List Char :=
  [' ', '\t', '\x0b', '\x0c', '\ufeff', '\n', '\r', '(', ')', '[', ']', '{', '}', ',', ';', ':', '@']

/-- The text begins with a comment. -/
def startsComment : List Char → Bool
  | '/' :: '/' :: _ => true
  | '/' :: '*' :: _ => true
  | _ => false

/-- The text goes on with no lexeme. It is empty, or begins with a halting character or a
comment. -/
def Halts : List Char → Prop
  | [] => True
  | c :: rest => c ∈ haltingCharacters ∨ startsComment (c :: rest) = true

/-- The second text can stand for the first one behind a lexeme: it goes on with no lexeme, or it
begins like the first one. -/
inductive Near : List Char → List Char → Prop
  | halt : Halts new → Near old new
  | once : startsComment (c :: old) = false → Halts new → Near (c :: old) (c :: new)
  | twice : Near (c :: d :: old) (c :: d :: new)

variable {c : Char} {old new taken rest : List Char}

/-- A text that halts begins with a halting character or with a slash. -/
theorem Halts.head (halts : Halts new) (begins : new.head? = some c) :
    c ∈ haltingCharacters ∨ c = '/' := by
  cases new with
  | nil => cases begins
  | cons d new =>
    obtain rfl : d = c := Option.some.inj begins
    rcases halts with halting | comment
    · exact .inl halting
    · unfold startsComment at comment
      split at comment
      · next heq => exact .inr (List.cons.inj heq).1
      · next heq => exact .inr (List.cons.inj heq).1
      · cases comment

/-- Where a run of characters stops, it stops before a near text. -/
theorem Near.stops (near : Near old new) {runs : Char → Bool}
    (halting : ∀ c ∈ '/' :: haltingCharacters, runs c = false)
    (stops : ∀ c, old.head? = some c → runs c = false) :
    ∀ c, new.head? = some c → runs c = false := by
  intro c begins
  cases near with
  | halt halts =>
    rcases halts.head begins with member | rfl
    · exact halting c (List.mem_cons_of_mem _ member)
    · exact halting _ List.mem_cons_self
  | once => exact stops c begins
  | twice => exact stops c begins

theorem Near.head (near : Near old new) (begins : new.head? = some c)
    (other : c ∉ '/' :: haltingCharacters) : old.head? = some c := by
  cases near with
  | halt halts =>
    refine absurd ?_ other
    rcases halts.head begins with member | rfl
    · exact List.mem_cons_of_mem _ member
    · exact List.mem_cons_self
  | once => exact begins
  | twice => exact begins

/-! ### Runs of characters -/

/-- A run of characters that was whole before one rest is whole before another that does not go on
with it. -/
theorem length_takeWhile_append {runs : Char → Bool}
    (whole : ((taken ++ old).takeWhile runs).length = taken.length)
    (stops : ∀ c, new.head? = some c → runs c = false) :
    ((taken ++ new).takeWhile runs).length = taken.length := by
  induction taken with
  | nil =>
    cases new with
    | nil => rfl
    | cons c new => simp [stops c rfl]
  | cons c taken ih =>
    rw [List.cons_append, List.takeWhile_cons] at whole ⊢
    split at whole
    · next runs_c => simpa [runs_c] using ih (by simpa using whole)
    · simp at whole

/-- A run that takes exactly some characters stops at what follows them. -/
theorem stops_of_length_takeWhile {runs : Char → Bool}
    (whole : ((taken ++ old).takeWhile runs).length = taken.length) :
    ∀ c, old.head? = some c → runs c = false := by
  induction taken with
  | nil =>
    intro c begins
    cases old with
    | nil => cases begins
    | cons d old =>
      obtain rfl : d = c := Option.some.inj begins
      by_contra runs_c
      rw [Bool.not_eq_false] at runs_c
      simp [runs_c] at whole
  | cons c taken ih =>
    rw [List.cons_append, List.takeWhile_cons] at whole
    split at whole
    · exact ih (by simpa using whole)
    · simp at whole

/-- A run that takes exactly some characters takes them before any near text. -/
theorem Near.takeWhile (near : Near old new) {runs : Char → Bool}
    (halting : ∀ c ∈ '/' :: haltingCharacters, runs c = false)
    (whole : ((taken ++ old).takeWhile runs).length = taken.length) :
    ((taken ++ new).takeWhile runs).length = taken.length :=
  length_takeWhile_append whole (near.stops halting (stops_of_length_takeWhile whole))

/-! ### Names -/

/-- A test that no character of a list passes fails on each of them. -/
theorem eq_false_of_any {test : Char → Bool} {chars : List Char} (none : chars.any test = false) :
    ∀ c ∈ chars, test c = false :=
  fun c member => Bool.eq_false_iff.2 (List.any_eq_false.1 none c member)

/-- No halting character goes on with a name. -/
theorem halting_continue :
    ∀ c ∈ '/' :: haltingCharacters, (Text.isIdentifierContinue c || c == '$') = false :=
  eq_false_of_any (by decide +kernel)

/-- No halting character goes on with a number. -/
theorem halting_alphanum :
    ∀ c ∈ '/' :: haltingCharacters, (c.isAlphanum || c == '_') = false :=
  eq_false_of_any (by decide +kernel)

/-- A plain name is as long before another rest that starts alike. -/
theorem Near.plainName (near : Near old new) (some_taken : taken ≠ [])
    (whole : plainName (taken ++ old) = taken.length) :
    plainName (taken ++ new) = taken.length := by
  obtain ⟨c, taken, rfl⟩ := List.exists_cons_of_ne_nil some_taken
  simp only [List.cons_append, Lexeme.plainName, List.length_cons] at whole ⊢
  split at whole
  · next start =>
    rw [if_pos start, near.takeWhile halting_continue (by omega), Nat.add_comm]
  · simp at whole

theorem poundIdentifier_sign (rest : List Char) :
    poundIdentifier ('#' :: rest) = if plainName rest = 0 then 0 else plainName rest + 1 := by
  rw [poundIdentifier]
  split
  · next none => rw [if_pos none]
  · next some => rw [if_neg some]

/-- A directive is as long before another rest that starts alike. -/
theorem Near.poundIdentifier (near : Near old new)
    (whole : poundIdentifier ('#' :: taken ++ old) = taken.length + 1) :
    poundIdentifier ('#' :: taken ++ new) = taken.length + 1 := by
  rw [List.cons_append, poundIdentifier_sign] at whole ⊢
  split at whole
  · cases whole
  · next some =>
    have name : Lexeme.plainName (taken ++ old) = taken.length := Nat.succ.inj whole
    have some_taken : taken ≠ [] := by
      rintro rfl
      exact some name
    rw [near.plainName some_taken name, if_neg (by simpa using some_taken)]

theorem identifier_plain (backquote : c ≠ '\x60') (dollar : c ≠ '$') :
    identifier (c :: rest) = plainName (c :: rest) := by
  unfold identifier
  split
  · next heq => exact absurd (List.cons.inj heq).1 backquote
  · next heq => exact absurd (List.cons.inj heq).1 dollar
  · rfl

/-- A name in backquotes ends with the second one. -/
theorem identifier_quoted (new : List Char)
    (whole : identifier ('\x60' :: taken ++ old) = taken.length + 1) :
    identifier ('\x60' :: taken ++ new) = taken.length + 1 := by
  simp only [List.cons_append, identifier] at whole ⊢
  split at whole
  · next closed =>
    -- The name was closed within the text taken, so its run ended there.
    have shorter : (taken.takeWhile isQuotable).length ≠ taken.length := by
      intro same
      rw [List.takeWhile_append, if_pos same] at whole
      simp at whole
      omega
    have run (rest : List Char) :
        (taken ++ rest).takeWhile isQuotable = taken.takeWhile isQuotable := by
      rw [List.takeWhile_append, if_neg shorter]
    have within : taken.drop (taken.takeWhile isQuotable).length ≠ [] := by
      intro none
      have le := List.drop_eq_nil_iff.1 none
      have ge := (@List.takeWhile_prefix _ taken isQuotable).length_le
      omega
    have ending (rest : List Char) :
        ((taken ++ rest).drop (taken.takeWhile isQuotable).length).head? =
          (taken.drop (taken.takeWhile isQuotable).length).head? := by
      rw [List.drop_append_of_le_length (List.takeWhile_prefix isQuotable).length_le,
        List.head?_append, List.head?_eq_some_head within, Option.some_or]
    rw [run, ending] at closed
    rw [run] at whole
    rw [run, ending, if_pos closed]
    exact whole
  · cases whole

/-- A name stays one: in backquotes, with a dollar sign, or plain. -/
theorem Near.identifier (near : Near old new) (some_taken : taken ≠ [])
    (whole : identifier (taken ++ old) = taken.length) :
    identifier (taken ++ new) = taken.length := by
  obtain ⟨c, taken, rfl⟩ := List.exists_cons_of_ne_nil some_taken
  by_cases backquote : c = '\x60'
  · subst backquote
    exact identifier_quoted new whole
  by_cases dollar : c = '$'
  · subst dollar
    simp only [List.cons_append, Lexeme.identifier, List.length_cons] at whole ⊢
    split at whole
    · next some =>
      have length_eq : ((taken ++ old).takeWhile fun c => c.isAlphanum || c == '_').length =
          taken.length := Nat.succ.inj whole
      rw [length_eq] at some
      rw [near.takeWhile halting_alphanum length_eq, if_pos some]
    · cases whole
  · rw [List.cons_append, identifier_plain backquote dollar, ← List.cons_append] at whole ⊢
    exact near.plainName some_taken whole

/-! ### Numbers -/

/-- The exponent of a number begins with a letter and a sign. -/
def startsExponent (c : Char) (rest : List Char) : Bool :=
  (c == 'e' || c == 'E' || c == 'p' || c == 'P') && rest.head?.any fun d => d == '+' || d == '-'

/-- The fraction of a number begins with a period and a digit. -/
def startsFraction (c : Char) (rest : List Char) : Bool :=
  c == '.' && rest.head?.any Char.isDigit

theorem numberRest_cons (c : Char) (rest : List Char) :
    numberRest (c :: rest) =
      if startsExponent c rest then 2 + numberRest rest.tail
      else if c.isAlphanum || c == '_' then 1 + numberRest rest
      else if startsFraction c rest then 2 + numberRest rest.tail
      else 0 := by
  cases rest with
  | nil => simp [numberRest, startsExponent, startsFraction]
  | cons d rest => simp [numberRest, startsExponent, startsFraction]

theorem startsExponent_eq_false (rest : List Char) (plain : (c.isAlphanum || c == '_') = false) :
    startsExponent c rest = false := by
  by_contra starts
  rw [Bool.not_eq_false, startsExponent, Bool.and_eq_true] at starts
  simp only [Bool.or_eq_true, beq_iff_eq] at starts
  rcases starts.1 with ((rfl | rfl) | rfl) | rfl <;> exact absurd plain (by decide)

theorem numberRest_cons_eq_zero_iff : numberRest (c :: rest) = 0 ↔
    (c.isAlphanum || c == '_') = false ∧ startsFraction c rest = false := by
  rw [numberRest_cons]
  constructor
  · intro zero
    split at zero
    · omega
    split at zero
    · omega
    split at zero
    · omega
    · next plain whole => exact ⟨Bool.not_eq_true _ ▸ plain, Bool.not_eq_true _ ▸ whole⟩
  · rintro ⟨plain, whole⟩
    simp [startsExponent_eq_false rest plain, plain, whole]

/-- A run that no halting character goes on with stops where a text halts. -/
theorem Halts.not_any (halts : Halts new) {runs : Char → Bool}
    (halting : ∀ c ∈ '/' :: haltingCharacters, runs c = false) : new.head?.any runs = false := by
  cases begins : new.head? with
  | none => rfl
  | some c =>
    rcases halts.head begins with member | rfl
    · exact halting c (List.mem_cons_of_mem _ member)
    · exact halting _ List.mem_cons_self

theorem halting_digit : ∀ c ∈ '/' :: haltingCharacters, c.isDigit = false :=
  eq_false_of_any (by decide +kernel)

/-- What stops a number, stops it in a near text. -/
theorem Near.numberRest_eq_zero (near : Near old new) (stops : numberRest old = 0) :
    numberRest new = 0 := by
  cases near with
  | halt halts =>
    cases new with
    | nil => rfl
    | cons c new =>
      have plain := halts.not_any halting_alphanum
      have whole : (c == '.') = false :=
        @Halts.not_any _ halts (· == '.') (eq_false_of_any (by decide +kernel))
      rw [numberRest_cons_eq_zero_iff]
      exact ⟨plain, by rw [startsFraction, whole, Bool.false_and]⟩
  | once _ halts =>
    rw [numberRest_cons_eq_zero_iff] at stops ⊢
    exact ⟨stops.1, by rw [startsFraction, halts.not_any halting_digit, Bool.and_false]⟩
  | twice =>
    rw [numberRest_cons_eq_zero_iff] at stops ⊢
    exact stops

/-- An exponent that begins in one text begins in the other. -/
theorem Near.startsExponent (near : Near old new) (starts : startsExponent c new = true) :
    startsExponent c old = true := by
  rw [Lexeme.startsExponent, Bool.and_eq_true] at starts ⊢
  refine ⟨starts.1, ?_⟩
  cases begins : new.head? with
  | none => simp [begins] at starts
  | some d =>
    rw [begins] at starts
    have sign : (d == '+' || d == '-') = true := starts.2
    have other : d ∉ '/' :: haltingCharacters := by
      rw [Bool.or_eq_true, beq_iff_eq, beq_iff_eq] at sign
      rcases sign with rfl | rfl <;> decide
    rw [near.head begins other]
    exact sign

/-- The rest of a number is the same before a near text. -/
theorem Near.numberRest (near : Near old new) (whole : numberRest (taken ++ old) = taken.length) :
    numberRest (taken ++ new) = taken.length := by
  induction bound : taken.length using Nat.strongRecOn generalizing taken with
  | _ length ih =>
    subst bound
    match taken with
    | [] => exact near.numberRest_eq_zero whole
    | [c] =>
      rw [List.singleton_append, numberRest_cons, List.length_singleton] at whole
      split at whole
      · omega
      split at whole
      · next plain letter =>
        have stops := near.numberRest_eq_zero (Nat.add_left_cancel whole)
        rw [List.singleton_append, numberRest_cons, if_neg fun starts => plain (near.startsExponent starts),
          if_pos letter, stops]
        rfl
      split at whole
      · omega
      · cases whole
    | c :: d :: taken =>
      -- Both tests look at the next character only, which is the same.
      have exponent : Lexeme.startsExponent c (d :: (taken ++ new)) =
        Lexeme.startsExponent c (d :: (taken ++ old)) := rfl
      have fraction : startsFraction c (d :: (taken ++ new)) =
        startsFraction c (d :: (taken ++ old)) := rfl
      have afterTwo (whole : Lexeme.numberRest (taken ++ old) = taken.length) :=
        ih taken.length (by simp only [List.length_cons]; omega) whole rfl
      have afterOne (whole : Lexeme.numberRest (d :: taken ++ old) = (d :: taken).length) :=
        ih (d :: taken).length (by simp) whole rfl
      rw [List.cons_append, List.cons_append, numberRest_cons] at whole ⊢
      rw [exponent, fraction]
      simp only [List.tail_cons, List.cons_append, List.length_cons] at whole afterOne ⊢
      by_cases starts : Lexeme.startsExponent c (d :: (taken ++ old)) = true
      · rw [if_pos starts] at whole ⊢
        rw [afterTwo (by omega)]
        omega
      rw [if_neg starts] at whole ⊢
      by_cases letter : (c.isAlphanum || c == '_') = true
      · rw [if_pos letter] at whole ⊢
        rw [afterOne (by omega)]
        omega
      rw [if_neg letter] at whole ⊢
      split at whole
      · next starts =>
        rw [if_pos starts, afterTwo (by omega)]
        omega
      · omega

/-- A number stays one. -/
theorem Near.number (near : Near old new) (some_taken : taken ≠ [])
    (whole : number (taken ++ old) = taken.length) : number (taken ++ new) = taken.length := by
  obtain ⟨c, taken, rfl⟩ := List.exists_cons_of_ne_nil some_taken
  simp only [List.cons_append, Lexeme.number, List.length_cons] at whole ⊢
  split at whole
  · next digit =>
    rw [if_pos digit, near.numberRest (by omega), Nat.add_comm]
  · omega

/-! ### Operators -/

theorem startsComment_cons (c : Char) (rest : List Char) : startsComment (c :: rest) =
    (c == '/' && rest.head?.any fun d => d == '/' || d == '*') := by
  unfold startsComment
  split
  · next heq =>
    obtain ⟨rfl, rfl⟩ := List.cons.inj heq
    rfl
  · next heq =>
    obtain ⟨rfl, rfl⟩ := List.cons.inj heq
    rfl
  · next first second =>
    cases rest with
    | nil => simp
    | cons d rest =>
      by_cases slash : c = '/'
      · subst slash
        have line : d ≠ '/' := fun same => first rest (by rw [same])
        have block : d ≠ '*' := fun same => second rest (by rw [same])
        simp [line, block]
      · simp [slash]

theorem operator_cons (c : Char) (rest : List Char) : operator (c :: rest) =
    if startsComment (c :: rest) then 0 else if isOperatorChar c then 1 + operator rest else 0 := by
  rw [operator.eq_def]
  split
  · next heq =>
    obtain ⟨rfl, rfl⟩ := List.cons.inj heq
    rfl
  · next heq =>
    obtain ⟨rfl, rfl⟩ := List.cons.inj heq
    rfl
  · next first second heq =>
    obtain ⟨rfl, rfl⟩ := List.cons.inj heq
    have plain : startsComment (c :: rest) = false := by
      unfold startsComment
      split
      · next heq => exact (first _ (List.cons.inj heq).1 (List.cons.inj heq).2).elim
      · next heq => exact (second _ (List.cons.inj heq).1 (List.cons.inj heq).2).elim
      · rfl
    rw [plain]
    rfl
  · next heq => cases heq

/-- No halting character is part of an operator. -/
theorem halting_operator : ∀ c ∈ haltingCharacters, isOperatorChar c = false :=
  eq_false_of_any (by decide)

/-- No operator begins at a comment, or at a character that is none of its own. -/
theorem operator_cons_eq_zero_iff : operator (c :: rest) = 0 ↔
    startsComment (c :: rest) = true ∨ isOperatorChar c = false := by
  rw [operator_cons]
  by_cases comment : startsComment (c :: rest) = true
  · simp [comment]
  · cases isOperatorChar c <;> simp [comment]

/-- What stops an operator, stops it in a near text. -/
theorem Near.operator_eq_zero (near : Near old new) (stops : operator old = 0) :
    operator new = 0 := by
  cases near with
  | halt halts =>
    cases new with
    | nil => rfl
    | cons c new => exact operator_cons_eq_zero_iff.2 (halts.symm.imp_right (halting_operator c))
  | once plain halts =>
    rw [operator_cons_eq_zero_iff] at stops ⊢
    rcases stops with comment | sign
    · rw [plain] at comment
      cases comment
    · exact .inr sign
  | twice =>
    rw [operator_cons_eq_zero_iff, startsComment_cons] at stops ⊢
    exact stops

/-- Where no comment begins, none begins before a near text, but for a slash before a slash. -/
theorem Near.startsComment_eq_false (near : Near old new)
    (slash : c = '/' → new.head? = some '/' → old.head? = some '/')
    (plain : startsComment (c :: old) = false) : startsComment (c :: new) = false := by
  rw [startsComment_cons] at plain ⊢
  by_contra comment
  rw [Bool.not_eq_false, Bool.and_eq_true, beq_iff_eq] at comment
  obtain ⟨rfl, follows⟩ := comment
  cases begins : new.head? with
  | none => simp [begins] at follows
  | some d =>
    have same : old.head? = some d := by
      simp only [begins, Option.any_some, Bool.or_eq_true, beq_iff_eq] at follows
      rcases follows with rfl | rfl
      · exact slash rfl begins
      · exact near.head begins (by decide)
    rw [begins] at follows
    rw [same] at plain
    rw [follows] at plain
    cases plain

/-- An operator stays one, unless it ends with a slash that comes to stand before another one. -/
theorem Near.operator (near : Near old new)
    (slash : taken.getLast? = some '/' → new.head? = some '/' → old.head? = some '/')
    (whole : operator (taken ++ old) = taken.length) : operator (taken ++ new) = taken.length := by
  induction taken with
  | nil => exact near.operator_eq_zero whole
  | cons c taken ih =>
    rw [List.cons_append, operator_cons] at whole
    split at whole
    · cases whole
    next plain =>
    split at whole
    · next sign =>
      have rest := ih (fun ends => slash (by rw [List.getLast?_cons, ends]; rfl))
        (by rw [List.length_cons] at whole; omega)
      have plain' : startsComment (c :: (taken ++ new)) = false := by
        rw [Bool.not_eq_true] at plain
        cases taken with
        | nil => exact near.startsComment_eq_false (fun ends => slash (by rw [ends]; rfl)) plain
        | cons d taken =>
          rw [startsComment_cons] at plain ⊢
          exact plain
      rw [List.cons_append, operator_cons, plain', if_neg Bool.false_ne_true, if_pos sign, rest,
        List.length_cons, Nat.add_comm]
    · cases whole

end Lexeme

end SuiteMigration
