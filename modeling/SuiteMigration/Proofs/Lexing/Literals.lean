import Mathlib.Tactic.Common
import SuiteMigration.Proofs.Lexing.Boundaries

/-!
# Where literals end

A string literal ends at its closing quotes, and a raw one at a quote with its number signs. Both are
found within the literal, so what follows makes no difference. Without closing quotes a literal of
one line ends before the line break, and only there: before any other character it would go on.

## Main definitions

* `Lexeme.Ends` - a text before which no more literals end than before another one
* `Lexeme.EndsWithin` - the same of what is at most so long
* `Lexeme.IsClosed` - a text that is a string literal up to its end
* `Lexeme.endsLine` - a text before which a line ends

## Main results

* `Lexeme.isClosed_or` - a literal that is not closed reaches to the end of its line
* `Lexeme.Near.string`, `Lexeme.rawString_append` - a literal stays one when the text after it is
  exchanged
-/

namespace SuiteMigration.Lexeme

variable {c : Char} {old new taken rest : List Char} {opened : List StringPart}

/-! ### The parts of a literal -/

theorem eq_quotes_of_take (quotes : rest.take 2 = ['"', '"']) : rest = '"' :: '"' :: rest.drop 2 := by
  have split := (List.take_append_drop 2 rest).symm
  rwa [quotes] at split

theorem stringRest_parens (c : Char) (rest : List Char) (opened : List StringPart) :
    stringRest (.parens :: opened) (c :: rest) =
      if c = ')' then 1 + stringRest opened rest
      else if c = '(' then 1 + stringRest (.parens :: .parens :: opened) rest
      else if c = '"' ∧ rest.take 2 = ['"', '"'] then
        3 + stringRest (.block :: .parens :: opened) (rest.drop 2)
      else if c = '"' then 1 + stringRest (.line :: .parens :: opened) rest
      else 1 + stringRest (.parens :: opened) rest := by
  rw [stringRest.eq_def]
  split <;> simp_all
  next none _ _ => exact fun quotes => (none _ (eq_quotes_of_take quotes)).elim

theorem stringRest_block (c : Char) (rest : List Char) (opened : List StringPart) :
    stringRest (.block :: opened) (c :: rest) =
      if c = '"' ∧ rest.take 2 = ['"', '"'] then 3 + stringRest opened (rest.drop 2)
      else if c = '\\' ∧ rest ≠ [] then
        2 + stringRest (if rest.head? = some '(' then .parens :: .block :: opened
          else .block :: opened) rest.tail
      else 1 + stringRest (.block :: opened) rest := by
  rw [stringRest.eq_def]
  split <;> simp_all
  next noQuotes noEscape _ _ =>
    rw [if_neg fun quotes => noQuotes _ quotes.1 (eq_quotes_of_take quotes.2), if_neg]
    rintro ⟨escape, some⟩
    obtain ⟨d, later, rfl⟩ := List.exists_cons_of_ne_nil some
    exact noEscape d later escape rfl

theorem stringRest_line (c : Char) (rest : List Char) (opened : List StringPart) :
    stringRest (.line :: opened) (c :: rest) =
      if c = '\\' ∧ rest ≠ [] then
        2 + stringRest (if rest.head? = some '(' then .parens :: .line :: opened
          else .line :: opened) rest.tail
      else if c = '"' then 1 + stringRest opened rest
      else if isLineBreak c then if opened = [] then 0 else 1 + stringRest opened rest
      else 1 + stringRest (.line :: opened) rest := by
  rw [stringRest.eq_def]
  split <;> simp_all
  next noEscape _ _ _ =>
    intro escape some
    obtain ⟨d, later, rfl⟩ := List.exists_cons_of_ne_nil some
    exact (noEscape d later escape rfl).elim

/-- At the first text every literal that is open goes on, but for a literal of one line that is not
within another one, and what ends there ends at the second text too. -/
structure Ends (old new : List Char) : Prop where
  nonempty : old ≠ []
  few : ∀ opened, stringRest opened old = 0 → opened = [] ∨ opened = [.line]
  also : ∀ opened, stringRest opened old = 0 → stringRest opened new = 0

/-- Two characters of a text that reaches beyond them do not depend on what follows it. -/
theorem take_two_append (long : 2 ≤ taken.length) :
    (taken ++ new).take 2 = (taken ++ old).take 2 := by
  rw [List.take_append_of_le_length long, List.take_append_of_le_length long]

theorem drop_two_append (long : 2 ≤ taken.length) (rest : List Char) :
    (taken ++ rest).drop 2 = taken.drop 2 ++ rest :=
  List.drop_append_of_le_length long

/-- What is at most so long and ends at the first text ends at the second text too. -/
def EndsWithin (old new : List Char) (length : Nat) : Prop :=
  ∀ {opened : List StringPart} {taken : List Char}, taken.length ≤ length →
    stringRest opened (taken ++ old) = taken.length →
    stringRest opened (taken ++ new) = taken.length

namespace EndsWithin

variable (within : EndsWithin old new taken.length)

include within

/-- After one character. -/
theorem next (whole : 1 + stringRest opened (taken ++ old) = taken.length + 1) :
    1 + stringRest opened (taken ++ new) = taken.length + 1 := by
  rw [within (Nat.le_refl _) (by omega), Nat.add_comm]

/-- After three quotes. -/
theorem triple (whole : 3 + stringRest opened ((taken ++ old).drop 2) = taken.length + 1) :
    3 + stringRest opened ((taken ++ new).drop 2) = taken.length + 1 := by
  have long : 2 ≤ taken.length := by omega
  have shorter : (taken.drop 2).length = taken.length - 2 := List.length_drop
  rw [drop_two_append long] at whole ⊢
  rw [within (by omega) (by omega)]
  omega

/-- After an escape, which reaches beyond its backslash. -/
theorem escape {first second : List StringPart}
    (whole : 2 + stringRest (if (taken ++ old).head? = some '(' then first else second)
      (taken ++ old).tail = taken.length + 1) :
    taken ≠ [] ∧ 2 + stringRest (if (taken ++ new).head? = some '(' then first else second)
      (taken ++ new).tail = taken.length + 1 := by
  have nonempty : taken ≠ [] := by
    rintro rfl
    rw [List.length_nil] at whole
    omega
  have head_eq (rest : List Char) : (taken ++ rest).head? = taken.head? := by
    rw [List.head?_append, List.head?_eq_some_head nonempty, Option.some_or]
  have tail_eq (rest : List Char) : (taken ++ rest).tail = taken.tail ++ rest :=
    List.tail_append_of_ne_nil nonempty
  have shorter : taken.tail.length = taken.length - 1 := List.length_tail
  have pos := List.length_pos_iff.2 nonempty
  refine ⟨nonempty, ?_⟩
  rw [head_eq, tail_eq] at whole ⊢
  rw [within (by omega) (by omega)]
  omega

end EndsWithin

variable (ends : Ends old new)

include ends

theorem Ends.ne_zero (never : opened ≠ [] ∧ opened ≠ [.line]) : stringRest opened old ≠ 0 :=
  fun zero => (ends.few opened zero).elim never.1 never.2

/-- A quote within parentheses is followed by more than one character of the literal. -/
theorem Ends.two_le_parens
    (whole : stringRest (.line :: .parens :: opened) (taken ++ old) = taken.length) :
    2 ≤ taken.length := by
  have line : stringRest (.line :: .parens :: opened) old ≠ 0 := ends.ne_zero (by simp)
  have parens : stringRest (.parens :: opened) old ≠ 0 := ends.ne_zero (by simp)
  match taken with
  | [] => exact absurd whole line
  | [c] =>
    rw [List.singleton_append, stringRest_line, List.length_singleton] at whole
    split at whole
    · omega
    split at whole
    · omega
    split at whole
    · rw [if_neg (List.cons_ne_nil _ _)] at whole
      omega
    · omega
  | c :: d :: taken => simp

/-- A quote in a literal between triple quotes is followed by more than one character of the
literal, unless it ends it. -/
theorem Ends.two_le_block (whole : stringRest (.block :: opened) (taken ++ old) = taken.length) :
    2 ≤ taken.length := by
  have block : stringRest (.block :: opened) old ≠ 0 := ends.ne_zero (by simp)
  match taken with
  | [] => exact absurd whole block
  | [c] =>
    rw [List.singleton_append, stringRest_block, List.length_singleton] at whole
    split at whole
    · omega
    split at whole
    · omega
    · omega
  | c :: d :: taken => simp

/-- A part in parentheses, one character before the rest of it. -/
theorem Ends.parens (within : EndsWithin old new taken.length)
    (whole : stringRest (.parens :: opened) (c :: (taken ++ old)) = taken.length + 1) :
    stringRest (.parens :: opened) (c :: (taken ++ new)) = taken.length + 1 := by
  rw [stringRest_parens] at whole ⊢
  split at whole
  · next closing => rw [if_pos closing, within.next whole]
  next other =>
  rw [if_neg other]
  split at whole
  · next opening => rw [if_pos opening, within.next whole]
  next other =>
  rw [if_neg other]
  split at whole
  · next quotes =>
    have long : 2 ≤ taken.length := by omega
    rw [if_pos ⟨quotes.1, (take_two_append long).trans quotes.2⟩, within.triple whole]
  next single =>
  split at whole
  · next quote =>
    have long := ends.two_le_parens (Nat.add_left_cancel (whole.trans (Nat.add_comm _ _)))
    have single' : ¬ (c = '"' ∧ (taken ++ new).take 2 = ['"', '"']) := by
      rw [take_two_append long]
      exact single
    rw [if_neg single', if_pos quote, within.next whole]
  · next quote => rw [if_neg fun quotes => quote quotes.1, if_neg quote, within.next whole]

/-- A literal between triple quotes, one character before the rest of it. -/
theorem Ends.block (within : EndsWithin old new taken.length)
    (whole : stringRest (.block :: opened) (c :: (taken ++ old)) = taken.length + 1) :
    stringRest (.block :: opened) (c :: (taken ++ new)) = taken.length + 1 := by
  rw [stringRest_block] at whole ⊢
  split at whole
  · next quotes =>
    have long : 2 ≤ taken.length := by omega
    rw [if_pos ⟨quotes.1, (take_two_append long).trans quotes.2⟩, within.triple whole]
  next single =>
  split at whole
  · next escape =>
    obtain ⟨nonempty, whole⟩ := within.escape whole
    rw [if_neg fun quotes => absurd (quotes.1.symm.trans escape.1) (by decide),
      if_pos ⟨escape.1, List.append_ne_nil_of_left_ne_nil nonempty _⟩, whole]
  · next plain =>
    have long := ends.two_le_block (Nat.add_left_cancel (whole.trans (Nat.add_comm _ _)))
    have single' : ¬ (c = '"' ∧ (taken ++ new).take 2 = ['"', '"']) := by
      rw [take_two_append long]
      exact single
    have plain' : ¬ (c = '\\' ∧ taken ++ new ≠ []) := fun escape =>
      plain ⟨escape.1, List.append_ne_nil_of_right_ne_nil _ ends.nonempty⟩
    rw [if_neg single', if_neg plain', within.next whole]

/-- A literal of one line, one character before the rest of it. -/
theorem Ends.line (within : EndsWithin old new taken.length)
    (whole : stringRest (.line :: opened) (c :: (taken ++ old)) = taken.length + 1) :
    stringRest (.line :: opened) (c :: (taken ++ new)) = taken.length + 1 := by
  rw [stringRest_line] at whole ⊢
  split at whole
  · next escape =>
    obtain ⟨nonempty, whole⟩ := within.escape whole
    rw [if_pos ⟨escape.1, List.append_ne_nil_of_left_ne_nil nonempty _⟩, whole]
  next plain =>
  have plain' : ¬ (c = '\\' ∧ taken ++ new ≠ []) := fun escape =>
    plain ⟨escape.1, List.append_ne_nil_of_right_ne_nil _ ends.nonempty⟩
  rw [if_neg plain']
  split at whole
  · next quote => rw [if_pos quote, within.next whole]
  next other =>
  rw [if_neg other]
  split at whole
  · next lineBreak =>
    rw [if_pos lineBreak]
    split at whole
    · cases whole
    · next nested => rw [if_neg nested, within.next whole]
  · next inLine => rw [if_neg inLine, within.next whole]

/-- A literal that ends at the first text ends at the second text. -/
theorem Ends.stringRest (whole : stringRest opened (taken ++ old) = taken.length) :
    stringRest opened (taken ++ new) = taken.length := by
  -- An escape and triple quotes take more than one character, so the induction is on the length.
  induction bound : taken.length using Nat.strongRecOn generalizing taken opened with
  | _ length ih =>
    subst bound
    match opened, taken with
    | opened, [] => exact ends.also opened whole
    | [], c :: taken => cases whole
    | part :: opened, c :: taken =>
      have within : EndsWithin old new taken.length := fun shorter whole =>
        ih _ (Nat.lt_succ_of_le shorter) whole rfl
      rw [List.cons_append, List.length_cons] at whole ⊢
      cases part with
      | parens => exact ends.parens within whole
      | block => exact ends.block within whole
      | line => exact ends.line within whole

omit ends

theorem string_quote (rest : List Char) : string ('"' :: rest) =
    if rest.take 2 = ['"', '"'] then 3 + Lexeme.stringRest [.block] (rest.drop 2)
    else 1 + Lexeme.stringRest [.line] rest := by
  rw [string.eq_def]
  split <;> simp_all
  next none _ => exact fun quotes => (none _ (eq_quotes_of_take quotes)).elim

/-- The literal ends where the first text begins, so it ends where the second one does. -/
theorem Ends.string (ends : Ends old new)
    (whole : string ('"' :: taken ++ old) = taken.length + 1)
    (apart : taken.length < 2 → (taken ++ new).take 2 ≠ ['"', '"']) :
    string ('"' :: taken ++ new) = taken.length + 1 := by
  rw [List.cons_append, string_quote] at whole ⊢
  split at whole
  · next quotes =>
    have long : 2 ≤ taken.length := by omega
    have shorter : (taken.drop 2).length = taken.length - 2 := List.length_drop
    rw [drop_two_append long] at whole
    rw [if_pos ((take_two_append long).trans quotes), drop_two_append long,
      ends.stringRest (by omega)]
    omega
  · next single =>
    have single' : (taken ++ new).take 2 ≠ ['"', '"'] := by
      by_cases long : 2 ≤ taken.length
      · exact fun quotes => single ((take_two_append long).trans quotes)
      · exact apart (by omega)
    rw [if_neg single', ends.stringRest (by omega), Nat.add_comm]

/-- A line ends before the text: it is empty or begins with a line break. -/
def endsLine : List Char → Bool
  | c :: _ => isLineBreak c
  | [] => true

/-- The text is a string literal up to its end: a parenthesis after it is no part of it. -/
def IsClosed (text : List Char) : Prop :=
  Lexeme.string (text ++ [')']) = text.length

instance (text : List Char) : Decidable (IsClosed text) :=
  inferInstanceAs (Decidable (_ = _))

theorem opened_of_stringRest_eq_zero (zero : Lexeme.stringRest opened (c :: rest) = 0) :
    opened = [] ∨ opened = [.line] ∧ isLineBreak c = true := by
  match opened with
  | [] => exact .inl rfl
  | .parens :: opened =>
    rw [stringRest_parens] at zero
    split at zero <;> [skip; split at zero <;> [skip; split at zero <;> [skip; split at zero]]] <;>
      omega
  | .block :: opened =>
    rw [stringRest_block] at zero
    split at zero <;> [skip; split at zero] <;> omega
  | .line :: opened =>
    rw [stringRest_line] at zero
    split at zero
    · omega
    split at zero
    · omega
    split at zero
    · next lineBreak =>
      split at zero
      · next none => exact .inr ⟨by rw [none], lineBreak⟩
      · omega
    · omega

/-- A literal that is closed before a parenthesis is closed before any text. -/
theorem ends_parenthesis (new : List Char) : Ends [')'] new where
  nonempty := List.cons_ne_nil _ _
  few opened zero := (opened_of_stringRest_eq_zero zero).imp_right And.left
  also opened zero := by
    rcases opened_of_stringRest_eq_zero zero with rfl | ⟨-, lineBreak⟩
    · exact stringRest.eq_1 new
    · cases lineBreak

/-- What ends before some text ends where a line ends. -/
theorem ends_endsLine (nonempty : old ≠ []) (line : endsLine new = true) : Ends old new where
  nonempty := nonempty
  few opened zero := by
    obtain ⟨c, rest, rfl⟩ := List.exists_cons_of_ne_nil nonempty
    exact (opened_of_stringRest_eq_zero zero).imp_right And.left
  also opened zero := by
    obtain ⟨c, rest, rfl⟩ := List.exists_cons_of_ne_nil nonempty
    rcases opened_of_stringRest_eq_zero zero with rfl | ⟨rfl, -⟩
    · exact stringRest.eq_1 new
    · cases new with
      | nil => rfl
      | cons d new =>
        have lineBreak : isLineBreak d = true := line
        have other : d ≠ '\\' ∧ d ≠ '"' := by
          constructor <;> rintro rfl <;> exact absurd lineBreak (by decide)
        rw [stringRest_line, if_neg fun escape => other.1 escape.1, if_neg other.2,
          if_pos lineBreak, if_pos rfl]

/-- Two quotes do not end where something else follows. -/
theorem apart_of_head (begins : new.head? ≠ some '"') (short : taken.length < 2) :
    (taken ++ new).take 2 ≠ ['"', '"'] := by
  intro quotes
  have text_eq := eq_quotes_of_take quotes
  match taken with
  | [] =>
    rw [List.nil_append] at text_eq
    rw [text_eq] at begins
    exact begins rfl
  | [d] =>
    rw [List.singleton_append] at text_eq
    rw [(List.cons.inj text_eq).2] at begins
    exact begins rfl
  | d :: e :: taken => exact absurd short (by simp)

theorem head?_ne_of_endsLine (line : endsLine new = true) : new.head? ≠ some '"' := by
  cases new with
  | nil => simp
  | cons d new =>
    intro quote
    obtain rfl := Option.some.inj quote
    exact absurd (show isLineBreak '"' = true from line) (by decide)

/-- A literal is closed, or a line ends where it ends. -/
theorem isClosed_or_endsLine (whole : string ('"' :: taken ++ rest) = taken.length + 1) :
    IsClosed ('"' :: taken) ∨ endsLine rest = true := by
  by_cases line : endsLine rest = true
  · exact .inr line
  obtain ⟨c, rest, rfl⟩ : ∃ c later, rest = c :: later := by
    cases rest with
    | nil => exact absurd rfl line
    | cons c rest => exact ⟨c, rest, rfl⟩
  have inLine : ¬ isLineBreak c = true := line
  have ends : Ends (c :: rest) [')'] := by
    refine ⟨List.cons_ne_nil _ _, fun opened zero => ?_, fun opened zero => ?_⟩
    · exact (opened_of_stringRest_eq_zero zero).imp_right And.left
    · rcases opened_of_stringRest_eq_zero zero with rfl | ⟨-, lineBreak⟩
      · rfl
      · exact absurd lineBreak inLine
  exact .inl (ends.string whole fun short => apart_of_head (by decide) short)

/-- A string literal stays one if it is closed or the line ends after it. -/
theorem Near.string (near : Near old new)
    (whole : string ('"' :: taken ++ old) = taken.length + 1)
    (ended : IsClosed ('"' :: taken) ∨ old ≠ [] ∧ endsLine new = true) :
    string ('"' :: taken ++ new) = taken.length + 1 := by
  rcases ended with closed | ⟨nonempty, line⟩
  · refine (ends_parenthesis new).string closed fun short quotes => ?_
    by_cases begins : new.head? = some '"'
    · -- Three quotes in a row begin another literal.
      have same := near.head begins (by decide)
      obtain ⟨old, rfl⟩ : ∃ later, old = '"' :: later := by
        cases old with
        | nil => cases same
        | cons d old => exact ⟨old, by rw [Option.some.inj same]⟩
      match taken with
      | [] => exact absurd closed (by decide)
      | [d] =>
        obtain rfl : d = '"' := (List.cons.inj (eq_quotes_of_take quotes)).1
        have triple : string ('"' :: '"' :: '"' :: old) = 3 + Lexeme.stringRest [.block] old := rfl
        have two : string ('"' :: '"' :: '"' :: old) = 2 := whole
        omega
      | d :: e :: taken => exact absurd short (by simp)
    · exact apart_of_head begins short quotes
  · exact (ends_endsLine nonempty line).string whole
      (apart_of_head (head?_ne_of_endsLine line))

/-! ### Raw string literals -/

theorem length_le_of_through? {closer : List Char} {length : Nat}
    (found : through? closer rest = some length) : closer.length ≤ length := by
  induction rest generalizing length with
  | nil => cases found
  | cons c rest ih =>
    rw [through?] at found
    split at found
    · exact Nat.le_of_eq (Option.some.inj found)
    · obtain ⟨before, later, rfl⟩ := Option.map_eq_some_iff.1 found
      exact Nat.le_succ_of_le (ih later)

/-- The first occurrence of the closing delimiter is the first one whatever follows. -/
theorem through?_append {closer : List Char} (new : List Char) (nonempty : closer ≠ [])
    (whole : through? closer (taken ++ old) = some taken.length) :
    through? closer (taken ++ new) = some taken.length := by
  induction taken with
  | nil =>
    have none := length_le_of_through? whole
    exact absurd (List.length_eq_zero_iff.1 (Nat.le_zero.1 none)) nonempty
  | cons c taken ih =>
    rw [List.cons_append, through?, ← List.cons_append] at whole ⊢
    split at whole
    · next start =>
      have length_eq : closer.length = (c :: taken).length := Option.some.inj whole
      have same : closer = c :: taken :=
        (List.prefix_of_prefix_length_le (List.isPrefixOf_iff_prefix.1 start)
          (List.prefix_append _ _) (Nat.le_of_eq length_eq)).eq_of_length length_eq
      rw [if_pos (List.isPrefixOf_iff_prefix.2 (same ▸ List.prefix_append _ _)), length_eq]
    · next other =>
      obtain ⟨length, later, length_eq⟩ := Option.map_eq_some_iff.1 whole
      obtain rfl : length = taken.length := Nat.succ.inj length_eq
      have short := length_le_of_through? later
      -- A closing sequence that begins here would end within the text taken, where it was not seen
      -- before.
      have other' : ¬ closer.isPrefixOf (c :: taken ++ new) = true := by
        intro start
        refine other (List.isPrefixOf_iff_prefix.2 ?_)
        have within : closer <+: c :: taken :=
          List.prefix_of_prefix_length_le (List.isPrefixOf_iff_prefix.1 start)
            (List.prefix_append _ _) (Nat.le_succ_of_le short)
        exact within.trans (List.prefix_append _ _)
      rw [if_neg other', ih later]
      rfl

/-- What a raw string literal is made of. -/
theorem exists_of_rawString {text : List Char} (pos : 0 < rawString text) :
    ∃ signs rest length, (text.takeWhile (· == '#')).length = signs + 1 ∧
      text.drop (signs + 1) = '"' :: rest ∧
      through? ('"' :: List.replicate (signs + 1) '#') rest = some length ∧
      rawString text = signs + 1 + 1 + length := by
  rw [rawString] at pos ⊢
  split at pos
  · cases pos
  · next rest quote some_signs =>
    obtain ⟨signs, signs_eq⟩ := Nat.exists_eq_succ_of_ne_zero some_signs
    rw [signs_eq] at pos quote ⊢
    split at pos
    · next length found => exact ⟨signs, rest, length, rfl, quote, found, rfl⟩
    · cases pos
  · cases pos

theorem rawString_eq {text : List Char} {signs length : Nat}
    (run : (text.takeWhile (· == '#')).length = signs + 1)
    (quote : text.drop (signs + 1) = '"' :: rest)
    (found : through? ('"' :: List.replicate (signs + 1) '#') rest = some length) :
    rawString text = signs + 1 + 1 + length := by
  rw [rawString]
  simp only [run, quote, found]

/-- A run that ends within some characters ends there whatever follows. -/
theorem takeWhile_append_of_lt {runs : Char → Bool}
    (within : ((taken ++ old).takeWhile runs).length < taken.length) (new : List Char) :
    (taken ++ new).takeWhile runs = taken.takeWhile runs := by
  have shorter : (taken.takeWhile runs).length ≠ taken.length := by
    intro same
    rw [List.takeWhile_append, if_pos same, List.length_append] at within
    omega
  rw [List.takeWhile_append, if_neg shorter]

/-- A raw string literal ends with its closing delimiter. -/
theorem rawString_append (new : List Char) (nonempty : taken ≠ [])
    (whole : rawString (taken ++ old) = taken.length) :
    rawString (taken ++ new) = taken.length := by
  have pos : 0 < rawString (taken ++ old) := whole ▸ List.length_pos_iff.2 nonempty
  obtain ⟨signs, rest, length, run, quote, found, length_eq⟩ := exists_of_rawString pos
  have within : ((taken ++ old).takeWhile (· == '#')).length < taken.length := by omega
  have run_eq := takeWhile_append_of_lt within
  rw [run_eq] at run
  rw [List.drop_append_of_le_length (by omega)] at quote
  -- The opening quote is one of the characters taken.
  obtain ⟨body, body_eq⟩ : ∃ body, taken.drop (signs + 1) = '"' :: body := by
    cases dropped : taken.drop (signs + 1) with
    | nil =>
      have := congrArg List.length dropped
      rw [List.length_drop, List.length_nil] at this
      omega
    | cons c body =>
      rw [dropped] at quote
      exact ⟨body, by rw [(List.cons.inj quote).1]⟩
  rw [body_eq] at quote
  obtain rfl : body ++ old = rest := (List.cons.inj quote).2
  have length_body : body.length = length := by
    have size := congrArg List.length body_eq
    rw [List.length_drop, List.length_cons] at size
    omega
  subst length_body
  have quote' : (taken ++ new).drop (signs + 1) = '"' :: (body ++ new) := by
    rw [List.drop_append_of_le_length (by omega), body_eq]
    rfl
  rw [rawString_eq (by rw [run_eq]; exact run) quote'
    (through?_append new (List.cons_ne_nil _ _) found), ← length_eq, whole]

end SuiteMigration.Lexeme
