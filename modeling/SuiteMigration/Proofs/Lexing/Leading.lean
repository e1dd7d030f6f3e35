import Mathlib.Tactic.Common
import SuiteMigration.Proofs.Lexing.Extent
import SuiteMigration.Proofs.Lexing.Literals

/-!
# What a text begins with

A text is cut into pieces from left to right, so what it is cut into first decides where the rest
begins. A piece leads a rest if the text made of the two is cut into the piece first. A token that
leads one rest leads any other that can stand for it. Exceptions are a lone backquote and a lone
number sign, which look for the end of a name and of a literal, and a literal that is not closed,
which ends only where its line does.

## Main definitions

* `Piece.Leads` - a piece is what the text that begins with it is cut into first

## Main results

* `Piece.segment_eq_cons_iff` - a text is cut into a piece that leads it, and the pieces of the rest
* `Piece.Leads.near` - a token leads a rest that can stand for one that it leads
* `Piece.leads_punctuation` - a punctuation character leads any text
-/

namespace SuiteMigration

namespace Lexeme

/-! ### The size of a lexeme -/

theorem commentRest_le (depth : Nat) (text : List Char) : commentRest depth text ≤ text.length := by
  fun_induction commentRest depth text <;> grind

theorem stringRest_le (opened : List StringPart) (text : List Char) :
    stringRest opened text ≤ text.length := by
  fun_induction stringRest opened text <;> grind

theorem numberRest_le (text : List Char) : numberRest text ≤ text.length := by
  fun_induction numberRest text <;> simp only [List.length_cons, List.length_nil] at * <;> omega

theorem operator_le (text : List Char) : operator text ≤ text.length := by
  fun_induction operator text <;> grind

theorem takeWhile_le (runs : Char → Bool) (text : List Char) :
    (text.takeWhile runs).length ≤ text.length :=
  (List.takeWhile_prefix runs).length_le

/-- The text up to a closing sequence is no longer than the text that was searched. -/
theorem through?_le {closer text : List Char} {length : Nat}
    (found : through? closer text = some length) : length ≤ text.length := by
  induction text generalizing length with
  | nil => cases found
  | cons c rest ih =>
    rw [through?] at found
    split at found
    · next start =>
      obtain rfl := Option.some.inj found
      exact (List.isPrefixOf_iff_prefix.1 start).length_le
    · obtain ⟨before, later, rfl⟩ := Option.map_eq_some_iff.1 found
      exact Nat.succ_le_succ (ih later)

theorem rawString_le (text : List Char) : rawString text ≤ text.length := by
  rcases Nat.eq_zero_or_pos (rawString text) with zero | pos
  · omega
  · obtain ⟨signs, rest, length, -, quote, found, length_eq⟩ := exists_of_rawString pos
    have size := congrArg List.length quote
    have within := through?_le found
    rw [List.length_drop, List.length_cons] at size
    omega

theorem plainName_le (text : List Char) : plainName text ≤ text.length := by
  cases text with
  | nil => exact Nat.le_refl _
  | cons c rest =>
    have run := takeWhile_le (fun d => Text.isIdentifierContinue d || d == '$') rest
    rw [plainName, List.length_cons]
    split <;> omega

theorem identifier_le (text : List Char) : identifier text ≤ text.length := by
  unfold identifier
  split
  · next rest =>
    have run := takeWhile_le isQuotable rest
    simp only [List.length_cons]
    split
    · next closed =>
      rw [Bool.and_eq_true, beq_iff_eq] at closed
      have some : rest.drop (rest.takeWhile isQuotable).length ≠ [] := by
        intro none
        rw [none] at closed
        cases closed.2
      have short := List.drop_eq_nil_iff.not.1 some
      omega
    · omega
  · next rest =>
    have run := takeWhile_le (fun c => c.isAlphanum || c == '_') rest
    simp only [List.length_cons]
    split <;> omega
  · exact plainName_le _

theorem newline_le (text : List Char) : newline text ≤ text.length := by
  unfold newline
  split <;> simp

theorem blockComment_le (text : List Char) : blockComment text ≤ text.length := by
  unfold blockComment
  split
  · next rest =>
    have := commentRest_le 1 rest
    simp only [List.length_cons]
    omega
  · omega

theorem lineComment_le (text : List Char) : lineComment text ≤ text.length := by
  unfold lineComment
  split
  · next rest =>
    have := takeWhile_le (fun c => !isLineBreak c) rest
    simp only [List.length_cons]
    omega
  · omega

theorem string_le (text : List Char) : string text ≤ text.length := by
  unfold string
  split
  · next rest =>
    have := stringRest_le [.block] rest
    simp only [List.length_cons]
    omega
  · next rest _ =>
    have := stringRest_le [.line] rest
    simp only [List.length_cons]
    omega
  · omega

theorem poundIdentifier_le (text : List Char) : poundIdentifier text ≤ text.length := by
  cases text with
  | nil => exact Nat.le_refl _
  | cons c rest =>
    by_cases sign : c = '#'
    · subst sign
      have := plainName_le rest
      rw [poundIdentifier_sign]
      split <;> simp only [List.length_cons] <;> omega
    · unfold poundIdentifier
      split
      · next heq => exact absurd (List.cons.inj heq).1 sign
      · omega

theorem number_le (text : List Char) : number text ≤ text.length := by
  unfold number
  split
  · next rest =>
    have := numberRest_le rest
    split <;> simp only [List.length_cons] <;> omega
  · omega

theorem arrow_le (text : List Char) : arrow text ≤ text.length := by
  unfold arrow
  split <;> simp

theorem range_le (text : List Char) : range text ≤ text.length := by
  unfold range
  split <;> simp

end Lexeme

/-- Each class of punctuation has one character. -/
theorem TokenKind.ofPunctuation?_injective {c d : Char} {kind : TokenKind}
    (first : ofPunctuation? c = some kind) (second : ofPunctuation? d = some kind) : c = d := by
  unfold ofPunctuation? at first second
  split at first <;> cases first <;> split at second <;> first | rfl | cases second

namespace Piece

open Lexeme

theorem punctuation_le (text : List Char) : punctuation text ≤ text.length := by
  unfold punctuation
  split
  · split <;> simp
  · omega

/-- No class takes more characters than there are. -/
theorem extent_le {rule : Rule} (member : rule ∈ rules) (text : List Char) :
    rule.extent text ≤ text.length := by
  simp only [rules, List.mem_cons, List.not_mem_nil, or_false] at member
  rcases member with rfl | rfl | rfl | rfl | rfl | rfl | rfl | rfl | rfl | rfl | rfl | rfl | rfl
  · exact newline_le text
  · exact takeWhile_le _ _
  · exact blockComment_le text
  · exact lineComment_le text
  · exact string_le text
  · exact rawString_le text
  · exact poundIdentifier_le text
  · exact number_le text
  · exact identifier_le text
  · exact arrow_le text
  · exact range_le text
  · exact operator_le text
  · exact punctuation_le text

/-- The first rule that matches never takes more than there is. -/
theorem extent_first_le {text : List Char} (nonempty : text ≠ []) :
    (first text rules).2 ≤ text.length := by
  have all : ∀ rule ∈ rules, rule.extent text ≤ text.length := fun _ member => extent_le member text
  revert all
  generalize rules = some_rules
  intro all
  induction some_rules with
  | nil => exact List.length_pos_iff.2 nonempty
  | cons rule later ih =>
    rw [first]
    split
    · exact all rule List.mem_cons_self
    · exact ih fun rule member => all rule (List.mem_cons_of_mem _ member)

/-! ### Cutting off a piece -/

/-- The text that begins with the piece is cut into the piece first. -/
def Leads (piece : Piece) (rest : List Char) : Prop :=
  ∃ rule, first (piece.text ++ rest) rules = (rule, piece.text.length) ∧
    rule.piece piece.text = piece

/-- A piece that leads a text is not empty. -/
theorem Leads.pos {piece : Piece} {rest : List Char} (leads : piece.Leads rest) :
    0 < piece.text.length := by
  obtain ⟨rule, found, -⟩ := leads
  have pos := first_pos (piece.text ++ rest) rules
  rwa [found] at pos

/-- Fuel for every character is enough, and more of it changes nothing. -/
theorem segmentWithin_congr {fuel fuel' : Nat} {text : List Char} (enough : text.length ≤ fuel)
    (enough' : text.length ≤ fuel') : segmentWithin fuel text = segmentWithin fuel' text := by
  induction fuel generalizing text fuel' with
  | zero =>
    rw [List.length_eq_zero_iff.1 (Nat.le_zero.1 enough)]
    cases fuel' <;> rfl
  | succ fuel ih =>
    cases text with
    | nil => cases fuel' <;> rfl
    | cons c rest =>
      rw [List.length_cons] at enough enough'
      obtain ⟨fuel', rfl⟩ := Nat.exists_eq_succ_of_ne_zero (by omega : fuel' ≠ 0)
      have pos := first_pos (c :: rest) rules
      have shorter : ((c :: rest).drop (first (c :: rest) rules).2).length ≤ rest.length := by
        rw [List.length_drop, List.length_cons]
        omega
      simp only [segmentWithin]
      rw [@ih fuel' _ (by omega) (by omega)]

/-- The first piece of a text, and the pieces of the rest. -/
theorem segment_of_first {text : List Char} {rule : Rule} {extent : Nat} (nonempty : text ≠ [])
    (found : first text rules = (rule, extent)) :
    segment text = rule.piece (text.take extent) :: segment (text.drop extent) := by
  obtain ⟨c, rest, rfl⟩ := List.exists_cons_of_ne_nil nonempty
  have pos := first_pos (c :: rest) rules
  rw [found] at pos
  rw [segment, List.length_cons, segmentWithin]
  simp only [found]
  rw [segment, segmentWithin_congr]
  · rw [List.length_drop, List.length_cons]
    omega
  · exact Nat.le_refl _

/-- A text that a piece leads is cut into that piece and the pieces of the rest. -/
theorem Leads.segment {piece : Piece} {rest : List Char} (leads : piece.Leads rest) :
    segment (piece.text ++ rest) = piece :: segment rest := by
  have pos := leads.pos
  obtain ⟨rule, found, made⟩ := leads
  have nonempty : piece.text ++ rest ≠ [] :=
    List.append_ne_nil_of_left_ne_nil (List.length_pos_iff.1 pos) _
  rw [segment_of_first nonempty found, List.take_left, List.drop_left, made]

/-- A text is cut into a piece that leads it, and the pieces of the rest. -/
theorem segment_eq_cons_iff {text : List Char} {piece : Piece} {later : List Piece} :
    Piece.segment text = piece :: later ↔
      ∃ rest, text = piece.text ++ rest ∧ piece.Leads rest ∧ Piece.segment rest = later := by
  constructor
  · intro cut
    have nonempty : text ≠ [] := by
      rintro rfl
      cases cut
    obtain ⟨⟨rule, extent⟩, found⟩ : ∃ found, first text rules = found := ⟨_, rfl⟩
    rw [segment_of_first nonempty found, List.cons.injEq] at cut
    have text_eq : piece.text = text.take extent := by
      have kept := text_piece_first text (text.take extent)
      rw [found] at kept
      rw [← cut.1]
      exact kept
    have whole : extent ≤ text.length := by
      have le := extent_first_le nonempty
      rwa [found] at le
    refine ⟨text.drop extent, ?_, ⟨rule, ?_, ?_⟩, cut.2⟩
    · rw [text_eq, List.take_append_drop]
    · rw [text_eq, List.take_append_drop, found, List.length_take, Nat.min_eq_left whole]
    · rw [text_eq, cut.1]
  · rintro ⟨rest, rfl, leads, rfl⟩
    exact leads.segment

/-! ### Tokens -/

/-- The classes of tokens. -/
def tokenRules : List Rule :=
  rules.drop 4

/-- What begins no trivia is cut as its first token. -/
theorem first_eq_of_plain {text : List Char} (line : Lexeme.newline text = 0)
    (blank : Lexeme.blanks text = 0) (block : Lexeme.blockComment text = 0)
    (comment : Lexeme.lineComment text = 0) : first text rules = first text tokenRules := by
  simp [rules, tokenRules, first, line, blank, block, comment]

/-- A token begins with no trivia. -/
theorem plain_of_token {text taken : List Char} {kind : TokenKind} {rule : Rule} {extent : Nat}
    (found : first text rules = (rule, extent)) (made : rule.piece taken = .token kind taken) :
    Lexeme.newline text = 0 ∧ Lexeme.blanks text = 0 ∧ Lexeme.blockComment text = 0 ∧
      Lexeme.lineComment text = 0 := by
  rw [rules, first] at found
  split at found
  · cases (Prod.mk.inj found).1
    cases made
  next line =>
  rw [first] at found
  split at found
  · cases (Prod.mk.inj found).1
    cases made
  next blank =>
  rw [first] at found
  split at found
  · cases (Prod.mk.inj found).1
    cases made
  next block =>
  rw [first] at found
  split at found
  · cases (Prod.mk.inj found).1
    cases made
  next comment =>
    exact ⟨by simpa using line, by simpa using blank, by simpa using block, by simpa using comment⟩

/-- A token that begins with a quote is a string literal. -/
theorem string_of_leads {kind : TokenKind} {taken rest : List Char}
    (leads : (Piece.token kind ('"' :: taken)).Leads rest) :
    Lexeme.string ('"' :: taken ++ rest) = taken.length + 1 := by
  obtain ⟨rule, found, -⟩ := leads
  have pos : 0 < Lexeme.string ('"' :: (taken ++ rest)) := by
    rw [string_quote]
    split <;> omega
  simp only [Piece.text, List.cons_append, List.length_cons] at found ⊢
  simp only [rules, first, Lexeme.newline, Lexeme.blanks, List.takeWhile_cons, isBlank,
    Lexeme.blockComment, Lexeme.lineComment, pos, if_true] at found
  simpa using congrArg Prod.snd found

/-- Two texts that the same classes take alike, up to the first class that takes anything, are cut
alike. -/
theorem first_congr {old new : List Char} {size : Nat} {rules : List Rule}
    (alike : ∀ rule ∈ rules, (rule.extent old = 0 → rule.extent new = 0) ∧
      (0 < size → rule.extent old = size → rule.extent new = size))
    (whole : (first old rules).2 = size) : first new rules = first old rules := by
  induction rules with
  | nil => rfl
  | cons rule later ih =>
    rw [List.forall_mem_cons] at alike
    rw [first] at whole ⊢
    rw [first]
    by_cases pos : 0 < rule.extent old
    · rw [if_pos pos] at whole ⊢
      have same := alike.1.2 (whole ▸ pos) whole
      rw [if_pos (by omega), same]
      exact Prod.ext rfl whole.symm
    · rw [if_neg pos] at whole ⊢
      rw [if_neg (by have := alike.1.1 (by omega); omega)]
      exact ih alike.2 whole

/-! ### Exchanging what follows -/

variable {c : Char} {cs old new : List Char}

/-- No comment starts where both kinds of comment are empty. -/
theorem startsComment_eq_false_iff {text : List Char} : startsComment text = false ↔
    Lexeme.blockComment text = 0 ∧ Lexeme.lineComment text = 0 := by
  unfold startsComment Lexeme.blockComment Lexeme.lineComment
  split <;> simp_all

theorem newline_cons_eq_zero_iff (rest : List Char) :
    Lexeme.newline (c :: rest) = 0 ↔ isLineBreak c = false := by
  rw [Lexeme.newline.eq_def]
  split
  · next heq => simp [(List.cons.inj heq).1, isLineBreak]
  · next heq => simp [(List.cons.inj heq).1, isLineBreak]
  · next heq => simp [(List.cons.inj heq).1, isLineBreak]
  · next both line carriage =>
    simpa [isLineBreak] using
      ⟨fun eq => line rest (by rw [eq]), fun eq => carriage rest (by rw [eq])⟩

theorem blanks_cons_eq_zero_iff (rest : List Char) :
    Lexeme.blanks (c :: rest) = 0 ↔ isBlank c = false := by
  rw [Lexeme.blanks, List.takeWhile_cons]
  cases isBlank c <;> simp

theorem string_of_ne (other : c ≠ '"') (rest : List Char) : Lexeme.string (c :: rest) = 0 := by
  unfold Lexeme.string
  split
  · next heq => exact absurd (List.cons.inj heq).1 other
  · next heq => exact absurd (List.cons.inj heq).1 other
  · rfl

theorem rawString_of_ne (other : c ≠ '#') (rest : List Char) :
    Lexeme.rawString (c :: rest) = 0 := by
  rcases Nat.eq_zero_or_pos (Lexeme.rawString (c :: rest)) with zero | pos
  · exact zero
  · obtain ⟨signs, later, length, run, -⟩ := exists_of_rawString pos
    simp [other] at run

theorem poundIdentifier_of_ne (other : c ≠ '#') (rest : List Char) :
    Lexeme.poundIdentifier (c :: rest) = 0 := by
  unfold Lexeme.poundIdentifier
  split
  · next heq => exact absurd (List.cons.inj heq).1 other
  · rfl

/-- An arrow is decided by two characters. -/
theorem arrow_cons (c : Char) (rest : List Char) :
    Lexeme.arrow (c :: rest) = if c = '-' ∧ rest.head? = some '>' then 2 else 0 := by
  unfold Lexeme.arrow
  split
  · next heq =>
    obtain ⟨rfl, rfl⟩ := List.cons.inj heq
    rfl
  · next other =>
    rw [if_neg]
    rintro ⟨rfl, follows⟩
    cases rest with
    | nil => cases follows
    | cons d rest => exact other rest (by rw [Option.some.inj follows])

/-- A range operator is decided by three characters. -/
theorem range_cons (c : Char) (rest : List Char) : Lexeme.range (c :: rest) =
    if c = '.' ∧ (rest.take 2 = ['.', '.'] ∨ rest.take 2 = ['.', '<']) then 3 else 0 := by
  unfold Lexeme.range
  split
  · next heq =>
    obtain ⟨rfl, rfl⟩ := List.cons.inj heq
    rfl
  · next heq =>
    obtain ⟨rfl, rfl⟩ := List.cons.inj heq
    rfl
  · next dots half =>
    rw [if_neg]
    rintro ⟨rfl, follows⟩
    have split := (List.take_append_drop 2 rest).symm
    rcases follows with two | two
    · rw [two] at split
      exact dots _ (by rw [split]; rfl)
    · rw [two] at split
      exact half _ (by rw [split]; rfl)

section Near

variable (near : Near old new)

include near

/-- Two characters that are no halting ones are seen in the first text too. -/
theorem take_two_of_near {d e : Char} (first : d ∉ '/' :: haltingCharacters)
    (second : e ∉ '/' :: haltingCharacters) (begins : new.take 2 = [d, e]) :
    old.take 2 = [d, e] := by
  have ne_head {rest : List Char} {c : Char} (halts : Halts rest) (starts : rest.head? = some c)
      (other : c ∉ '/' :: haltingCharacters) : False := by
    refine other ?_
    rcases halts.head starts with member | rfl
    · exact List.mem_cons_of_mem _ member
    · exact List.mem_cons_self
  have new_eq : new = d :: e :: new.drop 2 := by
    have split := (List.take_append_drop 2 new).symm
    rwa [begins] at split
  cases near with
  | halt halts =>
    rw [new_eq] at halts
    exact (ne_head halts rfl first).elim
  | once _ halts =>
    rw [(List.cons.inj new_eq).2] at halts
    exact (ne_head halts rfl second).elim
  | twice => exact begins

/-- A text that begins no arrow begins none before another rest that starts alike. -/
theorem arrow_eq_zero_of_near (zero : Lexeme.arrow (c :: cs ++ old) = 0) :
    Lexeme.arrow (c :: cs ++ new) = 0 := by
  rw [List.cons_append, arrow_cons] at zero ⊢
  rw [if_neg]
  rintro ⟨rfl, follows⟩
  have follows' : (cs ++ old).head? = some '>' := by
    cases cs with
    | nil => exact near.head follows (by decide)
    | cons d cs => exact follows
  rw [if_pos ⟨rfl, follows'⟩] at zero
  cases zero

/-- A text that begins no range operator begins none before another rest that starts alike. -/
theorem range_eq_zero_of_near (zero : Lexeme.range (c :: cs ++ old) = 0) :
    Lexeme.range (c :: cs ++ new) = 0 := by
  rw [List.cons_append, range_cons] at zero ⊢
  rw [if_neg]
  rintro ⟨rfl, follows⟩
  have follows' {d : Char} (other : d ∉ '/' :: haltingCharacters)
      (two : (cs ++ new).take 2 = ['.', d]) : (cs ++ old).take 2 = ['.', d] := by
    match cs with
    | [] => exact take_two_of_near near (by decide) other two
    | [e] =>
      rw [List.singleton_append, List.take_succ_cons, List.cons.injEq] at two ⊢
      refine ⟨two.1, ?_⟩
      have begins : new.head? = some d := by
        have head := congrArg List.head? two.2
        rwa [List.head?_take] at head
      have same := near.head begins other
      cases old with
      | nil => cases same
      | cons f old => rw [Option.some.inj same]; rfl
    | e :: f :: cs => exact two
  rw [if_pos ⟨rfl, follows.imp (follows' (by decide)) (follows' (by decide))⟩] at zero
  cases zero

/-- A text that begins no name and no back quote begins none before another rest that starts alike. -/
theorem identifier_eq_zero_of_near (other : c ≠ '\x60')
    (zero : Lexeme.identifier (c :: cs ++ old) = 0) : Lexeme.identifier (c :: cs ++ new) = 0 := by
  by_cases dollar : c = '$'
  · subst dollar
    simp only [List.cons_append, Lexeme.identifier] at zero ⊢
    split at zero
    · cases zero
    next none =>
    have none : ((cs ++ old).takeWhile fun c => c.isAlphanum || c == '_').length = 0 := by
      simpa using none
    have none' : ((cs ++ new).takeWhile fun c => c.isAlphanum || c == '_').length = 0 := by
      cases cs with
      | nil => exact @Near.takeWhile _ _ [] near _ halting_alphanum none
      | cons d cs =>
        rw [List.cons_append, List.takeWhile_cons] at none ⊢
        split at none
        · cases none
        · next plain => rw [if_neg plain]; rfl
    rw [none']
    rfl
  · rw [List.cons_append, identifier_plain other dollar, Lexeme.plainName] at zero ⊢
    split at zero
    · omega
    · next start => rw [if_neg start]

end Near

/-- The classes of tokens are the same before a near text, for a text that begins with neither a
number sign nor a backquote. -/
theorem first_tokenRules_of_near (near : Near old new) (sign : c ≠ '#') (backquote : c ≠ '\x60')
    (plain : startsComment (c :: cs ++ old) = false)
    (slash : (c :: cs).getLast? = some '/' → new.head? = some '/' → old.head? = some '/')
    (ended : c = '"' → IsClosed (c :: cs) ∨ old ≠ [] ∧ endsLine new = true)
    (whole : (first (c :: cs ++ old) tokenRules).2 = (c :: cs).length) :
    first (c :: cs ++ new) tokenRules = first (c :: cs ++ old) tokenRules := by
  refine first_congr (fun rule member => ?_) whole
  simp only [tokenRules, rules, List.drop_succ_cons, List.drop_zero, List.mem_cons,
    List.not_mem_nil, or_false] at member
  -- A class that takes nothing of the old text and nothing of the new one is out of the question.
  have never {rule : Rule} (none : ∀ rest, rule.extent (c :: rest) = 0) :
      (rule.extent (c :: cs ++ old) = 0 → rule.extent (c :: cs ++ new) = 0) ∧
        (0 < (c :: cs).length → rule.extent (c :: cs ++ old) = (c :: cs).length →
          rule.extent (c :: cs ++ new) = (c :: cs).length) := by
    rw [List.cons_append, List.cons_append, none, none]
    exact ⟨id, fun _ => id⟩
  rcases member with rfl | rfl | rfl | rfl | rfl | rfl | rfl | rfl | rfl
  · by_cases quote : c = '"'
    · subst quote
      refine ⟨fun zero => ?_, fun _ whole => near.string whole (ended rfl)⟩
      have zero : Lexeme.string ('"' :: (cs ++ old)) = 0 := zero
      rw [string_quote] at zero
      split at zero <;> omega
    · exact never (string_of_ne quote)
  · exact never (rawString_of_ne sign)
  · exact never (poundIdentifier_of_ne sign)
  · refine ⟨fun zero => ?_, fun _ => near.number (List.cons_ne_nil _ _)⟩
    have zero : Lexeme.number (c :: (cs ++ old)) = 0 := zero
    show Lexeme.number (c :: (cs ++ new)) = 0
    rw [Lexeme.number] at zero ⊢
    split at zero
    · omega
    · next other => rw [if_neg other]
  · exact ⟨identifier_eq_zero_of_near near backquote, fun _ => near.identifier (List.cons_ne_nil _ _)⟩
  · refine ⟨arrow_eq_zero_of_near near, fun _ whole => ?_⟩
    have whole : Lexeme.arrow (c :: (cs ++ old)) = cs.length + 1 := whole
    show Lexeme.arrow (c :: (cs ++ new)) = cs.length + 1
    rw [arrow_cons] at whole ⊢
    split at whole
    · next arrow =>
      -- Both characters are part of the token.
      obtain ⟨d, rfl⟩ := List.length_eq_one_iff.1 (Nat.succ.inj whole).symm
      exact if_pos arrow
    · omega
  · refine ⟨range_eq_zero_of_near near, fun _ whole => ?_⟩
    have whole : Lexeme.range (c :: (cs ++ old)) = cs.length + 1 := whole
    show Lexeme.range (c :: (cs ++ new)) = cs.length + 1
    rw [range_cons] at whole ⊢
    split at whole
    · next range =>
      have long : 2 ≤ cs.length := by omega
      have two : (cs ++ new).take 2 = (cs ++ old).take 2 := take_two_append long
      rw [two, if_pos range]
      exact whole
    · omega
  · refine ⟨fun zero => ?_, fun _ whole => near.operator slash whole⟩
    have zero : Lexeme.operator (c :: (cs ++ old)) = 0 := zero
    show Lexeme.operator (c :: (cs ++ new)) = 0
    rw [operator_cons_eq_zero_iff] at zero ⊢
    refine .inr (zero.resolve_left fun comment => ?_)
    rw [List.cons_append, comment] at plain
    cases plain
  · exact ⟨id, fun _ => id⟩

/-- The tokens that look beyond the next characters: a lone backquote and a lone number sign. -/
def isLone (text : List Char) : Bool :=
  text == ['\x60'] || text == ['#']

/-- At a back quote there is a quoted name or an unknown character. -/
theorem first_backquote (rest : List Char) : first ('\x60' :: rest) rules =
    if 0 < Lexeme.identifier ('\x60' :: rest) then
      (⟨Lexeme.identifier, .token .identifier⟩, Lexeme.identifier ('\x60' :: rest))
    else (unknown, 1) := by
  simp [rules, first, Lexeme.newline, Lexeme.blanks, isBlank, Lexeme.blockComment,
    Lexeme.lineComment, Lexeme.string, rawString_of_ne, poundIdentifier_of_ne, Lexeme.number,
    arrow_cons, range_cons, Lexeme.operator, isOperatorChar, punctuation,
    TokenKind.ofPunctuation?]

/-- At a number sign there is a raw string, a directive or an unknown character. -/
theorem first_numberSign (rest : List Char) : first ('#' :: rest) rules =
    if 0 < Lexeme.rawString ('#' :: rest) then
      (⟨Lexeme.rawString, .token .stringLiteral⟩, Lexeme.rawString ('#' :: rest))
    else if 0 < Lexeme.poundIdentifier ('#' :: rest) then
      (⟨Lexeme.poundIdentifier, .token .poundIdentifier⟩, Lexeme.poundIdentifier ('#' :: rest))
    else (unknown, 1) := by
  have start : Text.isIdentifierStart '#' = false := by decide +kernel
  simp [rules, first, Lexeme.newline, Lexeme.blanks, isBlank, Lexeme.blockComment,
    Lexeme.lineComment, Lexeme.string, Lexeme.number, identifier_plain, Lexeme.plainName, start,
    arrow_cons, range_cons, Lexeme.operator, isOperatorChar, punctuation,
    TokenKind.ofPunctuation?]

/-- A name begins neither with a number sign nor with a quote. -/
theorem ne_of_plainName_pos {rest : List Char} (pos : 0 < Lexeme.plainName (c :: rest)) :
    c ≠ '#' ∧ c ≠ '"' := by
  have none : ∀ d ∈ ['#', '"'], (Text.isIdentifierStart d || d == '_') = false :=
    eq_false_of_any (by decide +kernel)
  rw [Lexeme.plainName] at pos
  split at pos
  · next start =>
    constructor <;> rintro rfl
    · rw [none '#' (by simp)] at start
      cases start
    · rw [none '"' (by simp)] at start
      cases start
  · omega

/-- A directive is never read as the start of a raw string, whatever comes behind it. -/
theorem rawString_eq_zero_of_poundIdentifier
    (whole : Lexeme.poundIdentifier ('#' :: cs ++ old) = cs.length + 1) (new : List Char) :
    Lexeme.rawString ('#' :: cs ++ new) = 0 := by
  rw [List.cons_append, poundIdentifier_sign] at whole
  split at whole
  · cases whole
  next name =>
  cases cs with
  | nil => exact absurd (Nat.succ.inj whole) name
  | cons d cs =>
    obtain ⟨sign, quote⟩ := ne_of_plainName_pos (Nat.pos_of_ne_zero name)
    rcases Nat.eq_zero_or_pos (Lexeme.rawString ('#' :: d :: cs ++ new)) with zero | pos
    · exact zero
    · obtain ⟨signs, rest, length, run, quoted, -⟩ := exists_of_rawString pos
      simp only [List.cons_append, List.takeWhile_cons, beq_self_eq_true, if_true, beq_iff_eq, sign,
        if_false, List.length_cons, List.length_nil] at run
      obtain rfl : signs = 0 := by omega
      exact absurd (List.cons.inj quoted).1 quote

/-- What a number sign begins is read alike before another rest that starts alike. -/
theorem first_numberSign_of_near (near : Near old new) (nonempty : cs ≠ [])
    (whole : (first ('#' :: cs ++ old) rules).2 = ('#' :: cs).length) :
    first ('#' :: cs ++ new) rules = first ('#' :: cs ++ old) rules := by
  rw [List.cons_append, first_numberSign] at whole ⊢
  rw [List.cons_append, first_numberSign]
  by_cases raw : 0 < Lexeme.rawString ('#' :: (cs ++ old))
  · rw [if_pos raw] at whole ⊢
    have same : Lexeme.rawString ('#' :: (cs ++ new)) = ('#' :: cs).length :=
      rawString_append new (List.cons_ne_nil _ _) whole
    rw [same, if_pos (by simp), ← whole]
  rw [if_neg raw] at whole ⊢
  by_cases name : 0 < Lexeme.poundIdentifier ('#' :: (cs ++ old))
  · rw [if_pos name] at whole ⊢
    have none : Lexeme.rawString ('#' :: (cs ++ new)) = 0 :=
      rawString_eq_zero_of_poundIdentifier whole new
    have same : Lexeme.poundIdentifier ('#' :: (cs ++ new)) = cs.length + 1 :=
      near.poundIdentifier whole
    have whole : Lexeme.poundIdentifier ('#' :: (cs ++ old)) = cs.length + 1 := whole
    rw [none, if_neg (Nat.lt_irrefl 0), same, if_pos (Nat.succ_pos _), whole]
  · rw [if_neg name] at whole
    exact absurd (List.length_eq_zero_iff.1 (Nat.succ.inj whole).symm) nonempty

/-- What a back quote begins is read alike before any other rest. -/
theorem first_backquote_of_near (nonempty : cs ≠ []) (new : List Char)
    (whole : (first ('\x60' :: cs ++ old) rules).2 = ('\x60' :: cs).length) :
    first ('\x60' :: cs ++ new) rules = first ('\x60' :: cs ++ old) rules := by
  rw [List.cons_append, first_backquote] at whole ⊢
  rw [List.cons_append, first_backquote]
  by_cases name : 0 < Lexeme.identifier ('\x60' :: (cs ++ old))
  · rw [if_pos name] at whole ⊢
    have same : Lexeme.identifier ('\x60' :: (cs ++ new)) = cs.length + 1 :=
      identifier_quoted new whole
    have whole : Lexeme.identifier ('\x60' :: (cs ++ old)) = cs.length + 1 := whole
    rw [same, if_pos (Nat.succ_pos _), whole]
  · rw [if_neg name] at whole
    exact absurd (List.length_eq_zero_iff.1 (Nat.succ.inj whole).symm) nonempty

/-- A token that leads one rest leads another one that can stand for it. A literal must be closed or
end with its line, and a slash at the end must not come to stand before another one. -/
theorem Leads.near {kind : TokenKind} {text : List Char}
    (leads : (Piece.token kind text).Leads old) (near : Near old new) (whole : isLone text = false)
    (slash : text.getLast? = some '/' → new.head? = some '/' → old.head? = some '/')
    (ended : text.head? = some '"' → IsClosed text ∨ old ≠ [] ∧ endsLine new = true) :
    (Piece.token kind text).Leads new := by
  have pos := leads.pos
  obtain ⟨rule, found, made⟩ := leads
  simp only [Piece.text] at pos found made
  obtain ⟨c, cs, rfl⟩ := List.exists_cons_of_ne_nil (List.length_pos_iff.1 pos)
  have size : (first (c :: cs ++ old) rules).2 = (c :: cs).length := by rw [found]
  suffices same : first (c :: cs ++ new) rules = first (c :: cs ++ old) rules from
    ⟨rule, same.trans found, made⟩
  -- Number signs and back quotes have rules of their own. For other characters no comment begins in
  -- either text, and the rules for tokens decide.
  by_cases sign : c = '#'
  · subst sign
    refine first_numberSign_of_near near ?_ size
    rintro rfl
    cases whole
  by_cases backquote : c = '\x60'
  · subst backquote
    refine first_backquote_of_near ?_ new size
    rintro rfl
    cases whole
  obtain ⟨line, blank, block, comment⟩ := plain_of_token found made
  have plain := startsComment_eq_false_iff.2 ⟨block, comment⟩
  have plain' : startsComment (c :: cs ++ new) = false := by
    cases cs with
    | nil => exact near.startsComment_eq_false (fun ends => slash (by rw [ends]; rfl)) plain
    | cons d cs =>
      rw [List.cons_append, startsComment_cons] at plain ⊢
      exact plain
  obtain ⟨block', comment'⟩ := startsComment_eq_false_iff.1 plain'
  have line' : Lexeme.newline (c :: cs ++ new) = 0 :=
    (newline_cons_eq_zero_iff _).2 ((newline_cons_eq_zero_iff _).1 line)
  have blank' : Lexeme.blanks (c :: cs ++ new) = 0 :=
    (blanks_cons_eq_zero_iff _).2 ((blanks_cons_eq_zero_iff _).1 blank)
  rw [first_eq_of_plain line blank block comment] at size ⊢
  rw [first_eq_of_plain line' blank' block' comment']
  exact first_tokenRules_of_near near sign backquote plain slash
    (fun quote => ended (by rw [quote]; rfl)) size

/-! ### Punctuation -/

/-- The class that wins is one of those tried, or the last resort. -/
theorem first_mem (text : List Char) (rules : List Rule) :
    (first text rules).1 ∈ rules ∧ 0 < (first text rules).1.extent text ∧
        (first text rules).2 = (first text rules).1.extent text ∨
      first text rules = (unknown, 1) := by
  induction rules with
  | nil => exact .inr rfl
  | cons rule later ih =>
    rw [first]
    split
    · next pos => exact .inl ⟨List.mem_cons_self, pos, rfl⟩
    · exact ih.imp_left (.imp_left (List.mem_cons_of_mem _))

/-- A token of a class of punctuation is its character. -/
theorem text_of_punctuation {c : Char} {kind : TokenKind} {text rest : List Char}
    (sign : TokenKind.ofPunctuation? c = some kind)
    (leads : (Piece.token kind text).Leads rest) : text = [c] := by
  have pos := leads.pos
  obtain ⟨rule, found, made⟩ := leads
  -- No other rule makes tokens of this kind.
  have all : ∀ rule ∈ rules, rule.piece text = .token kind text →
      rule = ⟨punctuation, fun text => .token (punctuationKind text) text⟩ := by
    unfold TokenKind.ofPunctuation? at sign
    split at sign <;> cases sign <;> simp [rules]
  have last : kind ≠ .unknown := by
    unfold TokenKind.ofPunctuation? at sign
    split at sign <;> cases sign <;> decide
  simp only [Piece.text] at found made pos
  rcases first_mem (text ++ rest) rules with ⟨member, some, extent_eq⟩ | resort
  · rw [found] at member some extent_eq
    obtain rfl := all rule member made
    simp only at some extent_eq
    obtain ⟨d, later, rfl⟩ := List.exists_cons_of_ne_nil (List.length_pos_iff.1 pos)
    rw [List.cons_append, punctuation] at some extent_eq
    split at some
    · next present =>
      rw [if_pos present, List.length_cons, Nat.succ.injEq] at extent_eq
      obtain rfl := List.length_eq_zero_iff.1 extent_eq
      obtain ⟨own, own_eq⟩ := Option.isSome_iff_exists.1 present
      have same : own = kind := by simpa [punctuationKind, own_eq] using made
      rw [same] at own_eq
      rw [TokenKind.ofPunctuation?_injective own_eq sign]
    · cases some
  · rw [found] at resort
    rw [(Prod.mk.inj resort).1] at made
    exact absurd (Piece.token.inj made).1.symm last

/-- A punctuation mark other than the period leads any text it stands before. -/
theorem leads_punctuation {c : Char} {kind : TokenKind}
    (sign : TokenKind.ofPunctuation? c = some kind) (other : c ≠ '.') (rest : List Char) :
    (Piece.token kind [c]).Leads rest := by
  have start : ∀ c ∈ ['(', ')', '[', ']', '{', '}', ',', ':', ';', '@', '\\'],
    Text.isIdentifierStart c = false := eq_false_of_any (by decide +kernel)
  refine ⟨⟨punctuation, fun text => .token (punctuationKind text) text⟩, ?_, ?_⟩
  · unfold TokenKind.ofPunctuation? at sign
    split at sign <;> cases sign
    case h_10 => exact absurd rfl other
    all_goals
      simp [rules, first, Piece.text, Lexeme.newline, Lexeme.blanks, isBlank, Lexeme.blockComment,
        Lexeme.lineComment, Lexeme.string, rawString_of_ne, poundIdentifier_of_ne, Lexeme.number,
        identifier_plain, Lexeme.plainName, start, arrow_cons, range_cons, Lexeme.operator,
        isOperatorChar, punctuation, TokenKind.ofPunctuation?]
  · simp [punctuationKind, sign, Piece.text]

end Piece

end SuiteMigration
