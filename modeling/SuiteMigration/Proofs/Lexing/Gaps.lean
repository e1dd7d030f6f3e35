import Mathlib.Tactic.Common
import SuiteMigration.Proofs.Lexing.Leading

/-!
# Gaps

Between two tokens stand blanks, line breaks and comments. The gap between them is read as trivia
as long as each comment in it ends where it should: a block comment where it is closed, and a line
comment where its line ends. Only a line comment at the end of a gap looks at the text after it, so
a gap without one is a gap in front of any text.

## Main definitions

* `IsGap` - some characters are trivia in front of a text
* `endsInLineComment` - the last piece of some trivia is a line comment

## Main results

* `Piece.isGap_of_leads` - a piece that is no token is a gap
* `IsGap.append` - two gaps make one
* `IsGap.exchange` - a gap is one in front of another text too, if its last line comment ends there
-/

namespace SuiteMigration

open Lexeme

namespace Lexeme

variable {old new taken rest : List Char} {depth : Nat}

theorem startsComment_of_ne {c : Char} (other : c ≠ '/') (rest : List Char) :
    startsComment (c :: rest) = false := by
  rw [startsComment.eq_def]
  split
  · next heq => exact absurd (List.cons.inj heq).1 other
  · next heq => exact absurd (List.cons.inj heq).1 other
  · rfl

theorem isLineBreak_of_isBlank {c : Char} (blank : isBlank c = true) : isLineBreak c = false := by
  simp only [isBlank, Bool.or_eq_true, beq_iff_eq] at blank
  rcases blank with (((rfl | rfl) | rfl) | rfl) | rfl <;> decide

/-! ### Comments -/

theorem commentRest_step (depth : Nat) (c : Char) (rest : List Char) :
    commentRest (depth + 1) (c :: rest) =
      if c = '/' ∧ rest.head? = some '*' then 2 + commentRest (depth + 2) rest.tail
      else if c = '*' ∧ rest.head? = some '/' then 2 + commentRest depth rest.tail
      else 1 + commentRest (depth + 1) rest := by
  cases rest with
  | nil =>
    rw [if_neg (by simp), if_neg (by simp)]
    exact commentRest_cons depth (by simp) (by simp)
  | cons d rest =>
    by_cases opens : c = '/' ∧ d = '*'
    · obtain ⟨rfl, rfl⟩ := opens
      rfl
    by_cases closes : c = '*' ∧ d = '/'
    · obtain ⟨rfl, rfl⟩ := closes
      rfl
    rw [List.head?_cons, if_neg (by simpa using opens), if_neg (by simpa using closes)]
    refine commentRest_cons depth (fun later first second => opens ⟨first, ?_⟩)
      (fun later first second => closes ⟨first, ?_⟩)
    · exact (List.cons.inj second).1
    · exact (List.cons.inj second).1

/-- A comment that is closed before some text is closed before any other one. -/
theorem commentRest_append (nonempty : old ≠ [])
    (whole : commentRest depth (taken ++ old) = taken.length) (new : List Char) :
    commentRest depth (taken ++ new) = taken.length := by
  -- While a comment is open, at least one more character belongs to it.
  have pos (depth : Nat) : 0 < commentRest (depth + 1) old := by
    obtain ⟨c, old, rfl⟩ := List.exists_cons_of_ne_nil nonempty
    rw [commentRest_step]
    split <;> [skip; split] <;> omega
  induction bound : taken.length using Nat.strongRecOn generalizing taken depth with
  | _ length ih =>
    subst bound
    match depth, taken with
    | 0, taken =>
      rw [commentRest] at whole ⊢
      exact whole
    | depth + 1, [] =>
      have := pos depth
      rw [List.nil_append, List.length_nil] at whole
      omega
    | depth + 1, [c] =>
      have := pos depth
      rw [List.singleton_append, commentRest_step, List.length_singleton] at whole
      split at whole <;> [skip; split at whole] <;> omega
    | depth + 1, c :: d :: taken =>
      simp only [List.cons_append, List.length_cons] at whole ⊢
      rw [commentRest_step, List.head?_cons, List.tail_cons] at whole ⊢
      have two {depth : Nat} (whole : 2 + commentRest depth (taken ++ old) = taken.length + 1 + 1) :
          2 + commentRest depth (taken ++ new) = taken.length + 1 + 1 := by
        rw [ih taken.length (by simp only [List.length_cons]; omega) (by omega) rfl]
        omega
      split at whole
      · next opens => rw [if_pos opens, two whole]
      next other =>
      rw [if_neg other]
      split at whole
      · next closes => rw [if_pos closes, two whole]
      next other =>
      have one := ih (d :: taken).length (by simp)
        (show commentRest (depth + 1) (d :: taken ++ old) = (d :: taken).length by
          rw [List.cons_append, List.length_cons]
          omega) rfl
      rw [List.cons_append, List.length_cons] at one
      rw [if_neg other, one]
      omega

/-- A run goes up to some text if nothing before it stops the run, and the text does. -/
theorem length_takeWhile_eq_iff {runs : Char → Bool} :
    ((taken ++ rest).takeWhile runs).length = taken.length ↔
      (∀ c ∈ taken, runs c = true) ∧ ∀ c, rest.head? = some c → runs c = false := by
  induction taken with
  | nil =>
    cases rest with
    | nil => simp
    | cons c rest => cases runs_c : runs c <;> simp [runs_c]
  | cons c taken ih =>
    rw [List.cons_append, List.takeWhile_cons]
    cases runs_c : runs c with
    | false => simp [runs_c]
    | true => simpa [runs_c] using ih

/-- The line of a comment goes up to where a line ends. -/
theorem length_line_eq_iff :
    ((taken ++ rest).takeWhile fun c => !isLineBreak c).length = taken.length ↔
      (∀ c ∈ taken, isLineBreak c = false) ∧ endsLine rest = true := by
  rw [length_takeWhile_eq_iff]
  cases rest <;> simp [endsLine]

theorem endsLine_append (nonempty : taken ≠ []) : endsLine (taken ++ old) = endsLine taken := by
  obtain ⟨c, taken, rfl⟩ := List.exists_cons_of_ne_nil nonempty
  rfl

end Lexeme

namespace Piece

variable {text rest : List Char} {nested : List (List Char)}

/-! ### Trivia -/

theorem first_comment (rest : List Char) : first ('/' :: '*' :: rest) rules =
    (⟨Lexeme.blockComment, fun text => .comment text (Lexeme.nestedComments text)⟩,
      2 + commentRest 1 rest) := by
  simp [rules, first, Lexeme.newline, Lexeme.blanks, isBlank, Lexeme.blockComment]

theorem first_lineComment (rest : List Char) : first ('/' :: '/' :: rest) rules =
    (⟨Lexeme.lineComment, .trivia⟩, 2 + (rest.takeWhile fun c => !isLineBreak c).length) := by
  simp [rules, first, Lexeme.newline, Lexeme.blanks, isBlank, Lexeme.blockComment,
    Lexeme.lineComment]

/-- What a piece is, and the class that takes it. -/
theorem Leads.cases {piece : Piece} (leads : piece.Leads rest) :
    piece = .newline piece.text ∧ Lexeme.newline (piece.text ++ rest) = piece.text.length ∨
    piece = .trivia piece.text ∧ Lexeme.blanks (piece.text ++ rest) = piece.text.length ∨
    piece = .comment piece.text (Lexeme.nestedComments piece.text) ∧
      Lexeme.blockComment (piece.text ++ rest) = piece.text.length ∨
    piece = .trivia piece.text ∧ Lexeme.lineComment (piece.text ++ rest) = piece.text.length ∨
    ∃ kind, piece = .token kind piece.text := by
  obtain ⟨rule, found, made⟩ := leads
  by_cases line : 0 < Lexeme.newline (piece.text ++ rest)
  · rw [rules, first, if_pos line, Prod.mk.injEq] at found
    obtain ⟨rfl, whole⟩ := found
    exact .inl ⟨made.symm, whole⟩
  by_cases blank : 0 < Lexeme.blanks (piece.text ++ rest)
  · rw [rules, first, if_neg line, first, if_pos blank, Prod.mk.injEq] at found
    obtain ⟨rfl, whole⟩ := found
    exact .inr (.inl ⟨made.symm, whole⟩)
  by_cases block : 0 < Lexeme.blockComment (piece.text ++ rest)
  · rw [rules, first, if_neg line, first, if_neg blank, first, if_pos block,
      Prod.mk.injEq] at found
    obtain ⟨rfl, whole⟩ := found
    exact .inr (.inr (.inl ⟨made.symm, whole⟩))
  by_cases comment : 0 < Lexeme.lineComment (piece.text ++ rest)
  · rw [rules, first, if_neg line, first, if_neg blank, first, if_neg block, first,
      if_pos comment, Prod.mk.injEq] at found
    obtain ⟨rfl, whole⟩ := found
    exact .inr (.inr (.inr (.inl ⟨made.symm, whole⟩)))
  -- If none of the first four rules matches, the piece comes from a rule for tokens, or from the
  -- one for unknown characters.
  rw [first_eq_of_plain (by omega) (by omega) (by omega) (by omega)] at found
  have all : ∀ rule ∈ tokenRules, ∃ kind, rule.piece piece.text = .token kind piece.text := by
    simp [tokenRules, rules]
  have token : ∃ kind, rule.piece piece.text = .token kind piece.text := by
    revert found
    generalize tokenRules = some_rules at all
    intro found
    induction some_rules with
    | nil =>
      obtain rfl := (Prod.mk.inj found).1
      exact ⟨_, rfl⟩
    | cons other later ih =>
      rw [List.forall_mem_cons] at all
      rw [first] at found
      split at found
      · obtain rfl := (Prod.mk.inj found).1
        exact all.1
      · exact ih all.2 found
  obtain ⟨kind, same⟩ := token
  exact .inr (.inr (.inr (.inr ⟨kind, made.symm.trans same⟩)))

/-- A block comment leads what its end stands before. -/
theorem leads_comment_iff : (Piece.comment text nested).Leads rest ↔
    ∃ body, text = '/' :: '*' :: body ∧ nested = Lexeme.nestedComments text ∧
      commentRest 1 (body ++ rest) = body.length := by
  constructor
  · intro leads
    have pos := leads.pos
    -- The kind of the piece leaves only the rule for block comments.
    rcases leads.cases with ⟨same, -⟩ | ⟨same, -⟩ | ⟨same, whole⟩ | ⟨same, -⟩ | ⟨kind, same⟩
    · cases same
    · cases same
    · simp only [Piece.text, Piece.comment.injEq, true_and] at pos same whole
      rcases text with _ | ⟨c, _ | ⟨d, body⟩⟩
      · cases pos
      · rw [List.singleton_append, Lexeme.blockComment.eq_def] at whole
        split at whole
        · rw [List.length_singleton] at whole
          omega
        · cases whole
      · have starts : c = '/' ∧ d = '*' := by
          rw [List.cons_append, List.cons_append, Lexeme.blockComment.eq_def] at whole
          split at whole
          · next heq => exact ⟨(List.cons.inj heq).1, (List.cons.inj (List.cons.inj heq).2).1⟩
          · cases whole
        obtain ⟨rfl, rfl⟩ := starts
        refine ⟨body, rfl, same, ?_⟩
        simp only [List.cons_append, Lexeme.blockComment, List.length_cons] at whole
        omega
    · cases same
    · cases same
  · rintro ⟨body, rfl, rfl, whole⟩
    refine ⟨⟨Lexeme.blockComment, fun text => .comment text (Lexeme.nestedComments text)⟩, ?_, rfl⟩
    rw [Piece.text, List.cons_append, List.cons_append, first_comment, whole, List.length_cons,
      List.length_cons, Nat.add_comm]

/-- A line comment leads what begins where its line ends. -/
theorem leads_lineComment_iff {body : List Char} : (Piece.trivia ('/' :: '/' :: body)).Leads rest ↔
    (∀ c ∈ body, isLineBreak c = false) ∧ endsLine rest = true := by
  rw [← length_line_eq_iff]
  constructor
  · rintro ⟨rule, found, made⟩
    simp only [Piece.text, List.cons_append, first_lineComment, Prod.mk.injEq, List.length_cons] at found
    omega
  · intro whole
    refine ⟨⟨Lexeme.lineComment, .trivia⟩, ?_, rfl⟩
    rw [Piece.text, List.cons_append, List.cons_append, first_lineComment, whole, List.length_cons,
      List.length_cons, Nat.add_comm]

/-- Blanks and a line comment are the pieces of trivia. -/
theorem leads_trivia_cases (leads : (Piece.trivia text).Leads rest) :
    (∀ c ∈ text, isBlank c = true) ∨ ∃ body, text = '/' :: '/' :: body := by
  have pos := leads.pos
  rcases leads.cases with ⟨same, -⟩ | ⟨-, whole⟩ | ⟨same, -⟩ | ⟨-, whole⟩ | ⟨kind, same⟩
  · cases same
  · exact .inl (length_takeWhile_eq_iff.1 whole).1
  · cases same
  · simp only [Piece.text] at whole pos
    rcases text with _ | ⟨c, _ | ⟨d, body⟩⟩
    · cases pos
    · rw [List.singleton_append, Lexeme.lineComment.eq_def] at whole
      split at whole
      · simp only [List.length_singleton] at whole
        omega
      · cases whole
    · rw [List.cons_append, List.cons_append, Lexeme.lineComment.eq_def] at whole
      split at whole
      · next heq =>
        obtain ⟨first, second⟩ := List.cons.inj heq
        exact .inr ⟨body, by rw [first, (List.cons.inj second).1]⟩
      · cases whole
  · cases same

theorem leads_blanks (nonempty : text ≠ []) (blank : ∀ c ∈ text, isBlank c = true)
    (stops : ∀ c, rest.head? = some c → isBlank c = false) : (Piece.trivia text).Leads rest := by
  obtain ⟨c, text, rfl⟩ := List.exists_cons_of_ne_nil nonempty
  have whole : Lexeme.blanks (c :: text ++ rest) = (c :: text).length :=
    length_takeWhile_eq_iff.2 ⟨blank, stops⟩
  have line : Lexeme.newline (c :: text ++ rest) = 0 := by
    rw [List.cons_append, newline_cons_eq_zero_iff]
    exact isLineBreak_of_isBlank (blank c List.mem_cons_self)
  refine ⟨⟨Lexeme.blanks, .trivia⟩, ?_, rfl⟩
  rw [List.cons_append] at whole line
  simp [rules, first, Piece.text, whole, line]

theorem leads_lineFeed (rest : List Char) : (Piece.newline ['\n']).Leads rest :=
  ⟨⟨Lexeme.newline, .newline⟩, by simp [rules, first, Lexeme.newline, Piece.text], rfl⟩

theorem leads_carriageReturn (other : rest.head? ≠ some '\n') :
    (Piece.newline ['\r']).Leads rest := by
  refine ⟨⟨Lexeme.newline, .newline⟩, ?_, rfl⟩
  cases rest with
  | nil => rfl
  | cons c rest =>
    have other : c ≠ '\n' := fun same => other (by rw [same]; rfl)
    simp [rules, first, Lexeme.newline, Piece.text, other]

theorem leads_both (rest : List Char) : (Piece.newline ['\r', '\n']).Leads rest :=
  ⟨⟨Lexeme.newline, .newline⟩, by simp [rules, first, Lexeme.newline, Piece.text], rfl⟩

/-- A piece that ends a line consists of line breaks. -/
theorem isLineBreak_of_leads (leads : (Piece.newline text).Leads rest) :
    ∀ c ∈ text, isLineBreak c = true := by
  have pos := leads.pos
  rcases leads.cases with ⟨-, whole⟩ | ⟨same, -⟩ | ⟨same, -⟩ | ⟨same, -⟩ | ⟨kind, same⟩
  · simp only [Piece.text] at whole pos
    have taken : text = (text ++ rest).take text.length := List.take_left.symm
    rw [Lexeme.newline.eq_def] at whole
    split at whole
    · next heq =>
      rw [taken, heq, ← whole]
      exact List.all_eq_true.1 rfl
    · next heq =>
      rw [taken, heq, ← whole]
      exact List.all_eq_true.1 rfl
    · next heq =>
      rw [taken, heq, ← whole]
      exact List.all_eq_true.1 rfl
    · omega
  · cases same
  · cases same
  · cases same
  · cases same

/-- A blank makes a piece of its own, or is put to the blanks after it. -/
theorem segment_blank {c : Char} (blank : isBlank c = true) (text : List Char) :
    Piece.segment (c :: text) = .trivia [c] :: Piece.segment text ∨
      ∃ run later, (∀ d ∈ run, isBlank d = true) ∧ Piece.segment text = .trivia run :: later ∧
        Piece.segment (c :: text) = .trivia (c :: run) :: later := by
  obtain ⟨run, rest, rfl, blanks, stops⟩ : ∃ run rest, text = run ++ rest ∧
      (∀ d ∈ run, isBlank d = true) ∧ ∀ d, rest.head? = some d → isBlank d = false := by
    refine ⟨text.takeWhile isBlank, text.dropWhile isBlank, List.takeWhile_append_dropWhile.symm,
      List.all_eq_true.1 List.all_takeWhile, fun d begins => ?_⟩
    have stop := List.head?_dropWhile_not isBlank text
    rw [begins] at stop
    simpa using stop
  have whole := (leads_blanks (List.cons_ne_nil c run)
    (List.forall_mem_cons.2 ⟨blank, blanks⟩) stops).segment
  by_cases none : run = []
  · subst none
    exact .inl whole
  · exact .inr ⟨run, _, blanks, (leads_blanks none blanks stops).segment, whole⟩

/-- A line break makes a piece of its own, unless it is the first half of one. -/
theorem segment_lineBreak {c : Char} (lineBreak : isLineBreak c = true) (text : List Char) :
    Piece.segment (c :: text) = .newline [c] :: Piece.segment text ∨
      ∃ run later, Piece.segment text = .newline run :: later ∧
        Piece.segment (c :: text) = .newline (c :: run) :: later := by
  simp only [isLineBreak, Bool.or_eq_true, beq_iff_eq] at lineBreak
  rcases lineBreak with rfl | rfl
  · exact .inl (leads_lineFeed text).segment
  by_cases both : text.head? = some '\n'
  · obtain ⟨rest, rfl⟩ : ∃ rest, text = '\n' :: rest := by
      cases text with
      | nil => cases both
      | cons d rest => exact ⟨rest, by rw [Option.some.inj both]⟩
    exact .inr ⟨['\n'], _, (leads_lineFeed rest).segment, (leads_both rest).segment⟩
  · exact .inl (leads_carriageReturn both).segment

/-- The piece is a comment that ends with its line. -/
def isLineComment : Piece → Bool
  | .trivia text => startsComment text
  | _ => false

theorem isLineComment_blanks {run : List Char} (blank : ∀ d ∈ run, isBlank d = true) :
    (Piece.trivia run).isLineComment = false := by
  cases run with
  | nil => rfl
  | cons d run =>
    have blank_d := blank d List.mem_cons_self
    have other : d ≠ '/' := by
      rintro rfl
      cases blank_d
    exact startsComment_of_ne other run

end Piece

/-! ### Gaps -/

/-- The last piece of the trivia is a line comment. What follows them must begin where a line
ends. -/
def endsInLineComment (trivia : List Char) : Bool :=
  (Piece.segment trivia).getLast?.any Piece.isLineComment

/-- The characters are trivia in front of the rest: blanks, line breaks, block comments that are
closed or go up to the end of the text, and line comments up to the end of a line. -/
inductive IsGap (rest : List Char) : List Char → Prop
  | nil : IsGap rest []
  | space : (isBlank c || isLineBreak c) = true → IsGap rest gap → IsGap rest (c :: gap)
  | block : (Piece.comment text nested).Leads (gap ++ rest) →
      (gap ++ rest ≠ [] → (Piece.comment text nested).Exact) → IsGap rest gap →
      IsGap rest (text ++ gap)
  | line : (∀ c ∈ text, isLineBreak c = false) → endsLine (gap ++ rest) = true → IsGap rest gap →
      IsGap rest ('/' :: '/' :: text ++ gap)

variable {c : Char} {old new rest gap text : List Char} {nested : List (List Char)}

/-- A comment that is closed before some text is one before any other. -/
theorem Piece.Leads.comment (leads : (Piece.comment text nested).Leads old) (nonempty : old ≠ [])
    (new : List Char) : (Piece.comment text nested).Leads new := by
  obtain ⟨body, rfl, rfl, whole⟩ := leads_comment_iff.1 leads
  exact leads_comment_iff.2 ⟨body, rfl, rfl, commentRest_append nonempty whole new⟩

theorem endsInLineComment_space (space : (isBlank c || isLineBreak c) = true) (gap : List Char) :
    endsInLineComment (c :: gap) = endsInLineComment gap := by
  rw [Bool.or_eq_true] at space
  unfold endsInLineComment
  rcases space with blank | lineBreak
  · rcases Piece.segment_blank blank gap with alone | ⟨run, later, blanks, after, merged⟩
    · rw [alone, List.getLast?_cons]
      cases (Piece.segment gap).getLast? with
      | none => exact Piece.isLineComment_blanks (by simpa using blank)
      | some last => rfl
    · rw [after, merged, List.getLast?_cons, List.getLast?_cons]
      cases later.getLast? with
      | none =>
        have both : ∀ d ∈ c :: run, isBlank d = true := List.forall_mem_cons.2 ⟨blank, blanks⟩
        simp [Piece.isLineComment_blanks blanks, Piece.isLineComment_blanks both]
      | some last => rfl
  · rcases Piece.segment_lineBreak lineBreak gap with alone | ⟨run, later, after, merged⟩
    · rw [alone, List.getLast?_cons]
      cases (Piece.segment gap).getLast? with
      | none => rfl
      | some last => rfl
    · rw [after, merged, List.getLast?_cons, List.getLast?_cons]
      cases later.getLast? with
      | none => rfl
      | some last => rfl

theorem endsInLineComment_block (leads : (Piece.comment text nested).Leads gap) :
    endsInLineComment (text ++ gap) = endsInLineComment gap := by
  have cut := leads.segment
  rw [Piece.text] at cut
  rw [endsInLineComment, cut, List.getLast?_cons, endsInLineComment]
  cases (Piece.segment gap).getLast? with
  | none => rfl
  | some last => rfl

theorem endsInLineComment_line (inLine : ∀ c ∈ text, isLineBreak c = false)
    (line : endsLine gap = true) :
    endsInLineComment ('/' :: '/' :: text ++ gap) = (gap.isEmpty || endsInLineComment gap) := by
  have cut := (Piece.leads_lineComment_iff.2 ⟨inLine, line⟩).segment
  rw [Piece.text] at cut
  rw [endsInLineComment, cut, List.getLast?_cons, endsInLineComment]
  cases gap with
  | nil => rfl
  | cons c gap =>
    obtain ⟨piece, later, pieces⟩ : ∃ piece later, Piece.segment (c :: gap) = piece :: later :=
      ⟨_, _, rfl⟩
    rw [pieces, List.getLast?_cons]
    rfl

/-- Two gaps make one. -/
theorem IsGap.append {first second : List Char} (before : IsGap (second ++ rest) first)
    (after : IsGap rest second) : IsGap rest (first ++ second) := by
  induction before with
  | nil => exact after
  | space space _ ih => exact .space space ih
  | block leads exact _ ih =>
    rw [List.append_assoc]
    rw [← List.append_assoc] at leads exact
    exact .block leads exact ih
  | line inLine line _ ih =>
    rw [List.append_assoc]
    rw [← List.append_assoc] at line
    exact .line inLine line ih

theorem endsLine_of_append (line : endsLine (gap ++ rest) = true) : endsLine gap = true := by
  cases gap with
  | nil => rfl
  | cons c gap => exact line

/-- Of two gaps the second one decides whether both together end in a line comment. -/
theorem IsGap.endsInLineComment_append {first second : List Char}
    (before : IsGap (second ++ rest) first) (nonempty : second ≠ []) :
    endsInLineComment (first ++ second) = endsInLineComment second := by
  induction before with
  | nil => rfl
  | space space _ ih => exact (endsInLineComment_space space _).trans ih
  | block leads _ _ ih =>
    rw [List.append_assoc]
    refine (endsInLineComment_block (leads.comment ?_ _)).trans ih
    simp [nonempty]
  | @line text gap inLine line _ ih =>
    rw [← List.append_assoc] at line
    rw [List.append_assoc, endsInLineComment_line inLine (endsLine_of_append line), ih,
      List.isEmpty_eq_false_iff.2 (List.append_ne_nil_of_right_ne_nil _ nonempty), Bool.false_or]

/-- A line ends where a gap with a line comment at its end does. -/
theorem IsGap.endsLine (isGap : IsGap rest gap) (ends : endsInLineComment gap = true) :
    Lexeme.endsLine rest = true := by
  induction isGap with
  | nil => cases ends
  | @space _ gap space _ ih => exact ih ((endsInLineComment_space space gap).symm.trans ends)
  | @block text nested gap leads _ _ ih =>
    by_cases none : gap ++ rest = []
    · rw [(List.append_eq_nil_iff.1 none).2]
      rfl
    · exact ih ((endsInLineComment_block (leads.comment none gap)).symm.trans ends)
  | @line text gap inLine line _ ih =>
    rw [endsInLineComment_line inLine (endsLine_of_append line)] at ends
    cases gap with
    | nil => exact line
    | cons c gap => exact ih ends

/-- A gap is one in front of another text too, if its last line comment ends there. -/
theorem IsGap.exchange (isGap : IsGap old gap)
    (ends : endsInLineComment gap = true → Lexeme.endsLine new = true)
    (nonempty : old = [] → new = []) : IsGap new gap := by
  induction isGap with
  | nil => exact .nil
  | @space _ gap space _ ih =>
    rw [endsInLineComment_space space] at ends
    exact .space space (ih ends)
  | @block text nested gap leads exact _ ih =>
    by_cases none : gap ++ old = []
    · obtain ⟨rfl, rfl⟩ := List.append_eq_nil_iff.1 none
      obtain rfl := nonempty rfl
      exact .block leads exact .nil
    · rw [endsInLineComment_block (leads.comment none gap)] at ends
      exact .block (leads.comment none _) (fun _ => exact none) (ih ends)
  | @line text gap inLine line _ ih =>
    rw [endsInLineComment_line inLine (endsLine_of_append line)] at ends
    refine .line inLine ?_ (ih fun gapEnds => ends (by rw [gapEnds, Bool.or_true]))
    cases gap with
    | nil => exact ends rfl
    | cons c gap => exact line

/-- A gap is empty or begins with a blank, a line break or a comment. -/
theorem IsGap.halts (isGap : IsGap rest gap) (nonempty : gap ≠ []) (later : List Char) :
    Halts (gap ++ later) := by
  cases isGap with
  | nil => exact absurd rfl nonempty
  | @space c gap space =>
    refine .inl ?_
    simp only [isBlank, isLineBreak, Bool.or_eq_true, beq_iff_eq] at space
    rcases space with ((((rfl | rfl) | rfl) | rfl) | rfl) | rfl | rfl <;> decide
  | block leads =>
    obtain ⟨body, rfl, -⟩ := Piece.leads_comment_iff.1 leads
    exact .inr rfl
  | line => exact .inr rfl

/-- A gap of one character is a blank or a line break. -/
theorem IsGap.startsComment_singleton (isGap : IsGap rest [c]) (later : List Char) :
    startsComment (c :: later) = false := by
  have other : c ≠ '/' := by
    rintro rfl
    generalize single : ['/'] = gap at isGap
    cases isGap with
    | nil => cases single
    | space space =>
      rw [← (List.cons.inj single).1] at space
      cases space
    | block leads =>
      obtain ⟨body, rfl, -⟩ := Piece.leads_comment_iff.1 leads
      cases (List.cons.inj single).2
    | line => cases (List.cons.inj single).2
  exact startsComment_of_ne other later

/-- A piece that is no token is a gap. -/
theorem Piece.isGap_of_leads {piece : Piece} (leads : piece.Leads rest)
    (exact : rest ≠ [] → piece.Exact) (trivia : ∀ kind text, piece ≠ .token kind text) :
    IsGap rest piece.text := by
  have spaces {run : List Char} (space : ∀ c ∈ run, (isBlank c || isLineBreak c) = true) :
      IsGap rest run := by
    induction run with
    | nil => exact .nil
    | cons c run ih =>
      rw [List.forall_mem_cons] at space
      exact .space space.1 (ih space.2)
  cases piece with
  | newline text =>
    exact spaces fun c member => by simp [isLineBreak_of_leads leads c member]
  | trivia text =>
    rcases leads_trivia_cases leads with blank | ⟨body, rfl⟩
    · exact spaces fun c member => by simp [blank c member]
    · obtain ⟨inLine, line⟩ := leads_lineComment_iff.1 leads
      rw [Piece.text, ← List.append_nil ('/' :: '/' :: body)]
      exact .line inLine line .nil
  | comment text nested =>
    rw [Piece.text, ← List.append_nil text]
    exact .block leads exact .nil
  | token kind text => exact absurd rfl (trivia kind text)

end SuiteMigration
