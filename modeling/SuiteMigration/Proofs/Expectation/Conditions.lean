import Mathlib.Tactic.Common
import SuiteMigration.Proofs.Expectation.Conservation
import SuiteMigration.Proofs.Expectation.Stripping
import SuiteMigration.Proofs.Lexing.Excision

/-!
# Operands of a condition

A condition is put together from operands of a source: they lose the trivia at their ends, some are
put in parentheses, and all come to stand before other characters. Their words are read as before,
if each token can be written in front of the next one. Parentheses and blanks go on with no word, so
what stands behind an operand matters only where a comment or a literal is left open.

The signs that compare or negate are made of a few characters, and an operator goes on as long as it
can. So a sign is cut off as it is just where no operator begins behind it.

## Main definitions

* `Operand` - tokens of a source in front of a text
* `parentheses`, `Expr.wrapped` - an operand in parentheses
* `Expr.StandsIn` - an expression of a file with some token behind it
* `Lexeme.signCharacters` - the characters of the signs

## Main results

* `Operand.withoutLeading`, `Operand.withoutTrailing` - an operand without the trivia at its ends
* `Operand.ahead`, `Operand.behind` - the operands of a condition, in parentheses or not
* `Expr.StandsIn.operand` - an expression of a source is an operand
* `Piece.leads_signs_iff` - where a sign is cut off
-/

namespace SuiteMigration

open Lexeme

/-! ### A token without its trivia -/

namespace Token

variable {token : Token} {rest : List Char}

/-- A token of a source has a text, or no trivia either. -/
theorem bare_of_sturdy (sturdy : Sturdy token.atoms) (none : token.text = "") :
    token.leading = "" ∧ token.trailing = "" := by
  have width := render_eq_empty_of_words (fun atom member => (sturdy atom member).1) none
  exact ⟨(render_eq_empty_iff.1 width).1, (render_eq_empty_iff.1 width).2.2⟩

theorem withLeading_eq_of_sturdy (sturdy : Sturdy token.atoms) (none : token.text = "") :
    token.withLeading "" = token := by
  rw [withLeading, ← (bare_of_sturdy sturdy none).1]

theorem withTrailing_eq_of_sturdy (sturdy : Sturdy token.atoms) (none : token.text = "") :
    token.withTrailing "" = token := by
  rw [withTrailing, ← (bare_of_sturdy sturdy none).2]

/-- The trivia in front of a token of a source are a gap in front of any text. -/
theorem isGap_leading (legible : Legible token.atoms rest) (sturdy : Sturdy token.atoms)
    (new : List Char) : IsGap new token.leading.toList := by
  by_cases word : token.text = ""
  · rw [(bare_of_sturdy sturdy word).1]
    exact .nil
  have some : token.text.toList ≠ [] := by simpa using word
  have isGap := (legible_atoms_iff.1 legible).1
  refine isGap.exchange (fun ends => ?_) fun none => absurd (List.append_eq_nil_iff.1 none).1 some
  -- No line comment ends where the token begins, because no token begins with a line break.
  have line := isGap.endsLine ends
  rw [endsLine_append some] at line
  rw [atoms, if_neg (render_ne_empty word)] at legible
  split at legible
  · next fused =>
    rcases fused.2 with same | same <;>
    · rw [same] at line
      cases line
  · obtain ⟨rule, found, made⟩ := (legible_singleton.1 legible).word word
    have plain := (Piece.plain_of_token found made).1
    obtain ⟨d, later, text_eq⟩ := List.exists_cons_of_ne_nil some
    rw [Piece.text, text_eq, List.cons_append, Piece.newline_cons_eq_zero_iff] at plain
    rw [text_eq] at line
    exact absurd (line.symm.trans plain) Bool.noConfusion

/-- The trivia behind a token of a source are a gap in front of what follows. -/
theorem isGap_trailing (legible : Legible token.atoms rest) (sturdy : Sturdy token.atoms) :
    IsGap rest token.trailing.toList := by
  by_cases word : token.text = ""
  · rw [(bare_of_sturdy sturdy word).2]
    exact .nil
  obtain ⟨front, last, atoms_eq, trailing_eq, -⟩ := exists_atoms_withTrailing word
  rw [atoms_eq, legible_append, legible_singleton] at legible
  exact trailing_eq ▸ legible.2.trailing

end Token

/-! ### Operands -/

/-- The tokens stand for legible tokens of a source in front of a text. -/
structure Operand (tokens : List Token) (rest : List Char) : Prop where
  sturdy : Sturdy (Token.atomsOf tokens)
  legible : Legible (Token.atomsOf tokens) rest

section Ends

variable {tokens : List Token} {old new : List Char}

namespace Operand

/-- An operand stays one without the trivia in front of it. -/
theorem withoutLeading (operand : Operand tokens old) :
    Operand (modifyFirst (·.withLeading "") tokens) old := by
  obtain ⟨sturdy, legible⟩ := operand
  cases tokens with
  | nil => exact ⟨sturdy, trivial⟩
  | cons first later =>
    rw [Token.atomsOf_cons, sturdy_append] at sturdy
    rw [Token.atomsOf_cons, legible_append] at legible
    rw [modifyFirst]
    by_cases word : first.text = ""
    · rw [Token.withLeading_eq_of_sturdy sturdy.1 word]
      exact ⟨sturdy_append.2 sturdy, legible_append.2 legible⟩
    · exact ⟨sturdy_append.2 ⟨Token.sturdy_withLeading word sturdy.1 "", sturdy.2⟩,
        legible_append.2 ⟨(Token.legible_atoms_iff.1 legible.1).2, legible.2⟩⟩

/-- Without the trivia behind it an operand can stand before a text that goes on with no lexeme. -/
theorem withoutTrailing (operand : Operand tokens old) (nonempty : old ≠ []) (halts : Halts new)
    (apart : StandApart (Token.atomsOf (modifyLast (·.withTrailing "") tokens)) new) :
    Operand (modifyLast (·.withTrailing "") tokens) new := by
  obtain ⟨sturdy, legible⟩ := operand
  -- It is enough that the tokens are legible somewhere; the exchange takes them to the new rest.
  suffices bare : Sturdy (Token.atomsOf (modifyLast (·.withTrailing "") tokens)) ∧
      ∃ old, old ≠ [] ∧ Legible (Token.atomsOf (modifyLast (·.withTrailing "") tokens)) old by
    obtain ⟨sturdy', old', nonempty', legible'⟩ := bare
    refine ⟨sturdy', legible'.exchange (fun token member => (sturdy' token member).1)
      (fun token member => (sturdy' token member).2) halts (fun none => absurd none nonempty')
      fun token last => (apart.last last).adapts old'⟩
  rcases List.eq_nil_or_concat tokens with rfl | ⟨front, last, rfl⟩
  · exact ⟨sturdy, old, nonempty, trivial⟩
  rw [List.concat_eq_append] at *
  rw [modifyLast_concat]
  simp only [Token.atomsOf_append, Token.atomsOf_cons, Token.atomsOf_nil, List.append_nil,
    sturdy_append] at sturdy legible ⊢
  by_cases word : last.text = ""
  · rw [Token.withTrailing_eq_of_sturdy sturdy.2 word]
    exact ⟨sturdy, old, nonempty, legible⟩
  obtain ⟨inner, final, atoms_eq, -, atoms_moved⟩ := Token.exists_atoms_withTrailing word
  rw [atoms_eq] at sturdy legible
  rw [atoms_moved]
  rw [sturdy_append] at sturdy
  rw [← List.append_assoc] at legible ⊢
  refine ⟨⟨sturdy.1, sturdy_append.2 ⟨sturdy.2.1, List.forall_mem_singleton.2 ?_⟩⟩,
    final.trailing.toList ++ old, by simp [nonempty],
    ((legible_withTrailing _ final final.trailing old).1 legible).1⟩
  exact sturdy.2.2 final (List.mem_singleton_self final)

/-- An operand is one at the end of a text too. -/
theorem atEnd (operand : Operand tokens old) : Operand tokens [] := by
  obtain ⟨sturdy, legible⟩ := operand
  exact ⟨sturdy, legible.exchange_endsLine (fun token member => (sturdy token member).1)
    (fun token member => (sturdy token member).2) rfl fun _ => rfl⟩

theorem append {first second : List Token} (before : Operand first ((Token.renderAll second).toList ++ new))
    (behind : Operand second new) : Operand (first ++ second) new := by
  refine ⟨?_, ?_⟩
  · rw [Token.atomsOf_append]
    exact sturdy_append.2 ⟨before.sturdy, behind.sturdy⟩
  · rw [Token.atomsOf_append, legible_append, Token.renderAll_atomsOf]
    exact ⟨before.legible, behind.legible⟩

/-- A token can be put in front of an operand. -/
theorem cons {token : Token} (own : token.atoms = [token]) (word : token.text ≠ "")
    (whole : Piece.isLone token.text.toList = false)
    (legible : token.LegibleBefore ((Token.renderAll tokens).toList ++ new))
    (operand : Operand tokens new) : Operand (token :: tokens) new :=
  have alone : Operand [token] ((Token.renderAll tokens).toList ++ new) :=
    ⟨by simp [own, Sturdy, word, whole], by simpa [own, Legible] using legible⟩
  alone.append operand

/-- So can a mark of punctuation. -/
theorem consMark {token : Token} (mark : token.IsMark) (ahead : ∀ old, IsGap old token.leading.toList)
    (behind : IsGap ((Token.renderAll tokens).toList ++ new) token.trailing.toList)
    (operand : Operand tokens new) : Operand (token :: tokens) new := by
  have single : ∀ c ∈ haltingCharacters, (!Piece.isLone [c] && c != '.') = true :=
    List.all_eq_true.1 (by decide)
  simp only [Bool.and_eq_true, Bool.not_eq_true', bne_iff_ne] at single
  have own := mark.atoms
  obtain ⟨c, halting, sign, text_eq⟩ := mark
  have word : token.text ≠ "" := by
    intro none
    simp [none] at text_eq
  refine operand.cons own word (by rw [text_eq, (single c halting).1]) ⟨ahead _, fun _ => ?_, behind⟩
  rw [text_eq]
  exact Piece.leads_punctuation sign (single c halting).2 _

end Operand

end Ends

/-! ### Operands of a condition -/

section Expression

variable {expr : Expr} {old new : List Char}

theorem Operand.isGap_leading (operand : Operand expr.tokens old) (new : List Char) :
    IsGap new (Node.leading expr).toList := by
  obtain ⟨sturdy, legible⟩ := operand
  rw [Node.leading, show Node.tokens expr = expr.tokens from rfl]
  cases tokens_eq : expr.tokens with
  | nil => exact .nil
  | cons first later =>
    rw [tokens_eq, Token.atomsOf_cons] at sturdy legible
    exact Token.isGap_leading (legible_append.1 legible).1 (sturdy_append.1 sturdy).1 new

theorem Operand.isGap_trailing (operand : Operand expr.tokens old) :
    IsGap old (Node.trailing expr).toList := by
  obtain ⟨sturdy, legible⟩ := operand
  rw [Node.trailing, show Node.tokens expr = expr.tokens from rfl]
  rcases List.eq_nil_or_concat expr.tokens with tokens_eq | ⟨front, last, tokens_eq⟩
  · rw [tokens_eq]
    exact .nil
  · rw [List.concat_eq_append] at tokens_eq
    rw [tokens_eq, Token.atomsOf_append, Token.atomsOf_cons, Token.atomsOf_nil,
      List.append_nil] at sturdy legible
    rw [tokens_eq, List.getLast?_concat]
    exact Token.isGap_trailing (legible_append.1 legible).2 (sturdy_append.1 sturdy).2

theorem isMark_opener (leading : Trivia) : ((Token.ofPunctuation '(').withLeading leading).IsMark :=
  ⟨'(', by decide, rfl, by simp [Token.ofPunctuation, Token.withLeading]⟩

theorem isMark_closer (trailing : Trivia) :
    ((Token.ofPunctuation ')').withTrailing trailing).IsMark :=
  ⟨')', by decide, rfl, by simp [Token.ofPunctuation, Token.withTrailing]⟩

/-- The tokens of an expression in parentheses. -/
def parentheses (leading trailing : Trivia) (expr : Expr) : List Token :=
  (Token.ofPunctuation '(').withLeading leading ::
    ((Node.setTrailing (Node.setLeading expr "") "").tokens ++
      [(Token.ofPunctuation ')').withTrailing trailing])

theorem tokens_setLeading_setTrailing (expr : Expr) :
    (Node.setTrailing (Node.setLeading expr "") "").tokens =
      modifyLast (·.withTrailing "") (modifyFirst (·.withLeading "") expr.tokens) := by
  have outer := Node.tokens_setTrailing (Node.setLeading expr "") ""
  rw [Node.tokens_setLeading] at outer
  exact outer

/-- An operand in parentheses is one, whatever stands before and behind it. -/
theorem Operand.inParentheses (operand : Operand expr.tokens old) (nonempty : old ≠ [])
    {leading trailing : Trivia} (ahead : ∀ old, IsGap old leading.toList)
    (behind : IsGap new trailing.toList)
    (apart : StandApart (Token.atomsOf (parentheses leading trailing expr)) new) :
    Operand (parentheses leading trailing expr) new := by
  have closes := isMark_closer trailing
  rw [parentheses, Token.atomsOf_cons, Token.atomsOf_append, Token.atomsOf_cons, Token.atomsOf_nil,
    List.append_nil, closes.atoms, standApart_append, standApart_append] at apart
  have closer : Operand [(Token.ofPunctuation ')').withTrailing trailing] new :=
    .consMark closes (fun _ => .nil) behind ⟨List.forall_mem_nil _, trivial⟩
  refine .consMark (isMark_opener leading) ahead .nil (.append ?_ closer)
  rw [tokens_setLeading_setTrailing] at apart ⊢
  have atCloser := closer.legible
  rw [Token.atomsOf_cons, Token.atomsOf_nil, List.append_nil, closes.atoms, legible_singleton] at atCloser
  have halts := atCloser.halts closes new
  simp only [Token.renderAll_cons, Token.renderAll_nil, String.append_empty] at apart ⊢
  exact operand.withoutLeading.withoutTrailing nonempty halts apart.2.1

/-- The expression in parentheses, if asked for. -/
def Expr.wrapped (expr : Expr) (wraps : Bool) : Expr :=
  if wraps then expr.parenthesized else expr

theorem Expr.tokens_wrapped_ahead (expr : Expr) :
    (Node.setTrailing (expr.wrapped true) "").tokens = parentheses (Node.leading expr) "" expr := by
  refine (Node.tokens_setTrailing (expr.wrapped true) "").trans ?_
  show modifyLast _ expr.parenthesized.tokens = _
  rw [expr.tokens_parenthesized, modifyLast_concat]
  rfl

theorem Expr.tokens_wrapped_behind (expr : Expr) :
    (Node.setLeading (expr.wrapped true) "").tokens = parentheses "" (Node.trailing expr) expr := by
  refine (Node.tokens_setLeading (expr.wrapped true) "").trans ?_
  show modifyFirst _ expr.parenthesized.tokens = _
  rw [expr.tokens_parenthesized]
  rfl

/-- The left operand of a condition. -/
theorem Operand.ahead (operand : Operand expr.tokens old) (nonempty : old ≠ []) (wraps : Bool)
    (halts : Halts new)
    (apart : StandApart (Token.atomsOf (Node.setTrailing (expr.wrapped wraps) "").tokens) new) :
    Operand (Node.setTrailing (expr.wrapped wraps) "").tokens new := by
  cases wraps with
  | false =>
    have tokens_eq : (Node.setTrailing (expr.wrapped false) "").tokens =
        modifyLast (·.withTrailing "") expr.tokens := Node.tokens_setTrailing expr ""
    rw [tokens_eq] at apart ⊢
    exact operand.withoutTrailing nonempty halts apart
  | true =>
    rw [expr.tokens_wrapped_ahead] at apart ⊢
    exact operand.inParentheses nonempty operand.isGap_leading .nil apart

/-- The last operand of a condition. -/
theorem Operand.behind (operand : Operand expr.tokens old) (nonempty : old ≠ []) (wraps : Bool)
    (apart : StandApart (Token.atomsOf (Node.setLeading (expr.wrapped wraps) "").tokens) []) :
    Operand (Node.setLeading (expr.wrapped wraps) "").tokens [] := by
  cases wraps with
  | false =>
    have tokens_eq : (Node.setLeading (expr.wrapped false) "").tokens =
        modifyFirst (·.withLeading "") expr.tokens := Node.tokens_setLeading expr ""
    rw [tokens_eq]
    exact operand.withoutLeading.atEnd
  | true =>
    rw [expr.tokens_wrapped_behind] at apart ⊢
    exact operand.inParentheses nonempty (fun _ => .nil)
      (operand.isGap_trailing.exchange (fun _ => rfl) fun _ => rfl) apart

end Expression

/-! ### Operands in a source -/

/-- The expression stands in the file, with a token behind it. -/
def Expr.StandsIn (expr : Expr) (file : SourceFile) : Prop :=
  ∃ next, next.text ≠ "" ∧ expr.tokens ++ [next] <:+: tokensOfStatements file.statements

/-- An expression of a source is an operand, if the source is given back. A single backquote is left
out: it may find a partner. -/
theorem Expr.StandsIn.operand {source : String} {file : SourceFile} {expr : Expr}
    (stands : expr.StandsIn file) (isFile : SourceFile.parse source = file)
    (whole : Node.render file = source)
    (lone : ∀ token ∈ (tokenize source).tokens, Piece.isLone token.text.toList = false) :
    ∃ old, old ≠ [] ∧ Operand expr.tokens old := by
  obtain ⟨next, word, inside⟩ := stands
  obtain ⟨rest, legible, members⟩ := SourceFile.legible_of_infix isFile whole inside
  rw [Token.atomsOf_append, legible_append, Token.renderAll_atomsOf] at legible
  rw [Token.atomsOf_append, List.forall_mem_append] at members
  refine ⟨_, ?_, fun token member => ?_, legible.1⟩
  · exact List.append_ne_nil_of_left_ne_nil (renderAll_ne_nil word []) rest
  · exact ⟨text_ne_of_mem_tokenize (members.1 token member), lone token (members.1 token member)⟩

/-! ### The signs of a condition -/

namespace Lexeme

/-- The characters of the signs that compare or negate. -/
def signCharacters : List Char :=
  ['=', '!', '<', '>']

/-- An operator goes on from a run of such characters. -/
theorem operator_append {text : List Char} (signs : ∀ c ∈ text, c ∈ signCharacters)
    (rest : List Char) : operator (text ++ rest) = text.length + operator rest := by
  have plain : ∀ c ∈ signCharacters, (isOperatorChar c && c != '/') = true :=
    List.all_eq_true.1 (by decide)
  simp only [Bool.and_eq_true, bne_iff_ne] at plain
  induction text with
  | nil => simp
  | cons c text ih =>
    rw [List.forall_mem_cons] at signs
    obtain ⟨isOperator, other⟩ := plain c signs.1
    rw [List.cons_append, operator_cons, startsComment_of_ne other, if_neg Bool.false_ne_true,
      if_pos isOperator, ih signs.2, List.length_cons]
    omega

end Lexeme

namespace Piece

/-- What begins with such a character is cut as an operator. -/
theorem first_sign {c : Char} (sign : c ∈ signCharacters) (rest : List Char) :
    first (c :: rest) rules =
      (⟨Lexeme.operator, .token .operator⟩, Lexeme.operator (c :: rest)) := by
  have start : ∀ c ∈ signCharacters, Text.isIdentifierStart c = false :=
    eq_false_of_any (by decide +kernel)
  have start := start c sign
  simp only [signCharacters, List.mem_cons, List.not_mem_nil, or_false] at sign
  rcases sign with rfl | rfl | rfl | rfl <;>
  simp [rules, first, Lexeme.newline, Lexeme.blanks, isBlank, Lexeme.blockComment,
    Lexeme.lineComment, Lexeme.string, rawString_of_ne, poundIdentifier_of_ne, Lexeme.number,
    identifier_plain, Lexeme.plainName, start, arrow_cons, range_cons, operator_cons,
    startsComment_cons, isOperatorChar]

/-- A run of such characters is cut off as it is, where no operator goes on with it. -/
theorem leads_signs_iff {text rest : List Char} (nonempty : text ≠ [])
    (signs : ∀ c ∈ text, c ∈ signCharacters) :
    (Piece.token .operator text).Leads rest ↔ Lexeme.operator rest = 0 := by
  have extent := operator_append signs rest
  obtain ⟨c, later, rfl⟩ := List.exists_cons_of_ne_nil nonempty
  have found := first_sign (signs c List.mem_cons_self) (later ++ rest)
  rw [← List.cons_append, extent] at found
  rw [Leads, Piece.text, found]
  constructor
  · rintro ⟨rule, same, -⟩
    have same' := (Prod.mk.inj same).2
    omega
  · intro stops
    exact ⟨_, by rw [stops, Nat.add_zero], rfl⟩

end Piece

end SuiteMigration
