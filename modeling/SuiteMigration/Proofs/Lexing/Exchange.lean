import Mathlib.Tactic.Common
import SuiteMigration.Proofs.Lexing.Legibility

/-!
# Exchanging what follows

Legible tokens stay legible when the text after them is exchanged for another one with which no
lexeme goes on. What matters there is the last of them: a line comment behind it must end, a literal
that is not closed must end with its line, and no comment may begin where the token ends. Tokens of
punctuation look at nothing that follows them, so tokens can be cut out behind them.

## Main definitions

* `Token.StandsBefore` - a token can be written in front of a text
* `StandApart` - each of some tokens can be written in front of what follows it

## Main results

* `Legible.exchange` - legible tokens before another text
* `Legible.exchange_punctuation` - legible tokens that end with punctuation before another text
* `legible_withTrailing` - other trivia behind the last token
-/

namespace SuiteMigration

open Lexeme

/-! ### Tokens in front of a text -/

/-- The token can be written in front of the text: a line comment behind it ends there, a literal
that is not closed ends with its line, and no comment begins where the token ends in a slash. -/
structure Token.StandsBefore (token : Token) (next : List Char) : Prop where
  comment : endsInLineComment token.trailing.toList = true → endsLine next = true
  literal : token.text.toList.head? = some '"' →
    IsClosed token.text.toList ∨ endsLine (token.trailing.toList ++ next) = true
  slash : token.text.toList.getLast? = some '/' →
    (token.trailing.toList ++ next).head? ≠ some '/'

theorem Token.standsBefore_iff {token : Token} {next : List Char} : token.StandsBefore next ↔
    (endsInLineComment token.trailing.toList = true → endsLine next = true) ∧
      (token.text.toList.head? = some '"' →
        IsClosed token.text.toList ∨ endsLine (token.trailing.toList ++ next) = true) ∧
      (token.text.toList.getLast? = some '/' → (token.trailing.toList ++ next).head? ≠ some '/') :=
  ⟨fun ⟨comment, literal, slash⟩ => ⟨comment, literal, slash⟩,
    fun ⟨comment, literal, slash⟩ => ⟨comment, literal, slash⟩⟩

instance (token : Token) (next : List Char) : Decidable (token.StandsBefore next) :=
  decidable_of_iff' _ Token.standsBefore_iff

/-- Each of the tokens can be written in front of what follows it. -/
def StandApart : List Token → List Char → Prop
  | [], _ => True
  | token :: later, rest =>
    token.StandsBefore ((Token.renderAll later).toList ++ rest) ∧ StandApart later rest

instance decidableStandApart : (tokens : List Token) → (rest : List Char) →
    Decidable (StandApart tokens rest)
  | [], _ => .isTrue trivial
  | token :: later, rest =>
    have := decidableStandApart later rest
    inferInstanceAs (Decidable
      (token.StandsBefore ((Token.renderAll later).toList ++ rest) ∧ StandApart later rest))

theorem standApart_append {first second : List Token} {rest : List Char} :
    StandApart (first ++ second) rest ↔
      StandApart first ((Token.renderAll second).toList ++ rest) ∧ StandApart second rest := by
  induction first with
  | nil => simp [StandApart]
  | cons token later ih =>
    rw [List.cons_append, StandApart, StandApart, ih, Token.renderAll_append, String.toList_append,
      List.append_assoc, and_assoc]

theorem StandApart.last {tokens : List Token} {rest : List Char} (apart : StandApart tokens rest)
    {token : Token} (last : tokens.getLast? = some token) : token.StandsBefore rest := by
  obtain ⟨front, rfl⟩ := List.getLast?_eq_some_iff.1 last
  simpa [StandApart] using (standApart_append.1 apart).2

/-- The token may be followed by the second text if it can be by the first. -/
structure Token.Adapts (token : Token) (old new : List Char) : Prop where
  comment : endsInLineComment token.trailing.toList = true → endsLine new = true
  literal : token.text.toList.head? = some '"' →
    IsClosed token.text.toList ∨ endsLine (token.trailing.toList ++ new) = true
  slash : token.text.toList.getLast? = some '/' →
    (token.trailing.toList ++ new).head? = some '/' →
    (token.trailing.toList ++ old).head? = some '/'

section Exchange

variable {token : Token} {tokens : List Token} {old new : List Char}

theorem Token.StandsBefore.adapts (stands : token.StandsBefore new) (old : List Char) :
    token.Adapts old new :=
  ⟨stands.comment, stands.literal, fun ends begins => absurd begins (stands.slash ends)⟩

theorem endsLine_of_head (same : old.head? = new.head?) : endsLine old = endsLine new := by
  cases old with
  | nil =>
    cases new with
    | nil => rfl
    | cons d new => cases same
  | cons c old =>
    cases new with
    | nil => cases same
    | cons d new =>
      obtain rfl := Option.some.inj same
      rfl

/-- A literal is closed, or its line ends where it does. -/
theorem Token.LegibleBefore.isClosed_or (legible : token.LegibleBefore old)
    (quote : token.text.toList.head? = some '"') :
    IsClosed token.text.toList ∨ endsLine (token.trailing.toList ++ old) = true := by
  obtain ⟨taken, text_eq⟩ : ∃ taken, token.text.toList = '"' :: taken := by
    cases text_eq : token.text.toList with
    | nil =>
      rw [text_eq] at quote
      cases quote
    | cons c taken =>
      rw [text_eq] at quote
      exact ⟨taken, by rw [Option.some.inj quote]⟩
  have leads := legible.word (by
    intro none
    rw [none] at text_eq
    cases text_eq)
  rw [text_eq] at leads ⊢
  exact isClosed_or_endsLine (Piece.string_of_leads leads)

/-- What begins like a text that can follow the token may follow it. -/
theorem Token.LegibleBefore.adapts (legible : token.LegibleBefore old)
    (same : old.head? = new.head?) : token.Adapts old new := by
  have same' : (token.trailing.toList ++ old).head? = (token.trailing.toList ++ new).head? := by
    rw [List.head?_append, List.head?_append, same]
  refine ⟨fun ends => ?_, fun quote => ?_, fun _ begins => same'.trans begins⟩
  · rw [← endsLine_of_head same]
    exact legible.trailing.endsLine ends
  · rw [← endsLine_of_head same']
    exact legible.isClosed_or quote

/-- A legible token stays so before a text that it may be followed by. -/
theorem Token.LegibleBefore.exchange (legible : token.LegibleBefore old) (word : token.text ≠ "")
    (whole : Piece.isLone token.text.toList = false) (adapts : token.Adapts old new)
    (near : Near (token.trailing.toList ++ old) (token.trailing.toList ++ new))
    (nonempty : old = [] → new = []) : token.LegibleBefore new := by
  have some : token.text.toList ≠ [] := by simpa using word
  have ends (rest : List Char) : endsLine (token.text.toList ++ rest) = endsLine token.text.toList :=
    endsLine_append some
  refine ⟨legible.leading.exchange (fun open_ => ?_) (fun none => ?_), fun _ => ?_,
    legible.trailing.exchange adapts.comment nonempty⟩
  · rw [ends, ← ends]
    exact legible.leading.endsLine open_
  · exact absurd (List.append_eq_nil_iff.1 none).1 some
  · by_cases none : token.trailing.toList ++ old = []
    · obtain ⟨trailing, rfl⟩ := List.append_eq_nil_iff.1 none
      rw [nonempty rfl]
      exact legible.word word
    · exact (legible.word word).near near whole adapts.slash
        fun quote => (adapts.literal quote).imp_right fun line => ⟨none, line⟩

/-- One character in front of a text does not begin a comment with it, if it is legible. -/
theorem Legible.startsComment_singleton {c : Char} (legible : Legible tokens old)
    (words : ∀ token ∈ tokens, token.text ≠ "")
    (single : (Token.renderAll tokens).toList = [c]) : startsComment (c :: old) = false := by
  cases tokens with
  | nil => cases single
  | cons token later =>
    have word := words token List.mem_cons_self
    have some : token.text.toList ≠ [] := by simpa using word
    rw [toList_renderAll_cons] at single
    -- The character is the text of the token, with nothing around it.
    have bare : token.leading.toList = [] := by
      rcases List.append_eq_singleton_iff.1 single with ⟨none, -⟩ | ⟨-, none⟩
      · exact none
      · exact absurd (List.append_eq_nil_iff.1 none).1 some
    rw [bare, List.nil_append] at single
    have leads := legible.1.word word
    rcases List.append_eq_singleton_iff.1 single with ⟨none, -⟩ | ⟨text_eq, behind⟩
    · exact absurd none some
    obtain ⟨none, none'⟩ := List.append_eq_nil_iff.1 behind
    rw [none, none', text_eq, List.nil_append, List.nil_append] at leads
    obtain ⟨rule, found, made⟩ := leads
    obtain ⟨-, -, block, comment⟩ := Piece.plain_of_token found made
    exact Piece.startsComment_eq_false_iff.2 ⟨block, comment⟩

theorem renderAll_ne_nil (word : token.text ≠ "") (later : List Token) :
    (Token.renderAll (token :: later)).toList ≠ [] := by
  have some : token.text.toList ≠ [] := by simpa using word
  rw [toList_renderAll_cons]
  simp [some]

theorem near_append {taken : List Char} (halts : Halts new)
    (single : ∀ c, taken = [c] → startsComment (c :: old) = false) :
    Near (taken ++ old) (taken ++ new) := by
  match taken with
  | [] => exact .halt halts
  | [c] => exact .once (single c rfl) halts
  | c :: d :: taken => exact .twice

/-- Legible tokens stay so before another text that the last of them may be followed by, if no
lexeme goes on with it. -/
theorem Legible.exchange (legible : Legible tokens old)
    (words : ∀ token ∈ tokens, token.text ≠ "")
    (whole : ∀ token ∈ tokens, Piece.isLone token.text.toList = false) (halts : Halts new)
    (nonempty : old = [] → new = [])
    (adapts : ∀ token, tokens.getLast? = some token → token.Adapts old new) :
    Legible tokens new := by
  induction tokens with
  | nil => trivial
  | cons token later ih =>
    rw [List.forall_mem_cons] at words whole
    obtain ⟨here, behind⟩ := legible
    refine ⟨?_, ih behind words.2 whole.2 fun last isLast => adapts last ?_⟩
    · -- Behind the token the texts start alike, up to where the rest begins.
      have near : Near (token.trailing.toList ++ ((Token.renderAll later).toList ++ old))
          (token.trailing.toList ++ ((Token.renderAll later).toList ++ new)) := by
        rw [← List.append_assoc, ← List.append_assoc]
        refine near_append halts fun c single => ?_
        rcases List.append_eq_singleton_iff.1 single with ⟨-, alone⟩ | ⟨alone, none⟩
        · exact behind.startsComment_singleton words.2 alone
        · have isGap := here.trailing
          rw [alone] at isGap
          exact isGap.startsComment_singleton old
      refine here.exchange words.1 whole.1 ?_ near fun none => ?_
      · cases later with
        | nil => exact adapts token rfl
        | cons next later =>
          refine here.adapts ?_
          have some := renderAll_ne_nil (words.2 next List.mem_cons_self) later
          rw [List.head?_append, List.head?_append, List.head?_eq_some_head some, Option.some_or,
            Option.some_or]
      · obtain ⟨later_eq, old_eq⟩ := List.append_eq_nil_iff.1 none
        rw [later_eq, nonempty old_eq]
        rfl
    · rw [List.getLast?_cons, isLast, Option.getD_some]

/-- Legible tokens stay so before a text that begins in the same way. -/
theorem Legible.exchange_of_head (legible : Legible tokens old)
    (words : ∀ token ∈ tokens, token.text ≠ "")
    (whole : ∀ token ∈ tokens, Piece.isLone token.text.toList = false) (halts : Halts new)
    (same : old.head? = new.head?) : Legible tokens new := by
  refine legible.exchange words whole halts (fun none => ?_) fun token last => ?_
  · rw [none] at same
    exact List.head?_eq_none_iff.1 same.symm
  · obtain ⟨front, rfl⟩ := List.getLast?_eq_some_iff.1 last
    exact (legible_singleton.1 (legible_append.1 legible).2).adapts same

/-! ### Punctuation -/

/-- The token is a character of punctuation that ends every lexeme before it and begins no other. -/
def Token.IsMark (token : Token) : Prop :=
  ∃ c ∈ haltingCharacters, TokenKind.ofPunctuation? c = some token.kind ∧ token.text.toList = [c]

theorem Token.LegibleBefore.isMark {c : Char} (legible : token.LegibleBefore old)
    (word : token.text ≠ "") (halting : c ∈ haltingCharacters)
    (sign : TokenKind.ofPunctuation? c = some token.kind) : token.IsMark :=
  ⟨c, halting, sign, Piece.text_of_punctuation sign (legible.word word)⟩

theorem Token.IsMark.text_ne (mark : token.IsMark) : token.text.toList ≠ [] := by
  obtain ⟨c, -, -, text_eq⟩ := mark
  rw [text_eq]
  exact List.cons_ne_nil _ _

/-- Punctuation stands for itself. -/
theorem Token.atoms_of_punctuation {c : Char} (word : token.text ≠ "")
    (sign : TokenKind.ofPunctuation? c = some token.kind) : token.atoms = [token] := by
  have other : token.kind ≠ .identifier := by
    intro same
    rw [same] at sign
    unfold TokenKind.ofPunctuation? at sign
    split at sign <;> cases sign
  exact Token.atoms_of_text word fun fused => other fused.1

theorem Token.IsMark.atoms (mark : token.IsMark) : token.atoms = [token] := by
  have word : token.text ≠ "" := by simpa using mark.text_ne
  obtain ⟨c, -, sign, -⟩ := mark
  exact Token.atoms_of_punctuation word sign

/-- A mark begins where no lexeme goes on. -/
theorem Token.LegibleBefore.halts (legible : token.LegibleBefore old) (mark : token.IsMark)
    (later : List Char) : Halts (token.render.toList ++ later) := by
  obtain ⟨c, halting, -, text_eq⟩ := mark
  rw [Token.toList_render, List.append_assoc]
  by_cases none : token.leading.toList = []
  · rw [none, text_eq]
    exact .inl halting
  · exact legible.leading.halts none _

/-- A mark stays what it is before any text, as long as a line comment behind it ends. -/
theorem Token.LegibleBefore.exchange_mark (legible : token.LegibleBefore old) (mark : token.IsMark)
    (comment : endsInLineComment token.trailing.toList = true → endsLine new = true)
    (nonempty : old = [] → new = []) : token.LegibleBefore new := by
  have some := mark.text_ne
  refine ⟨legible.leading.exchange (fun open_ => ?_) (fun none => ?_), fun _ => ?_,
    legible.trailing.exchange comment nonempty⟩
  · rw [endsLine_append some, ← endsLine_append some]
    exact legible.leading.endsLine open_
  · exact absurd (List.append_eq_nil_iff.1 none).1 some
  · obtain ⟨c, halting, sign, text_eq⟩ := mark
    have other : c ≠ '.' := by
      rintro rfl
      exact absurd halting (by decide)
    rw [text_eq]
    exact Piece.leads_punctuation sign other _

/-- Legible tokens that end with a mark stay so before any text, as long as a line comment behind
the mark ends. -/
theorem Legible.exchange_punctuation {mark : Token} (legible : Legible (tokens ++ [mark]) old)
    (isMark : mark.IsMark) (words : ∀ token ∈ tokens, token.text ≠ "")
    (whole : ∀ token ∈ tokens, Piece.isLone token.text.toList = false)
    (comment : endsInLineComment mark.trailing.toList = true → endsLine new = true)
    (nonempty : old = [] → new = []) : Legible (tokens ++ [mark]) new := by
  obtain ⟨before, here⟩ := legible_append.1 legible
  rw [legible_singleton] at here
  refine legible_append.2 ⟨?_, legible_singleton.2 (here.exchange_mark isMark comment nonempty)⟩
  rw [Token.renderAll_cons, Token.renderAll_nil, String.append_empty] at before ⊢
  have some : mark.render.toList ≠ [] := by
    rw [Token.toList_render]
    simp [isMark.text_ne]
  refine before.exchange_of_head words whole (here.halts isMark new) ?_
  rw [List.head?_append, List.head?_append, List.head?_eq_some_head some, Option.some_or,
    Option.some_or]

/-! ### Other trivia behind the last token -/

/-- The trivia behind the last token can be looked at apart from it. -/
theorem legible_withTrailing (tokens : List Token) (token : Token) (trailing : Trivia)
    (rest : List Char) : Legible (tokens ++ [token.withTrailing trailing]) rest ↔
      Legible (tokens ++ [token.withTrailing ""]) (trailing.toList ++ rest) ∧
        IsGap rest trailing.toList := by
  simp only [legible_append, legible_singleton, Token.renderAll_cons, Token.renderAll_nil,
    String.append_empty]
  have render_eq : (token.withTrailing trailing).render.toList ++ rest =
      (token.withTrailing "").render.toList ++ (trailing.toList ++ rest) := by
    simp [Token.render, Token.withTrailing]
  rw [render_eq, and_assoc]
  refine and_congr_right fun _ => ?_
  constructor
  · intro legible
    refine ⟨⟨?_, fun word => ?_, .nil⟩, legible.trailing⟩
    · simpa [Token.withTrailing] using legible.leading
    · simpa [Token.withTrailing] using legible.word word
  · rintro ⟨legible, isGap⟩
    refine ⟨?_, fun word => ?_, isGap⟩
    · simpa [Token.withTrailing] using legible.leading
    · simpa [Token.withTrailing] using legible.word word

end Exchange

end SuiteMigration
