import Mathlib.Tactic.Common
import SuiteMigration.Proofs.Lexing.Exchange

/-!
# Cutting tokens out of a text

A run of tokens is cut out of a legible text, and the comments before it are carried over to what
follows. The tokens ahead of the cut now stand before other characters, and the comments end at the
last line feed of the trivia that they come from. Both go well where the text behind the cut starts
a line and that line feed belongs to no comment: no line comment, no literal and no name goes on
across the end of a line.

A token with trivia behind it, or a mark of punctuation, can stand before any text. So a run that
begins in the line of the tokens ahead can be cut out too, whatever follows it.

## Main definitions

* `feedIsFree` - the last line feed of some trivia stands outside of comments
* `Token.isOpen` - a token that no text behind it goes on with
* `Token.Meets` - a token can come to stand before a text

## Main results

* `IsGap.beforeLastLineFeed` - trivia up to their last line feed, before a text that starts a line
* `Legible.exchange_endsLine` - legible tokens before a text that starts a line
* `Legible.meet` - legible tokens before a text that comes to stand there
* `Token.legible_atoms_iff` - the trivia in front of a token are told from the token
-/

namespace SuiteMigration

open Lexeme

/-! ### Trivia up to their last line feed -/

namespace Piece

theorem isLineBreak_of_segment {text run : List Char} {front back : List Piece}
    (cut : segment text = front ++ .newline run :: back) : ∀ c ∈ run, isLineBreak c = true := by
  induction front generalizing text with
  | nil =>
    obtain ⟨_, -, leads, -⟩ := segment_eq_cons_iff.1 cut
    exact isLineBreak_of_leads leads
  | cons piece front ih =>
    obtain ⟨_, -, -, cut'⟩ := segment_eq_cons_iff.1 cut
    exact ih cut'

/-- The piece is a line break. -/
def isNewline : Piece → Bool
  | .newline _ => true
  | _ => false

end Piece

/-- The last line feed of the trivia stands outside of their comments. -/
def feedIsFree (trivia : Trivia) : Bool :=
  ((Piece.segment trivia.toList).reverse.find? fun piece => piece.text.contains '\n').all
    Piece.isNewline

theorem toList_beforeLastLineFeed {trivia : Trivia} {before after : List Char}
    (split : trivia.toList = before ++ '\n' :: after) (last : '\n' ∉ after) :
    (Trivia.beforeLastLineFeed trivia).toList = before := by
  have feed : trivia.toList.contains '\n' = true := by simp [split]
  have others : ∀ c ∈ after, (c != '\n') = true := by
    intro c member
    rw [bne_iff_ne]
    rintro rfl
    exact last member
  have kept : Text.dropWhileEnd (· != '\n') (before ++ '\n' :: after) = before ++ ['\n'] := by
    rw [List.append_cons, Text.dropWhileEnd_append _ _ others]
    simp [Text.dropWhileEnd]
  rw [Trivia.beforeLastLineFeed, if_pos feed, split, kept, String.toList_ofList,
    List.dropLast_concat]

theorem beforeLastLineFeed_of_notMem {trivia : Trivia} (none : '\n' ∉ trivia.toList) :
    Trivia.beforeLastLineFeed trivia = trivia :=
  if_neg (by simpa using none)

/-- The last line feed of some characters. -/
theorem exists_last_lineFeed {text : List Char} (feed : '\n' ∈ text) :
    ∃ before after, text = before ++ '\n' :: after ∧ '\n' ∉ after := by
  obtain ⟨after, before, split, last⟩ := List.eq_append_cons_of_mem (List.mem_reverse.2 feed)
  refine ⟨before.reverse, after.reverse, ?_, by simpa using last⟩
  rw [← text.reverse_reverse, split]
  simp

namespace IsGap

variable {old new gap run : List Char} {piece : Piece} {front back later : List Piece}

theorem lineBreaks (breaks : ∀ c ∈ gap, isLineBreak c = true) : IsGap old gap := by
  induction gap with
  | nil => exact .nil
  | cons c gap ih =>
    rw [List.forall_mem_cons] at breaks
    exact .space (by rw [breaks.1, Bool.or_true]) (ih breaks.2)

/-- The first piece of a gap is no token, and what is behind it is a gap again. -/
theorem of_segment (isGap : IsGap old gap) (cut : Piece.segment gap = piece :: later) :
    (∀ kind text, piece ≠ .token kind text) ∧ (later.flatMap Piece.text ++ old ≠ [] → piece.Exact) ∧
      IsGap old (later.flatMap Piece.text) := by
  induction isGap generalizing piece later with
  | nil => cases cut
  | @space c gap space isGap ih =>
    rw [Bool.or_eq_true] at space
    rcases space with blank | lineBreak
    · -- A blank is a piece of its own, or is merged with the run of blanks behind it.
      rcases Piece.segment_blank blank gap with alone | ⟨run, rest, -, after, merged⟩
      · obtain ⟨rfl, rfl⟩ := List.cons.inj (alone.symm.trans cut)
        exact ⟨nofun, fun _ => trivial, by rwa [Piece.flatMap_text_segment]⟩
      · obtain ⟨rfl, rfl⟩ := List.cons.inj (merged.symm.trans cut)
        exact ⟨nofun, fun _ => trivial, (ih after).2.2⟩
    · rcases Piece.segment_lineBreak lineBreak gap with alone | ⟨run, rest, after, merged⟩
      · obtain ⟨rfl, rfl⟩ := List.cons.inj (alone.symm.trans cut)
        exact ⟨nofun, fun _ => trivial, by rwa [Piece.flatMap_text_segment]⟩
      · obtain ⟨rfl, rfl⟩ := List.cons.inj (merged.symm.trans cut)
        exact ⟨nofun, fun _ => trivial, (ih after).2.2⟩
  | @block text nested gap leads exact isGap ih =>
    have leads' : (Piece.comment text nested).Leads gap := by
      by_cases none : gap ++ old = []
      · obtain ⟨rfl, rfl⟩ := List.append_eq_nil_iff.1 none
        exact leads
      · exact leads.comment none gap
    obtain ⟨rfl, rfl⟩ := List.cons.inj (leads'.segment.symm.trans cut)
    rw [Piece.flatMap_text_segment]
    exact ⟨nofun, exact, isGap⟩
  | @line text gap inLine line isGap ih =>
    have leads := Piece.leads_lineComment_iff.2 ⟨inLine, endsLine_of_append line⟩
    obtain ⟨rfl, rfl⟩ := List.cons.inj (leads.segment.symm.trans cut)
    rw [Piece.flatMap_text_segment]
    exact ⟨nofun, fun _ => trivial, isGap⟩

/-- The pieces before a line break are a gap in front of what breaks a line there. -/
theorem before_newline (isGap : IsGap old gap)
    (cut : Piece.segment gap = front ++ .newline run :: back) (line : Lexeme.endsLine new = true) :
    IsGap new (front.flatMap Piece.text) := by
  induction front generalizing gap with
  | nil => exact .nil
  | cons piece front ih =>
    obtain ⟨other, exact, isGap'⟩ := isGap.of_segment cut
    obtain ⟨rest, rfl, leads, cut'⟩ := Piece.segment_eq_cons_iff.1 cut
    have rest_eq := Piece.flatMap_text_segment rest
    rw [cut'] at rest_eq
    rw [rest_eq] at exact isGap'
    -- The line break is behind the piece, so something is.
    have some : rest ≠ [] := by
      rintro rfl
      simp [Piece.segment, Piece.segmentWithin] at cut'
    have here : IsGap rest piece.text :=
      Piece.isGap_of_leads leads (fun _ => exact (by simp [some])) other
    rw [List.flatMap_cons]
    refine (here.exchange (fun ends => ?_) fun none => absurd none some).append (ih isGap' cut')
    have ended := here.endsLine ends
    cases front with
    | nil => exact line
    | cons next front =>
      obtain ⟨_, rfl, nextLeads, -⟩ := Piece.segment_eq_cons_iff.1 cut'
      rw [List.flatMap_cons, List.append_assoc]
      rw [endsLine_append (List.length_pos_iff.1 nextLeads.pos)] at ended ⊢
      exact ended

theorem beforeLastLineFeed_endsLine {trivia : Trivia} (isGap : IsGap old trivia.toList)
    (free : feedIsFree trivia = true) (line : Lexeme.endsLine new = true) (nonempty : old ≠ []) :
    IsGap new (Trivia.beforeLastLineFeed trivia).toList := by
  have whole := Piece.flatMap_text_segment trivia.toList
  unfold feedIsFree at free
  cases found : (Piece.segment trivia.toList).reverse.find? fun piece => piece.text.contains '\n' with
  | none =>
    have noFeed : '\n' ∉ trivia.toList := by
      rw [← whole, List.mem_flatMap]
      rintro ⟨piece, member, feed⟩
      simpa [feed] using List.find?_eq_none.1 found piece (List.mem_reverse.2 member)
    rw [beforeLastLineFeed_of_notMem noFeed]
    exact isGap.exchange (fun _ => line) fun none => absurd none nonempty
  | some piece =>
    rw [found] at free
    obtain ⟨feed, back, front, split, later⟩ := List.find?_eq_some_iff_append.1 found
    cases piece with
    | newline run =>
      have cut : Piece.segment trivia.toList = front.reverse ++ .newline run :: back.reverse := by
        rw [← (Piece.segment trivia.toList).reverse_reverse, split]
        simp
      obtain ⟨before, after, rfl, last⟩ := exists_last_lineFeed (by simpa using feed)
      have breaks := fun c (member : c ∈ before) =>
        Piece.isLineBreak_of_segment cut c (List.mem_append_left _ member)
      have noFeed : '\n' ∉ back.reverse.flatMap Piece.text := by
        rw [List.mem_flatMap]
        rintro ⟨piece, member, feed⟩
        simpa [feed] using later piece (List.mem_reverse.1 member)
      have trivia_eq : trivia.toList = front.reverse.flatMap Piece.text ++ before ++
          '\n' :: (after ++ back.reverse.flatMap Piece.text) := by
        rw [← whole, cut]
        simp [Piece.text]
      rw [toList_beforeLastLineFeed trivia_eq (by simp [last, noFeed])]
      refine .append (isGap.before_newline cut ?_) (.lineBreaks breaks)
      cases before with
      | nil => exact line
      | cons c before => exact breaks c List.mem_cons_self
    | trivia text | comment text nested | token kind text => cases free

/-- Where the last line feed of a gap stands outside of comments, the trivia up to it are a gap in
front of any text that ends a line comment among them. -/
theorem beforeLastLineFeed {trivia : Trivia} (isGap : IsGap old trivia.toList)
    (free : feedIsFree trivia = true) (nonempty : old ≠ [])
    (comment : endsInLineComment (Trivia.beforeLastLineFeed trivia).toList = true →
      Lexeme.endsLine new = true) :
    IsGap new (Trivia.beforeLastLineFeed trivia).toList :=
  have broken : IsGap ['\n'] (Trivia.beforeLastLineFeed trivia).toList :=
    isGap.beforeLastLineFeed_endsLine free rfl nonempty
  broken.exchange comment nofun

end IsGap

/-! ### Tokens ahead of a cut -/

/-- The token has trivia behind it or is a mark of punctuation. -/
def Token.isOpen (token : Token) : Bool :=
  token.trailing != "" ||
    haltingCharacters.any fun c => TokenKind.ofPunctuation? c == some token.kind

section Cut

variable {token : Token} {tokens : List Token} {old new : List Char}

theorem halts_of_endsLine (line : endsLine new = true) : Halts new := by
  cases new with
  | nil => trivial
  | cons c rest =>
    have lineBreak : isLineBreak c = true := line
    simp only [isLineBreak, Bool.or_eq_true, beq_iff_eq] at lineBreak
    refine .inl ?_
    rcases lineBreak with rfl | rfl <;> decide

/-- A legible token may be followed by a text that starts a line. -/
theorem Token.LegibleBefore.adapts_endsLine (legible : token.LegibleBefore old)
    (line : endsLine new = true) : token.Adapts old new := by
  by_cases none : token.trailing.toList = []
  · refine ⟨fun _ => line, fun _ => .inr (by rwa [none]), fun _ begins => ?_⟩
    rw [none, List.nil_append] at begins
    cases new with
    | nil => cases begins
    | cons c rest =>
      obtain rfl := Option.some.inj begins
      cases line
  · refine ⟨fun _ => line, fun quote => ?_, fun _ begins => ?_⟩
    · rw [endsLine_append none, ← endsLine_append none]
      exact legible.isClosed_or quote
    · rwa [List.head?_append, List.head?_eq_some_head none, Option.some_or] at begins ⊢

/-- Legible tokens stay so before a text that starts a line. -/
theorem Legible.exchange_endsLine (legible : Legible tokens old)
    (words : ∀ token ∈ tokens, token.text ≠ "")
    (whole : ∀ token ∈ tokens, Piece.isLone token.text.toList = false)
    (line : endsLine new = true) (nonempty : old = [] → new = []) : Legible tokens new := by
  refine legible.exchange words whole (halts_of_endsLine line) nonempty fun token last => ?_
  obtain ⟨front, rfl⟩ := List.getLast?_eq_some_iff.1 last
  exact (legible_singleton.1 (legible_append.1 legible).2).adapts_endsLine line

/-- No token looks beyond two characters, so what is behind them can be exchanged. -/
theorem Legible.exchange_twice {c d : Char} (legible : Legible tokens (c :: d :: old))
    (words : ∀ token ∈ tokens, token.text ≠ "")
    (whole : ∀ token ∈ tokens, Piece.isLone token.text.toList = false) :
    Legible tokens (c :: d :: new) := by
  induction tokens with
  | nil => trivial
  | cons token later ih =>
    rw [List.forall_mem_cons] at words whole
    obtain ⟨here, behind⟩ := legible
    refine ⟨?_, ih behind words.2 whole.2⟩
    have near (run : List Char) : Near (run ++ c :: d :: old) (run ++ c :: d :: new) := by
      match run with
      | [] | [_] | _ :: _ :: _ => exact .twice
    refine here.exchange words.1 whole.1 (here.adapts ?_) ?_ (by simp)
    · rw [List.head?_append, List.head?_append]
      rfl
    · rw [← List.append_assoc, ← List.append_assoc]
      exact near _

/-- Behind its own trivia a token may be followed by any text, if it was followed by one in its
line. -/
theorem Token.LegibleBefore.adapts_inLine (legible : token.LegibleBefore old)
    (blank : token.trailing ≠ "") (inLine : endsLine old = false) (new : List Char) :
    token.Adapts old new := by
  have some : token.trailing.toList ≠ [] := by simpa using blank
  refine ⟨fun ends => ?_, fun quote => ?_, fun _ begins => ?_⟩
  · rw [legible.trailing.endsLine ends] at inLine
    cases inLine
  · rw [endsLine_append some, ← endsLine_append some]
    exact legible.isClosed_or quote
  · rwa [List.head?_append, List.head?_eq_some_head some, Option.some_or] at begins ⊢

/-- Legible tokens of which the last is open stay so before any text that this one may be followed
by. -/
theorem Legible.exchange_open (legible : Legible (tokens ++ [token]) old)
    (words : ∀ other ∈ tokens ++ [token], other.text ≠ "")
    (whole : ∀ other ∈ tokens ++ [token], Piece.isLone other.text.toList = false)
    (isOpen : token.isOpen = true) (adapts : token.Adapts old new)
    (nonempty : old = [] → new = []) : Legible (tokens ++ [token]) new := by
  obtain ⟨before, here⟩ := legible_append.1 legible
  rw [legible_singleton] at here
  rw [List.forall_mem_append, List.forall_mem_singleton] at words whole
  rw [Token.isOpen, Bool.or_eq_true, bne_iff_ne] at isOpen
  rcases isOpen with blank | punctuation
  · have some : token.trailing.toList ≠ [] := by simpa using blank
    rw [legible_append, legible_singleton]
    refine ⟨?_, here.exchange words.2 whole.2 adapts (.halt (here.trailing.halts some new)) nonempty⟩
    -- The token and the trivia behind it hide the text from the tokens ahead of it.
    have long : 2 ≤ token.render.toList.length := by
      have word := List.length_pos_iff.2 (by simpa using words.2 : token.text.toList ≠ [])
      have behind := List.length_pos_iff.2 some
      simp only [Token.toList_render, List.length_append]
      omega
    obtain ⟨c, rest, render_eq⟩ := List.exists_cons_of_length_pos (Nat.lt_of_lt_of_le Nat.two_pos long)
    rw [render_eq, List.length_cons] at long
    obtain ⟨d, rest, rfl⟩ := List.exists_cons_of_length_pos (Nat.le_of_succ_le_succ long)
    simp only [Token.renderAll_cons, Token.renderAll_nil, String.append_empty, render_eq,
      List.cons_append] at before ⊢
    exact before.exchange_twice words.1 whole.1
  · obtain ⟨c, halting, sign⟩ := List.any_eq_true.1 punctuation
    have mark := here.isMark words.2 halting (by simpa using sign)
    exact legible.exchange_punctuation mark words.1 whole.1 adapts.comment nonempty

/-! ### The place of a cut -/

instance : (text : List Char) → Decidable (Halts text)
  | [] => .isTrue trivial
  | c :: rest => inferInstanceAs (Decidable (c ∈ haltingCharacters ∨ startsComment (c :: rest) = true))

/-- The token can come to stand before the text. The text starts a line, or the token can be written
in front of it and neither of them goes on with the other. -/
def Token.Meets (token : Token) (next : List Char) : Prop :=
  endsLine next = true ∨ token.StandsBefore next ∧ (Halts next ∨ token.isOpen = true)

instance (token : Token) (next : List Char) : Decidable (token.Meets next) :=
  inferInstanceAs (Decidable (_ ∨ _ ∧ (_ ∨ _)))

/-- The last of the tokens, if there is one, can come to stand before the text. -/
def Meet (tokens : List Token) (next : List Char) : Prop :=
  ∀ token ∈ tokens.getLast?, token.Meets next

instance (tokens : List Token) (next : List Char) : Decidable (Meet tokens next) :=
  match last : tokens.getLast? with
  | none => .isTrue (by simp [Meet, last])
  | some token => decidable_of_iff (token.Meets next) (by simp [Meet, last])

/-- Legible tokens stay so before another text that the last of them can come to stand before. -/
theorem Legible.meet (legible : Legible tokens old) (words : ∀ token ∈ tokens, token.text ≠ "")
    (whole : ∀ token ∈ tokens, Piece.isLone token.text.toList = false) (meet : Meet tokens new)
    (nonempty : old = [] → new = []) : Legible tokens new := by
  rcases List.eq_nil_or_concat tokens with rfl | ⟨front, token, rfl⟩
  · trivial
  rw [List.concat_eq_append] at *
  rcases meet token List.getLast?_concat with line | ⟨stands, halts | isOpen⟩
  · exact legible.exchange_endsLine words whole line nonempty
  · refine legible.exchange words whole halts nonempty fun last isLast => ?_
    rw [List.getLast?_concat, Option.some.injEq] at isLast
    exact isLast ▸ stands.adapts old
  · exact legible.exchange_open words whole isOpen (stands.adapts old) nonempty

end Cut

/-! ### Other trivia in front of a token -/

/-- The trivia in front of legible tokens can be looked at apart from them. -/
theorem legible_withLeading {token : Token} {later : List Token} {rest : List Char} :
    Legible (token :: later) rest ↔
      IsGap (token.text.toList ++ (token.trailing.toList ++ ((Token.renderAll later).toList ++ rest)))
        token.leading.toList ∧ Legible (token.withLeading "" :: later) rest :=
  ⟨fun ⟨first, others⟩ => ⟨first.leading, ⟨.nil, first.word, first.trailing⟩, others⟩,
    fun ⟨isGap, first, others⟩ => ⟨⟨isGap, first.word, first.trailing⟩, others⟩⟩

/-- The same of the tokens that a token of a tree stands for. -/
theorem Token.legible_atoms_iff {token : Token} {rest : List Char} : Legible token.atoms rest ↔
    IsGap (token.text.toList ++ (token.trailing.toList ++ rest)) token.leading.toList ∧
      Legible (token.withLeading "").atoms rest := by
  obtain ⟨kind, text, leading, trailing⟩ := token
  by_cases none : text = ""
  · subst none
    have unfused (leading : Trivia) : ¬(kind = .identifier ∧ ("" = "as?" ∨ "" = "as!")) := by
      rintro ⟨-, fused | fused⟩ <;> exact absurd fused (by decide)
    have gaps (leading : Trivia) : Legible (Token.atoms ⟨kind, "", leading, trailing⟩) rest ↔
        IsGap (trailing.toList ++ rest) leading.toList ∧ IsGap rest trailing.toList := by
      unfold Token.atoms
      split
      · next width =>
        obtain ⟨rfl, -, rfl⟩ := Token.render_eq_empty_iff.1 width
        exact ⟨fun _ => ⟨.nil, .nil⟩, fun _ => trivial⟩
      · rw [if_neg (unfused leading), legible_singleton]
        exact ⟨fun legible => ⟨legible.leading, legible.trailing⟩,
          fun both => ⟨both.1, fun word => absurd rfl word, both.2⟩⟩
    show Legible _ rest ↔ _ ∧ Legible (Token.atoms ⟨kind, "", "", trailing⟩) rest
    rw [gaps, gaps]
    exact and_congr_right fun _ => (and_iff_right .nil).symm
  · have width (leading : Trivia) : Token.render ⟨kind, text, leading, trailing⟩ ≠ "" :=
      Token.render_ne_empty none
    show _ ↔ _ ∧ Legible (Token.atoms ⟨kind, text, "", trailing⟩) rest
    unfold Token.atoms
    rw [if_neg (width leading), if_neg (width "")]
    -- A cast with its mark is two words, and the trivia stand before the first of them.
    by_cases fused : kind = .identifier ∧ (text = "as?" ∨ text = "as!")
    · rw [if_pos fused, if_pos fused]
      have text_eq : text.toList ++ (trailing.toList ++ rest) =
          "as".toList ++ ((if text = "as?" then "?" else "!").toList ++ (trailing.toList ++ rest)) := by
        rcases fused.2 with rfl | rfl <;> rfl
      rw [text_eq]
      rw [legible_withLeading]
      simp [Token.withLeading, Token.toList_render]
    · rw [if_neg fused, if_neg fused, legible_withLeading]
      simp [Token.withLeading]

/-! ### Tokens that ask for no partner -/

/-- Each of the tokens has a text that looks for no partner behind it. -/
def Sturdy (tokens : List Token) : Prop :=
  ∀ token ∈ tokens, token.text ≠ "" ∧ Piece.isLone token.text.toList = false

theorem sturdy_append {first second : List Token} :
    Sturdy (first ++ second) ↔ Sturdy first ∧ Sturdy second :=
  List.forall_mem_append

/-- A token with a text keeps it, and so do the tokens that it stands for. -/
theorem Token.sturdy_withLeading {token : Token} (word : token.text ≠ "")
    (sturdy : Sturdy token.atoms) (leading : Trivia) : Sturdy (token.withLeading leading).atoms := by
  obtain ⟨kind, text, own, trailing⟩ := token
  have width (leading : Trivia) : render ⟨kind, text, leading, trailing⟩ ≠ "" := render_ne_empty word
  show Sturdy (atoms ⟨kind, text, leading, trailing⟩)
  rw [atoms, if_neg (width _)] at sturdy ⊢
  by_cases fused : kind = .identifier ∧ (text = "as?" ∨ text = "as!")
  · rw [if_pos fused, Sturdy, List.forall_mem_cons] at sturdy ⊢
    exact sturdy
  · rw [if_neg fused, Sturdy, List.forall_mem_singleton] at sturdy ⊢
    exact sturdy

end SuiteMigration
