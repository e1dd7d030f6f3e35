import Mathlib.Tactic.Common
import SuiteMigration.Proofs.Expectation.Comments
import SuiteMigration.Proofs.Lexing.Exchange
import SuiteMigration.Proofs.Reading.Calls
import SuiteMigration.Proofs.Reading.Shapes

/-!
# Stripped calls

Arguments with labels are dropped from a call, and so is the comma after the last argument that is
kept. The text of what is left is read as the tokens of the call again, as long as each of them can
be written in front of the next one. That can fail where something was cut out only: a line comment
was ended by a line break that belonged to a dropped argument, or a comment of the comma comes to
stand right behind a slash.

## Main definitions

* `strippedCall` - the call without labeled arguments and without the comma after the last one

## Main results

* `Legible.stripped` - the arguments that are kept stay legible
* `words_strippedCall` - the text of a stripped call has the words of the call
* `strippedCall_swallowed` - a line comment takes the closing parenthesis
-/

namespace SuiteMigration

open Lexeme

/-- The call without labeled arguments and without the comma after the last argument. -/
def strippedCall (callee : Expr) (list : CallArguments) (closure : Option Closure) : Expr :=
  .call callee { list with arguments := stripComma (positional list.arguments) } closure

/-! ### The comma after the last argument -/

/-- The trivia around a comma make one gap with those before it once the comma is gone. -/
theorem isGap_moved {comma : Token} {old new before : List Char} (mark : comma.text.toList = [','])
    (legible : comma.LegibleBefore old) (isBefore : IsGap ((Token.renderAll [comma]).toList ++ old) before)
    (ends : endsInLineComment (before ++ (comma.leading.toList ++ comma.trailing.toList)) = true →
      endsLine new = true)
    (nonempty : old ≠ []) :
    IsGap new (before ++ (comma.leading.toList ++ comma.trailing.toList)) := by
  have isAhead := legible.leading
  have comma_eq : (Token.renderAll [comma]).toList ++ old =
      comma.leading.toList ++ (',' :: (comma.trailing.toList ++ old)) := by
    rw [toList_renderAll_cons, mark]
    simp
  rw [mark] at isAhead
  rw [comma_eq] at isBefore
  -- No line ends before the comma, so no line comment does.
  have ahead : IsGap (comma.trailing.toList ++ new) comma.leading.toList := by
    refine isAhead.exchange (fun open_ => ?_) (by simp)
    have line := isAhead.endsLine open_
    cases line
  have before' : IsGap ((comma.leading.toList ++ comma.trailing.toList) ++ new) before := by
    refine isBefore.exchange (fun open_ => ?_) (by simp)
    have line := isBefore.endsLine open_
    cases leading_eq : comma.leading.toList with
    | nil =>
      rw [leading_eq] at line
      cases line
    | cons c rest =>
      rw [leading_eq] at line
      exact line
  have behind : IsGap new comma.trailing.toList := by
    refine legible.trailing.exchange (fun open_ => ends ?_) fun none => absurd none nonempty
    by_cases none : comma.trailing.toList = []
    · rw [none] at open_
      cases open_
    · rwa [before'.endsInLineComment_append (List.append_ne_nil_of_right_ne_nil _ none),
        ahead.endsInLineComment_append none]
  exact before'.append (ahead.append behind)

namespace Token

variable {token : Token}

/-- A token with text keeps it under other trivia, and so does the last token it stands for. -/
theorem exists_atoms_withTrailing (word : token.text ≠ "") :
    ∃ front last, token.atoms = front ++ [last] ∧ last.trailing = token.trailing ∧
      ∀ trailing, (token.withTrailing trailing).atoms = front ++ [last.withTrailing trailing] := by
  have width (trailing : Trivia) : (token.withTrailing trailing).render ≠ "" := render_ne_empty word
  unfold atoms
  rw [if_neg (render_ne_empty word)]
  by_cases fused : token.kind = .identifier ∧ (token.text = "as?" ∨ token.text = "as!")
  · refine ⟨[{ token with text := "as", trailing := "" }],
      { kind := .operator, text := if token.text = "as?" then "?" else "!"
        trailing := token.trailing }, ?_, rfl, fun trailing => ?_⟩
    · rw [if_pos fused]
      rfl
    · rw [if_neg (width trailing)]
      exact if_pos fused
  · refine ⟨[], token, ?_, rfl, fun trailing => ?_⟩
    · rw [if_neg fused]
      rfl
    · rw [if_neg (width trailing)]
      exact if_neg fused

/-- A token without text that takes over some trivia has only these. -/
theorem atoms_withTrailing (none : token.text = "") {trailing : Trivia} (some : trailing ≠ "") :
    (token.withTrailing trailing).atoms = [token.withTrailing trailing] := by
  have width : (token.withTrailing trailing).render ≠ "" := by
    rw [ne_eq, render_eq_empty_iff]
    exact fun empty => some empty.2.2
  unfold atoms
  rw [if_neg width, if_neg (by simp [withTrailing, none])]

end Token


section Comma

variable {tokens : List Token} {token comma : Token} {old new : List Char}

theorem halts_append {gap : List Char} (isGap : IsGap new gap) (halts : Halts new) :
    Halts (gap ++ new) := by
  by_cases none : gap = []
  · rwa [none]
  · exact isGap.halts none new

/-- The last token before a comma takes over the trivia of the comma. -/
theorem legible_moved (legible : Legible (tokens ++ [token] ++ [comma]) old)
    (words : ∀ other ∈ tokens ++ [token], other.text ≠ "")
    (whole : ∀ other ∈ tokens ++ [token], Piece.isLone other.text.toList = false)
    (mark : comma.text.toList = [',']) {trivia : Trivia}
    (trivia_eq : trivia = token.trailing ++ comma.leading ++ comma.trailing)
    (stands : (token.withTrailing trivia).StandsBefore new) (halts : Halts new)
    (nonempty : old ≠ []) : Legible (tokens ++ [token.withTrailing trivia]) new := by
  obtain ⟨before, behind⟩ := legible_append.1 legible
  rw [legible_singleton] at behind
  obtain ⟨bare, isBefore⟩ := (legible_withTrailing tokens token token.trailing _).1 before
  have isGap : IsGap new trivia.toList := by
    have toList_eq : trivia.toList =
        token.trailing.toList ++ (comma.leading.toList ++ comma.trailing.toList) := by
      simp [trivia_eq]
    have ends := stands.comment
    rw [Token.withTrailing, toList_eq] at ends
    rw [toList_eq]
    exact isGap_moved mark behind isBefore ends nonempty
  rw [legible_withTrailing]
  simp only [List.forall_mem_append, List.forall_mem_singleton] at words whole
  refine ⟨bare.exchange ?_ ?_ (halts_append isGap halts) (by simp [nonempty]) fun last isLast => ?_,
    isGap⟩
  · exact List.forall_mem_append.2 ⟨words.1, List.forall_mem_singleton.2 words.2⟩
  · exact List.forall_mem_append.2 ⟨whole.1, List.forall_mem_singleton.2 whole.2⟩
  · rw [List.getLast?_concat, Option.some.injEq] at isLast
    rw [← isLast]
    -- Behind the last word now come the trivia of the comma, of which the hypothesis speaks.
    have nothing : endsInLineComment (token.withTrailing "").trailing.toList = false := rfl
    refine ⟨fun open_ => ?_, stands.literal, fun ends begins => ?_⟩
    · rw [nothing] at open_
      cases open_
    · exact absurd begins (stands.slash ends)

/-- A token without text before a comma takes over the trivia of the comma. -/
theorem legible_handed (legible : Legible (tokens ++ [comma]) old)
    (words : ∀ other ∈ tokens, other.text ≠ "")
    (whole : ∀ other ∈ tokens, Piece.isLone other.text.toList = false)
    (mark : comma.text.toList = [',']) {trivia : Trivia}
    (trivia_eq : trivia = comma.leading ++ comma.trailing) (bare : token.leading = "")
    (none : token.text = "") (apart : StandApart (tokens ++ [token.withTrailing trivia]) new)
    (halts : Halts new) (nonempty : old ≠ []) :
    Legible (tokens ++ [token.withTrailing trivia]) new := by
  obtain ⟨before, behind⟩ := legible_append.1 legible
  obtain ⟨apart, stands⟩ := standApart_append.1 apart
  rw [legible_singleton] at behind
  have isGap : IsGap new trivia.toList := by
    have toList_eq : trivia.toList = [] ++ (comma.leading.toList ++ comma.trailing.toList) := by
      simp [trivia_eq]
    have ends := stands.1.comment
    rw [Token.withTrailing, toList_eq] at ends
    rw [toList_eq]
    exact isGap_moved mark behind .nil ends nonempty
  have render_eq : (Token.renderAll [token.withTrailing trivia]).toList ++ new =
      trivia.toList ++ new := by
    simp [Token.render, Token.withTrailing, bare, none]
  rw [render_eq] at apart
  rw [legible_append, legible_singleton, render_eq]
  refine ⟨before.exchange words whole (halts_append isGap halts) (by simp [nonempty])
    fun last isLast => (apart.last isLast).adapts _, ?_, fun word => absurd none word, isGap⟩
  rw [show (token.withTrailing trivia).leading = "" from bare]
  exact .nil

variable {argument : Argument}

/-- An argument stays legible without its comma, if its last token can be written in front of what
follows. -/
theorem legible_withoutComma (unlabeled : argument.label = none) (isComma : argument.comma = some comma)
    (mark : comma.IsMark) (sign : comma.text.toList = [','])
    (legible : Legible (Token.atomsOf argument.tokens) old)
    (words : ∀ token ∈ Token.atomsOf argument.tokens, token.text ≠ "")
    (whole : ∀ token ∈ Token.atomsOf argument.tokens, Piece.isLone token.text.toList = false)
    (apart : StandApart (Token.atomsOf argument.withoutComma.tokens) new) (halts : Halts new)
    (nonempty : old ≠ []) : Legible (Token.atomsOf argument.withoutComma.tokens) new := by
  obtain ⟨label, value, comma'⟩ := argument
  obtain rfl : label = none := unlabeled
  obtain rfl : comma' = some comma := isComma
  have tokens_eq : Token.atomsOf (Argument.mk none value (some comma)).tokens =
      Token.atomsOf value.tokens ++ [comma] := by
    simp [Argument.tokens, mark.atoms]
  rw [tokens_eq] at legible words whole
  rw [tokens_withoutComma rfl] at apart ⊢
  by_cases comments : (comma.trailing.hasComment || comma.leading.hasComment) = true
  · have value_eq : (Argument.mk none value (some comma)).withoutComma.value =
        Node.setTrailing value (Node.trailing value ++ comma.leading ++ comma.trailing) :=
      if_pos comments
    rw [value_eq] at apart ⊢
    rcases List.eq_nil_or_concat (Node.tokens value) with empty | ⟨front, last, value_tokens⟩
    · -- Without tokens the value cannot take the trivia.
      have none : Node.tokens (Node.setTrailing value
          (Node.trailing value ++ comma.leading ++ comma.trailing)) = [] := by
        rw [Node.tokens_setTrailing, empty]
        rfl
      rw [show Expr.tokens _ = [] from none]
      trivial
    rw [List.concat_eq_append] at value_tokens
    have trailing_eq : Node.trailing value = last.trailing := by
      rw [Node.trailing, value_tokens, List.getLast?_concat]
    rw [trailing_eq] at apart ⊢
    obtain ⟨trivia, trivia_eq⟩ : ∃ trivia, trivia = last.trailing ++ comma.leading ++ comma.trailing :=
      ⟨_, rfl⟩
    have moved := Node.tokens_setTrailing value trivia
    rw [value_tokens, modifyLast_concat] at moved
    rw [← trivia_eq, show (Node.setTrailing value trivia).tokens = _ from moved,
      Token.atomsOf_append, Token.atomsOf_cons, Token.atomsOf_nil, List.append_nil] at apart ⊢
    rw [show value.tokens = front ++ [last] from value_tokens, Token.atomsOf_append,
      Token.atomsOf_cons, Token.atomsOf_nil, List.append_nil] at legible words whole
    by_cases word : last.text = ""
    · have bare : last.render = "" := Token.render_eq_empty_of_words
        (fun atom member => words atom (by simp [member])) word
      have none : last.atoms = [] := if_pos bare
      rw [Token.render_eq_empty_iff] at bare
      have some : trivia ≠ "" := by
        rintro rfl
        obtain ⟨⟨-, leading⟩, trailing⟩ : (_ ∧ comma.leading = "") ∧ comma.trailing = "" := by
          simpa using trivia_eq.symm
        rw [leading, trailing] at comments
        cases comments
      rw [bare.2.2, String.empty_append] at trivia_eq
      rw [none, List.append_nil] at legible words whole
      rw [Token.atoms_withTrailing word some] at apart ⊢
      rw [List.forall_mem_append] at words whole
      exact legible_handed legible words.1 whole.1 sign trivia_eq bare.1 word apart halts nonempty
    · obtain ⟨inner, final, atoms_eq, final_trailing, atoms_moved⟩ :=
        Token.exists_atoms_withTrailing word
      rw [atoms_eq, ← List.append_assoc] at legible words whole
      rw [atoms_moved, ← List.append_assoc] at apart ⊢
      rw [← final_trailing] at trivia_eq
      rw [List.forall_mem_append] at words whole
      exact legible_moved legible words.1 whole.1 sign trivia_eq (apart.last List.getLast?_concat)
        halts nonempty
  · have value_eq : (Argument.mk none value (some comma)).withoutComma.value = value :=
      if_neg comments
    rw [value_eq] at apart ⊢
    rw [List.forall_mem_append] at words whole
    exact (legible_append.1 legible).1.exchange words.1 whole.1 halts
      (by simp [nonempty]) fun token last => (apart.last last).adapts _

end Comma

/-! ### The arguments that are kept -/

/-- A legible token of a class of punctuation is the character of the class. -/
theorem Token.IsA.isMark {token : Token} {kind : TokenKind} {c : Char} {rest : List Char}
    (isA : token.IsA kind) (sign : TokenKind.ofPunctuation? c = some kind)
    (halting : c ∈ haltingCharacters) (legible : Legible token.atoms rest) :
    token.IsMark ∧ token.text.toList = [c] := by
  obtain ⟨rfl, word⟩ := isA
  rw [Token.atoms_of_punctuation word sign, legible_singleton] at legible
  exact ⟨legible.isMark word halting sign, Piece.text_of_punctuation sign (legible.word word)⟩

section Arguments

variable {arguments : List Argument} {rest : List Char}

theorem tokens_of_comma {argument : Argument} {comma : Token} (unlabeled : argument.label = none)
    (isComma : argument.comma = some comma) : argument.tokens = argument.value.tokens ++ [comma] := by
  obtain ⟨label, value, other⟩ := argument
  obtain rfl : label = none := unlabeled
  obtain rfl : other = some comma := isComma
  rfl

/-- The arguments that are kept stay legible, if each token of what is left can be written in front
of the next one. -/
theorem Legible.stripped (legible : Legible (Token.atomsOf (tokensOfArguments arguments)) rest)
    (commas : HaveCommas arguments)
    (sound : (arguments.map Argument.hasComma).Pairwise fun comma _ => comma = true)
    (words : ∀ token ∈ Token.atomsOf (tokensOfArguments arguments), token.text ≠ "")
    (whole : ∀ token ∈ Token.atomsOf (tokensOfArguments arguments),
      Piece.isLone token.text.toList = false)
    (apart : StandApart (Token.atomsOf (tokensOfArguments (stripComma (positional arguments)))) rest)
    (halts : Halts rest) (nonempty : rest ≠ []) :
    Legible (Token.atomsOf (tokensOfArguments (stripComma (positional arguments)))) rest := by
  induction arguments with
  | nil => exact legible
  | cons argument later ih =>
    rw [tokensOfArguments, Token.atomsOf_append] at legible words whole
    rw [List.forall_mem_append] at words whole
    rw [HaveCommas, List.forall_mem_cons] at commas
    rw [List.map_cons, List.pairwise_cons] at sound
    obtain ⟨here, behind⟩ := legible_append.1 legible
    specialize ih behind commas.2 sound.2 words.2 whole.2
    have followed : (Token.renderAll (Token.atomsOf (tokensOfArguments later))).toList ++ rest ≠ [] :=
      List.append_ne_nil_of_right_ne_nil _ nonempty
    cases labeled : argument.label with
    | some label =>
      have dropped : positional (argument :: later) = positional later :=
        List.filter_cons_of_neg (by simp [labeled])
      rw [dropped] at apart ⊢
      exact ih apart
    | none =>
      have kept : positional (argument :: later) = argument :: positional later :=
        List.filter_cons_of_pos (by simp [labeled])
      rw [kept] at apart ⊢
      cases isComma : argument.comma with
      | none =>
        -- Without a comma the argument is the last one.
        have last : later = [] := by
          by_contra some
          obtain ⟨next, others, rfl⟩ := List.exists_cons_of_ne_nil some
          have hasComma := sound.1 next.hasComma (by simp)
          simp [Argument.hasComma, isComma] at hasComma
        subst last
        have same : argument.withoutComma = argument := by simp [Argument.withoutComma, isComma]
        have stripped : stripComma (argument :: positional []) = [argument] := congrArg ([·]) same
        rw [stripped, tokensOfArguments, tokensOfArguments, List.append_nil]
        exact here
      | some comma =>
        have tokens_eq := tokens_of_comma labeled isComma
        have ends : Token.atomsOf argument.tokens =
            Token.atomsOf argument.value.tokens ++ comma.atoms := by
          rw [tokens_eq]
          simp
        have atComma := here
        rw [ends] at atComma
        obtain ⟨mark, sign⟩ := Token.IsA.isMark (c := ',') (commas.1 comma isComma) rfl (by decide)
          (legible_append.1 atComma).2
        cases last : positional later with
        | nil =>
          have stripped : tokensOfArguments (stripComma [argument]) = argument.withoutComma.tokens :=
            List.append_nil _
          rw [last, stripped] at apart
          rw [stripped]
          exact legible_withoutComma labeled isComma mark sign here words.1 whole.1 apart halts followed
        | cons next others =>
          rw [last] at apart ih
          have stripped : tokensOfArguments (stripComma (argument :: next :: others)) =
              argument.tokens ++ tokensOfArguments (stripComma (next :: others)) := rfl
          rw [stripped, Token.atomsOf_append, standApart_append] at apart
          rw [stripped, Token.atomsOf_append, legible_append]
          refine ⟨?_, ih apart.2⟩
          rw [mark.atoms] at ends atComma
          rw [ends] at words whole apart ⊢
          rw [List.forall_mem_append] at words whole
          exact atComma.exchange_punctuation mark words.1.1 whole.1.1
            (apart.1.last List.getLast?_concat).comment fun none => absurd none followed

end Arguments

/-! ### The stripped call -/

section Call

variable {callee : Expr} {list : ArgumentList} {closure : Option Closure} {rest : List Char}

theorem atoms_call (callee : Expr) (list : ArgumentList) (closure : Option Closure) :
    Token.atomsOf (Expr.call callee (.ofList list) closure).tokens =
      (Token.atomsOf callee.tokens ++ list.opener.atoms) ++
        (Token.atomsOf (tokensOfArguments list.arguments) ++
          (list.closer.atoms ++ Token.atomsOf (tokensOfClosure? closure))) := by
  obtain ⟨opener, arguments, closer⟩ := list
  simp [Expr.tokens, ArgumentList.tokens]

/-- What is left of a legible call is legible on its own, if each token of it can be written in
front of the next one. -/
theorem legible_strippedCall
    (legible : Legible (Token.atomsOf (Expr.call callee (.ofList list) closure).tokens) rest)
    (punctuated : (CallArguments.ofList list).Punctuated) (present : list.closer.isMissing = false)
    (sound : (list.arguments.map Argument.hasComma).Pairwise fun comma _ => comma = true)
    (words : ∀ token ∈ Token.atomsOf (Expr.call callee (.ofList list) closure).tokens, token.text ≠ "")
    (whole : ∀ token ∈ Token.atomsOf (Expr.call callee (.ofList list) closure).tokens,
      Piece.isLone token.text.toList = false)
    (apart : StandApart (Token.atomsOf (strippedCall callee (.ofList list) closure).tokens) []) :
    Legible (Token.atomsOf (strippedCall callee (.ofList list) closure).tokens) [] := by
  have closer : list.closer.IsA .rightParen := by
    refine ⟨punctuated.rightParen _ rfl, fun none => ?_⟩
    simp [Token.isMissing, none, punctuated.rightParen _ rfl] at present
  have stripped_eq : strippedCall callee (.ofList list) closure = .call callee
      (.ofList { list with arguments := stripComma (positional list.arguments) }) closure := rfl
  rw [stripped_eq, atoms_call] at apart ⊢
  rw [atoms_call] at legible words whole
  have mark_closer : list.closer.IsMark := by
    have atCloser := (legible_append.1 (legible_append.1 legible).2).2
    exact (Token.IsA.isMark (c := ')') closer rfl (by decide) (legible_append.1 atCloser).1).1
  rw [mark_closer.atoms] at legible words whole apart ⊢
  -- The text after the call does not matter.
  have last_eq (arguments : List Token) : ((Token.atomsOf callee.tokens ++ list.opener.atoms) ++
      (arguments ++ ([list.closer] ++ Token.atomsOf (tokensOfClosure? closure)))).getLast? =
        ([list.closer] ++ Token.atomsOf (tokensOfClosure? closure)).getLast? := by
    rw [List.getLast?_append_of_ne_nil _ (by simp), List.getLast?_append_of_ne_nil _ (by simp)]
  have alone : Legible _ [] := legible.exchange words whole trivial (fun _ => rfl) fun token last => by
    rw [last_eq, ← last_eq] at last
    exact (apart.last last).adapts rest
  obtain ⟨before, middle⟩ := legible_append.1 alone
  obtain ⟨inside, behind⟩ := legible_append.1 middle
  obtain ⟨apart_before, apart_middle⟩ := standApart_append.1 apart
  obtain ⟨apart_inside, -⟩ := standApart_append.1 apart_middle
  simp only [List.forall_mem_append] at words whole
  have atCloser := (legible_append.1 behind).1
  rw [legible_singleton] at atCloser
  -- The closing parenthesis comes next, however many arguments there are.
  have halts := atCloser.halts mark_closer
    ((Token.renderAll (Token.atomsOf (tokensOfClosure? closure))).toList ++ [])
  have closer_eq : (Token.renderAll ([list.closer] ++ Token.atomsOf (tokensOfClosure? closure))).toList ++
      [] = list.closer.render.toList ++
        ((Token.renderAll (Token.atomsOf (tokensOfClosure? closure))).toList ++ []) := by
    simp
  rw [← closer_eq] at halts
  have nonempty : (Token.renderAll ([list.closer] ++ Token.atomsOf (tokensOfClosure? closure))).toList ++
      [] ≠ [] := by
    rw [List.append_nil]
    exact renderAll_ne_nil closer.2 _
  obtain ⟨mark, -⟩ := Token.IsA.isMark (c := '(') (punctuated.leftParen _ rfl) rfl (by decide)
    (legible_append.1 before).2
  rw [mark.atoms] at before words whole apart_before ⊢
  refine legible_append.2 ⟨?_, legible_append.2 ⟨?_, behind⟩⟩
  · refine before.exchange_punctuation mark words.1.1 whole.1.1
      (apart_before.last List.getLast?_concat).comment fun none => ?_
    rw [Token.renderAll_append, String.toList_append, List.append_assoc] at none
    exact absurd (List.append_eq_nil_iff.1 none).2 nonempty
  · exact inside.stripped punctuated.commas sound words.2.1 whole.2.1 apart_inside halts nonempty

end Call

theorem infix_of_mem {statements : List Statement} {statement : Statement}
    (member : statement ∈ statements) : statement.tokens <:+: tokensOfStatements statements := by
  obtain ⟨before, after, rfl⟩ := List.append_of_mem member
  refine ⟨tokensOfStatements before, tokensOfStatements after, ?_⟩
  simp [tokensOfStatements_eq, Node.tokens]

theorem sound_of_mem {statements : List Statement} (sound : Sound (shapesOfStatements statements))
    {statement : Statement} (member : statement ∈ statements) : Sound statement.shapes := by
  induction statements with
  | nil => cases member
  | cons first later ih =>
    rw [shapesOfStatements, sound_append] at sound
    rcases List.mem_cons.1 member with rfl | later
    · exact sound.1
    · exact ih sound.2 later

/-- The text of a call from which the labeled arguments and the last comma are cut out has the words
of the call, if the source is given back and each token of what is left can be written in front of
the next one. A single backquote is left out: it may find a partner when a line break goes. -/
theorem words_strippedCall {source : String} {statement : Statement} {callee : Expr}
    {list : CallArguments} {closure : Option Closure}
    (whole : Node.render (SourceFile.parse source) = source)
    (member : statement ∈ (SourceFile.parse source).statements)
    (call : statement.item = .expr (.call callee list closure))
    (closed : list.isClosed = true)
    (lone : ∀ token ∈ (tokenize source).tokens, Piece.isLone token.text.toList = false)
    (apart : StandApart (Token.atomsOf (strippedCall callee list closure).tokens) []) :
    (tokenize (Node.render (strippedCall callee list closure))).tokens.map
        (fun token => (token.kind, token.text)) =
      ((Token.atomsOf (strippedCall callee list closure).tokens).filter
        fun token => token.text != "").map fun token => (token.kind, token.text) := by
  obtain ⟨rest, legible, inside⟩ := SourceFile.legible_of_infix rfl whole (infix_of_mem member)
  obtain ⟨item, semicolon⟩ := statement
  obtain rfl : item = .expr (.call callee list closure) := call
  obtain ⟨inner, rfl, present⟩ := CallArguments.exists_eq_ofList closed
  have tokens_eq :
      Token.atomsOf (Statement.mk (.expr (.call callee (.ofList inner) closure)) semicolon).tokens =
        Token.atomsOf (Expr.call callee (.ofList inner) closure).tokens ++
          Token.atomsOf (Node.tokens semicolon) :=
    Token.atomsOf_append _ _
  rw [tokens_eq] at legible inside
  rw [List.forall_mem_append] at inside
  have sound := sound_of_mem (SourceFile.sound_parse source) member
  have listSound : (Shape.list (inner.arguments.map Argument.hasComma)).IsSound := by
    obtain ⟨opener, arguments, closer⟩ := inner
    refine sound _ ?_
    simp [Statement.shapes, Item.shapes, Expr.shapes, CallArguments.ofList, CallArguments.shapes]
  have kept := legible_strippedCall (legible_append.1 legible).1
    (SourceFile.punctuated_of_call member rfl) present (sound_list_iff.1 listSound)
    (fun token isToken => text_ne_of_mem_tokenize (inside.1 token isToken))
    (fun token isToken => lone token (inside.1 token isToken)) apart
  exact kept.readsBack

/-- The parts of a statement that is a call. -/
def Statement.call? : Statement → Option (Expr × CallArguments × Option Closure)
  | ⟨.expr (.call callee list closure), _⟩ => some (callee, list, closure)
  | _ => none

theorem Statement.item_of_call? {statement : Statement}
    {parts : Expr × CallArguments × Option Closure} (call : statement.call? = some parts) :
    statement.item = .expr (.call parts.1 parts.2.1 parts.2.2) := by
  unfold call? at call
  split at call
  · obtain rfl := Option.some.inj call
    rfl
  · cases call

/-- Of `XCTAssertTrue(a, /* b */ message: c)` the argument `a` is left, with the comment. -/
theorem words_strippedCall_labelled :
    ∃ statement ∈ (SourceFile.parse "XCTAssertTrue(a, /* b */ message: c)").statements,
      ∃ parts ∈ statement.call?,
        let stripped := strippedCall parts.1 parts.2.1 parts.2.2
        Node.render stripped = "XCTAssertTrue(a /* b */ )" ∧
        (tokenize (Node.render stripped)).tokens.map (fun token => (token.kind, token.text)) =
          ((Token.atomsOf stripped.tokens).filter fun token => token.text != "").map
            fun token => (token.kind, token.text) := by
  obtain ⟨statement, member, parts, isCall, closed, apart, render_eq⟩ :
      ∃ statement ∈ (SourceFile.parse "XCTAssertTrue(a, /* b */ message: c)").statements,
        ∃ parts ∈ statement.call?,
          let stripped := strippedCall parts.1 parts.2.1 parts.2.2
          parts.2.1.isClosed = true ∧ StandApart (Token.atomsOf stripped.tokens) [] ∧
            Node.render stripped = "XCTAssertTrue(a /* b */ )" := by
    decide +kernel
  exact ⟨statement, member, parts, isCall, render_eq, words_strippedCall (by decide +kernel) member
    (Statement.item_of_call? isCall) closed (by decide +kernel) apart⟩

/-- In `XCTAssertTrue(a, // note` the line break that ends the comment belongs to the label on the
next line. The comment moves behind `a`, the label goes with its line break, and so the comment takes
the closing parenthesis. -/
theorem strippedCall_swallowed :
    let source := "XCTAssertTrue(a, // note\n    file: f)"
    Node.render (SourceFile.parse source) = source ∧ (SourceFile.parse source).statements.length = 1 ∧
      ∃ statement ∈ (SourceFile.parse source).statements, ∃ parts ∈ statement.call?,
        let stripped := strippedCall parts.1 parts.2.1 parts.2.2
        parts.2.1.isClosed = true ∧
        stripped.tokens.map Token.text = ["XCTAssertTrue", "(", "a", ")"] ∧
        Node.render stripped = "XCTAssertTrue(a // note)" ∧
        (tokenize (Node.render stripped)).tokens.map Token.text = ["XCTAssertTrue", "(", "a"] := by
  decide +kernel

end SuiteMigration
