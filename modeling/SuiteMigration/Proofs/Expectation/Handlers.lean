import Mathlib.Tactic.Common
import SuiteMigration.Expectation.Throwing
import SuiteMigration.Lexeme
import SuiteMigration.Proofs.Expectation.Throwing
import SuiteMigration.Proofs.Tree.Spacing
import SuiteMigration.Proofs.Tree.Tracing
import SuiteMigration.Reading.Source

/-!
# The parameter of a handler in its new place

When the statements of a handler are moved behind the binding of `error`, the parameter of the
handler goes out of scope. Names that are expressions are redirected, and every other token stays:
so just those mentions of the parameter are left that were no such names. Among them are the
interpolations of string literals, the runs of tokens that are not parsed, the labels of cases and
the capture lists of closures.

## Main definitions

* `interpolatedNames` - the names in the interpolations of a string literal
* `mentions` - a word spells a name, or has it in an interpolation
* `exposes` - a mark outside the closures that bind the parameter anew passes a test
* `Statement.mentions`, `Statement.mentionsBesidesNames` - a statement mentions the parameter, at
  all or other than by a name that is an expression

## Main results

* `traces_redirect` - redirecting leaves the mentions that are no names
* `mentions_after_flattening` - so does moving the statements of a handler
-/

namespace SuiteMigration

variable {κ : Type}

/-! ### Interpolations -/

/-- The text of a literal with the given number of number signs, as it would be without them. The
first argument counts the signs of an escape that are still to be dropped. -/
def withoutSigns (signs : Nat) : Nat → List Char → List Char
  | _, [] => []
  | pending + 1, _ :: rest => withoutSigns signs pending rest
  -- A backslash without the signs is no escape, so it is written as an escaped one.
  | 0, '\\' :: rest =>
    if (List.replicate signs '#').isPrefixOf rest then '\\' :: withoutSigns signs signs rest
    else '\\' :: '\\' :: withoutSigns signs 0 rest
  | 0, c :: rest => c :: withoutSigns signs 0 rest

/-- The characters in the interpolations of a text, with a blank for each delimiter. The parts that
are open inside an interpolation are kept, the innermost first. -/
def interpolated : List Lexeme.StringPart → List Char → List Char
  -- With nothing open, the text of the literal itself is read.
  | [], '\\' :: '(' :: rest => ' ' :: interpolated [.parens] rest
  | [], '\\' :: _ :: rest => interpolated [] rest
  | [], _ :: rest => interpolated [] rest
  | .parens :: opened, ')' :: rest => ' ' :: interpolated opened rest
  | .parens :: opened, '(' :: rest => ' ' :: interpolated (.parens :: .parens :: opened) rest
  | .parens :: opened, '"' :: '"' :: '"' :: rest =>
    ' ' :: interpolated (.block :: .parens :: opened) rest
  | .parens :: opened, '"' :: rest => ' ' :: interpolated (.line :: .parens :: opened) rest
  | .parens :: opened, c :: rest => c :: interpolated (.parens :: opened) rest
  | .block :: opened, '"' :: '"' :: '"' :: rest => interpolated opened rest
  | .line :: opened, '"' :: rest => interpolated opened rest
  | part :: opened, '\\' :: '(' :: rest => interpolated (.parens :: part :: opened) rest
  | part :: opened, '\\' :: _ :: rest => interpolated (part :: opened) rest
  | part :: opened, _ :: rest => interpolated (part :: opened) rest
  | _, [] => []

/-- The character can stand in a name, or begin a numbered parameter. -/
def isNameCharacter (c : Char) : Bool :=
  Text.isIdentifierContinue c || c == '$'

/-- The names in the interpolations of a string literal. -/
def interpolatedNames (literal : String) : List String :=
  let signs := (literal.toList.takeWhile (· == '#')).length
  let code := interpolated [] (withoutSigns signs 0 literal.toList)
  ((code.splitOnP fun c => !isNameCharacter c).filter fun name => !name.isEmpty).map String.ofList

example : interpolatedNames "\"\\(e.code): \\\\(x) \\(f(\"e\"))\"" = ["e", "code", "f"] := by
  decide +kernel

example : interpolatedNames "#\"\\(x) \\#(e)\"#" = ["e"] := by decide +kernel

/-! ### Mentions outside closures that bind the name anew -/

/-- The word is the given name, or a string literal with the name in an interpolation. -/
def mentions (name : String) (word : TokenKind × String) : Bool :=
  match word.1 with
  | .identifier => word.2 == name
  | .stringLiteral => (interpolatedNames word.2).contains name
  | _ => false

/-- A closure with the given names binds the parameter anew. A numbered parameter is bound by every
closure without a signature. -/
def rebinds (parameter : String) (names : Option (List String)) : Bool :=
  if parameter.toList.head? == some '$' then names.isNone else (names.getD []).contains parameter

/-- A closure shadows the parameter when its signature rebinds it. -/
theorem Closure.shadows_eq (closure : Closure) (parameter : String) :
    closure.shadows parameter =
      rebinds parameter (closure.signature.map ClosureSignature.parameterNames) := by
  obtain ⟨left, signature, statements, right⟩ := closure
  cases signature <;> rfl

mutual

/-- The mark, or one in the group, passes its test. Closures that bind the parameter anew are left
out. -/
def Mark.exposes (parameter : String) (name word : TokenKind × String → Bool) : Mark κ → Bool
  | .name spelled => name spelled
  | .word spelled => word spelled
  | .group (.closure names) parts => !rebinds parameter names && exposes parameter name word parts
  | .group (.list _) parts => exposes parameter name word parts

/-- One of the marks passes its test: the first for names, the second for other words. -/
def exposes (parameter : String) (name word : TokenKind × String → Bool) : List (Mark κ) → Bool
  | [] => false
  | mark :: later => mark.exposes parameter name word || exposes parameter name word later

end

section Exposes

variable {parameter : String} {name word : TokenKind × String → Bool}

@[simp] theorem exposes_nil : exposes parameter name word ([] : List (Mark κ)) = false := by
  rw [exposes]

@[simp] theorem exposes_cons (mark : Mark κ) (marks : List (Mark κ)) :
    exposes parameter name word (mark :: marks) =
      (mark.exposes parameter name word || exposes parameter name word marks) := by
  rw [exposes]

@[simp] theorem exposes_append (first second : List (Mark κ)) :
    exposes parameter name word (first ++ second) =
      (exposes parameter name word first || exposes parameter name word second) := by
  induction first with
  | nil => simp
  | cons mark first ih => simp [ih, Bool.or_assoc]

@[simp] theorem exposes_plain (tokens : List Token) :
    exposes parameter name word (plain tokens : List (Mark κ)) =
      tokens.any fun token => word token.word := by
  unfold plain
  induction tokens with
  | nil => simp
  | cons token tokens ih =>
    rw [List.map_cons, List.map_cons, exposes_cons, ih, Mark.exposes, List.any_cons]

end Exposes

/-- The word is a mention of the parameter, but is not spelled as the parameter is. -/
def mentionsWithin (parameter : String) (word : TokenKind × String) : Bool :=
  word.2 != parameter && mentions parameter word

/-! ### Redirecting -/

/-- The bound name does not mention any other name, whatever the class of its token. -/
theorem mentions_errorName {parameter : String} (other : parameter ≠ errorName) (kind : TokenKind) :
    mentions parameter (kind, errorName) = false := by
  have names : interpolatedNames errorName = [] := by decide +kernel
  cases kind <;> simp [mentions, names, other.symm]

/-- For a word that is not the parameter, mentioning it is mentioning it within. -/
theorem mentionsWithin_of_ne {parameter : String} {word : TokenKind × String}
    (different : word.2 ≠ parameter) :
    mentionsWithin parameter word = mentions parameter word := by
  simp [mentionsWithin, different]

/-- The outline after redirecting mentions the parameter just where the outline before it did so
besides names. -/
def Redirects (parameter : String) (old new : List (Mark Unit)) : Prop :=
  exposes parameter (mentions parameter) (mentions parameter) new =
    exposes parameter (mentionsWithin parameter) (mentions parameter) old

/-- Redirecting one list of marks after the other redirects both. -/
theorem compositional_redirects (parameter : String) : Compositional (Redirects parameter) where
  plain tokens := by simp only [Redirects, exposes_plain]
  append first second := by
    simp only [Redirects, exposes_append] at first second ⊢
    rw [first, second]
  closure names parts parts' same := by
    simp only [Redirects, exposes_cons, exposes_nil, Mark.exposes] at same ⊢
    rw [same]

/-- A name other than the parameter stays. -/
theorem redirects_name {parameter : String} {token : Token} (different : token.text ≠ parameter) :
    Redirects parameter [.name token.word] [.name token.word] := by
  simp only [Redirects, exposes_cons, exposes_nil, Mark.exposes]
  rw [mentionsWithin_of_ne different]

/-- The bound name stands for the parameter, alone or with a mark behind it. -/
theorem redirects_parameter {parameter : String} (other : parameter ≠ errorName) {token : Token}
    (same : token.text = parameter) (later : List Token)
    (silent : ∀ token ∈ later, mentions parameter token.word = false) :
    Redirects parameter [.name token.word] (.name (redirected token).word :: plain later) := by
  have own : mentionsWithin parameter token.word = false := by
    simp [mentionsWithin, Token.word, same]
  have new : mentions parameter (redirected token).word = false := mentions_errorName other _
  simp only [Redirects, exposes_cons, exposes_nil, exposes_plain, Mark.exposes, own, new]
  simpa using silent

/-- The renamer redirects every outline, node by node. -/
theorem traces_redirect {parameter : String} (other : parameter ≠ errorName) :
    (redirect parameter).Traces unnoted unnoted (Redirects parameter) where
  toCompositional := compositional_redirects parameter
  name token := by
    simp only [redirect]
    split
    · rename_i same
      exact .pure (redirects_parameter other (by simpa using same) [] (by simp))
    · rename_i different
      exact .pure (redirects_name (by simpa using different))
  expr expr parts unnamed yields := by
    simp only [redirect]
    split
    · cases unnamed
    · split
      · rename_i token period name same
        refine .pure ?_
        -- The mark behind the bound name mentions nothing, and period and member stay.
        have base := redirects_parameter other (by simpa using same)
          [(Token.ofOperator "?").withTrailing token.trailing]
          (by simp [mentions, Token.word, Token.withTrailing, Token.ofOperator])
        exact (compositional_redirects parameter).append base
          ((compositional_redirects parameter).plain [period, name])
      · exact yields
    · exact yields
  rebind closure parts yields := by
    simp only [redirect]
    split
    · rename_i shadowed
      -- Neither side looks into a closure that binds the parameter anew.
      refine .pure ?_
      rw [Closure.shadows_eq] at shadowed
      obtain ⟨left, signature, statements, right⟩ := closure
      simp only at shadowed
      simp only [Redirects, Closure.outline, exposes_cons, exposes_nil, Mark.exposes, shadowed]
      rfl
    · exact yields
  decl _ _ yields := yields
  statement _ _ yields := yields.outline_singleton
  list statements := fun _ same => by
    simp only [Redirects, exposes_cons, exposes_nil, Mark.exposes] at same ⊢
    rw [same]

/-! ### Moving the statements of a handler -/

/-- The statement mentions the parameter, outside closures that bind it anew. -/
def Statement.mentions (parameter : String) (statement : Statement) : Bool :=
  exposes parameter (SuiteMigration.mentions parameter) (SuiteMigration.mentions parameter)
    (statement.outline unnoted)

/-- The statement mentions the parameter, outside closures that bind it anew, and not only as an
expression. -/
def Statement.mentionsBesidesNames (parameter : String) (statement : Statement) : Bool :=
  exposes parameter (mentionsWithin parameter) (SuiteMigration.mentions parameter)
    (statement.outline unnoted)

section Moving

variable {parameter : String}

/-- Trailing trivia mention nothing. -/
theorem Statement.mentions_setTrailing (statement : Statement) (trivia : Trivia) :
    (Node.setTrailing statement trivia).mentions parameter = statement.mentions parameter := by
  have kept := ((statement.keeps shallow_unnoted).setTrailing trivia).1
  rw [Statement.mentions, kept, Statement.mentions]

/-- A semicolon does not mention anything. -/
theorem Statement.mentions_semicolon (item : Item) {semicolon : Option Token}
    (isSemicolon : ∀ token ∈ semicolon, token.kind = .semicolon) :
    Statement.mentions parameter ⟨item, semicolon⟩ = Statement.mentions parameter ⟨item, none⟩ := by
  cases semicolon with
  | none => rfl
  | some token =>
    have silent : SuiteMigration.mentions parameter token.word = false := by
      simp [SuiteMigration.mentions, Token.word, isSemicolon token rfl]
    simp [Statement.mentions, Statement.outline, Node.tokens, silent]

/-- In its new place a statement of the handler mentions the parameter just where it did so besides
names. -/
theorem Placement.mentions_place (placement : Placement) (other : parameter ≠ errorName)
    (statement : Statement) :
    (placement.place (some parameter) statement).mentions parameter =
      statement.mentionsBesidesNames parameter := by
  -- Other trivia do not show in the outline, so only the redirection does.
  have kept := ((statement.keeps shallow_unnoted).setLeading
    (placement.leading (Node.leading statement))).1
  have redirects := (traces_redirect other).yields_statement
    (Node.setLeading statement (placement.leading (Node.leading statement))) ()
  rw [kept] at redirects
  exact redirects

end Moving

/-- After a call with a handler is split, each statement of the handler mentions the parameter just
if it did so other than by a name that is an expression. Mentions in closures that bind the
parameter anew do not count. -/
theorem mentions_after_flattening {statement : Statement} {firstInFile : Bool}
    {statements : List Statement} {callee : Expr} {list : CallArguments} {handler : Closure}
    {parameter : String} (found : statement.flattened? firstInFile = some statements)
    (item_eq : statement.item = .expr (.call callee list (some handler)))
    (named : handler.errorParameter? = some parameter) (other : parameter ≠ errorName)
    (isSemicolon : ∀ token ∈ statement.semicolon, token.kind = .semicolon) :
    statements.tail.map (Statement.mentions parameter) =
      handler.statements.map (Statement.mentionsBesidesNames parameter) := by
  obtain ⟨expectation, call, placement, -, pieces_eq⟩ :=
    Statement.map_of_flattened?_eq_some (Statement.mentions parameter) found item_eq
      (fun own trivia => own.mentions_setTrailing trivia) fun item semicolon added => by
        refine Statement.mentions_semicolon item ?_
        rcases added with rfl | rfl
        · exact isSemicolon
        · simp [Token.ofPunctuation, TokenKind.ofPunctuation?]
  -- The binding stands first, so the rest are the placed statements.
  rw [List.map_tail, pieces_eq, List.tail_cons, named]
  exact List.map_congr_left fun own _ => placement.mentions_place other own

/-- The call of an assertion that `f` throws, with a handler that prints something of the error
`e`. -/
def printingError (argument : Expr) : Statement :=
  let inParentheses (value : Expr) : CallArguments :=
    { leftParen := some (.ofPunctuation '(')
      arguments := [.ofValue value]
      rightParen := some (.ofPunctuation ')') }
  .ofItem <| .expr <| .call (.identifier (.ofName "XCTAssertThrowsError"))
    (inParentheses (.trying (.ofName "try") none (.identifier (.ofName "f"))))
    (some
      { leftBrace := .ofPunctuation '\x7b'
        signature := some { tokens := [.ofName "e"], inKeyword := .ofName "in" }
        statements :=
          [.ofItem <| .expr <|
            .call (.identifier (.ofName "print")) (inParentheses argument) none]
        rightBrace := .ofPunctuation '\x7d' })

theorem mentions_after_flattening_member :
    ∃ statements, (printingError
        (.member (some (.identifier (.ofName "e"))) (.ofPunctuation '.')
          (.ofName "code"))).flattened? true = some statements ∧
      statements.tail.map (Statement.mentions "e") = [false] := by
  obtain ⟨statements, found⟩ : ∃ statements, (printingError
      (.member (some (.identifier (.ofName "e"))) (.ofPunctuation '.')
        (.ofName "code"))).flattened? true = some statements :=
    Option.isSome_iff_exists.1 (by decide +kernel)
  refine ⟨statements, found, ?_⟩
  refine (mentions_after_flattening found rfl rfl (by decide) ?_).trans (by decide +kernel)
  exact fun token present => nomatch present

/-- An interpolation keeps the parameter, although nothing binds it any more. -/
theorem mentions_after_flattening_interpolation :
    ∃ statements, (printingError
        (.literal { kind := .stringLiteral, text := "\"\\(e)\"" })).flattened? true =
          some statements ∧
      statements.tail.any (Statement.mentions "e") = true :=
  (Option.any_eq_true _ _).1 (by decide +kernel)

end SuiteMigration
