import Mathlib.Tactic.Common
import SuiteMigration.Tree.Tokens
import SuiteMigration.Tree.Transform

/-!
# What binds a name

Parameters, patterns, handlers of errors and local functions bind names. Here it is said of their
tokens, as they are written, which names these are: a parameter has its name before its colon, a
closure lists its parameters with or without parentheses, and in a pattern every name counts that is
no word of patterns, no member and no type.

The names that are looked up in a tree come from scans of its tokens, which count delimiters and
remember what they have just seen. A scan finds every name that is bound, and no name that is not
written among the tokens, or is the `error` of a handler.

What a closure captures and what the label of a case binds is left out, because no scan looks there.

## Main definitions

* `Grouped` - tokens with their delimiters in pairs
* `PatternBinds`, `ParameterClause.Binds`, `ClosureSignature.Binds` - the names that are bound
* `Binder` - something that binds names

## Main results

* `mem_patternNames_iff` - the names of a pattern
* `ParameterClause.mem_names`, `ClosureSignature.mem_parameterNames` - the scans find what is bound
* `Binder.mem_names`, `Binder.isKnown` - both directions for all that binds names
-/

namespace SuiteMigration

/-- The name is written as one of the tokens. -/
def IsSpelled (tokens : List Token) (name : String) : Prop :=
  ∃ token ∈ tokens, token.text = name

theorem IsSpelled.mono {tokens more : List Token} {name : String} (spelled : IsSpelled tokens name)
    (subset : tokens ⊆ more) : IsSpelled more name :=
  spelled.imp fun _ ⟨member, same⟩ => ⟨subset member, same⟩

theorem IsSpelled.tail {token : Token} {later : List Token} {name : String}
    (spelled : IsSpelled later name) : IsSpelled (token :: later) name :=
  spelled.mono (List.subset_cons_self token later)

/-- The name is written as one of the tokens, or it is `error`, which a handler binds unwritten. -/
def IsKnown (tokens : List Token) (name : String) : Prop :=
  name = "error" ∨ IsSpelled tokens name

theorem IsKnown.mono {tokens more : List Token} {name : String} (known : IsKnown tokens name)
    (subset : tokens ⊆ more) : IsKnown more name :=
  known.imp_right (·.mono subset)

/-! ### Delimiters -/

/-- The delimiters among the tokens stand in pairs, and outside of all pairs stand only tokens of
certain kinds. -/
inductive Grouped : (outer : TokenKind → Prop) → List Token → Prop
  | nil {outer : TokenKind → Prop} : Grouped outer []
  | token {outer : TokenKind → Prop} {token : Token} {later : List Token}
      (opens : token.kind.isOpening = false) (closes : token.kind.isClosing = false)
      (isOuter : outer token.kind) (rest : Grouped outer later) :
    Grouped outer (token :: later)
  | group {outer : TokenKind → Prop} {opening closing : Token} {inner later : List Token}
      (opens : opening.kind.isOpening = true) (closes : closing.kind.isClosing = true)
      (within : Grouped (fun _ => True) inner) (rest : Grouped outer later) :
    Grouped outer (opening :: (inner ++ closing :: later))

theorem TokenKind.isOpening_of_isClosing {kind : TokenKind} (closes : kind.isClosing = true) :
    kind.isOpening = false := by
  cases kind <;> first | rfl | cases closes

/-- One of the parts between the commas outside of all pairs begins in a certain way. -/
inductive InSomePart (begins : List Token → Prop) : List Token → Prop
  | here {tokens : List Token} (first : begins tokens) : InSomePart begins tokens
  | later {part : List Token} {comma : Token} {later : List Token}
      (grouped : Grouped (· ≠ .comma) part) (isComma : comma.kind = .comma)
      (rest : InSomePart begins later) :
    InSomePart begins (part ++ comma :: later)

/-! ### Patterns -/

/-- The tokens of a pattern bind the name: it stands among them, not as a member after a period, and
it is neither a word of patterns nor a type. -/
def PatternBinds (tokens : List Token) (name : String) : Prop :=
  ∃ before token after, tokens = before ++ token :: after ∧ token.kind = .identifier ∧
    token.text = name ∧ name ∉ patternWords ∧ startsUppercase name = false ∧
      ∀ last ∈ before.getLast?, last.kind ≠ .period

/-- The names of a pattern are its identifiers in lower case that are no words of patterns and do not
follow a period. -/
theorem mem_patternNamesAfter_iff {tokens : List Token} {afterPeriod : Bool} {name : String} :
    name ∈ patternNamesAfter afterPeriod tokens ↔
      ∃ before token after, tokens = before ++ token :: after ∧ token.kind = .identifier ∧
        token.text = name ∧ name ∉ patternWords ∧ startsUppercase name = false ∧
          (before = [] → afterPeriod = false) ∧ ∀ last ∈ before.getLast?, last.kind ≠ .period := by
  -- Along the scan, the flag says whether the token before was a period.
  induction tokens generalizing afterPeriod with
  | nil => simp [patternNamesAfter]
  | cons first later ih =>
    have here : (afterPeriod = false ∧ isBoundInPattern first = true ∧ first.text = name) ↔
        first.kind = .identifier ∧ first.text = name ∧ name ∉ patternWords ∧
          startsUppercase name = false ∧ afterPeriod = false := by
      simp only [isBoundInPattern, Bool.and_eq_true, beq_iff_eq, Bool.not_eq_true',
        List.contains_eq_mem, decide_eq_false_iff_not]
      constructor
      · rintro ⟨same, ⟨⟨isName, plain⟩, small⟩, rfl⟩
        exact ⟨isName, rfl, plain, small, same⟩
      · rintro ⟨isName, rfl, plain, small, same⟩
        exact ⟨same, ⟨⟨isName, plain⟩, small⟩, rfl⟩
    -- The name is bound by the first token, or by what follows it.
    have split : name ∈ patternNamesAfter afterPeriod (first :: later) ↔
        (afterPeriod = false ∧ isBoundInPattern first = true ∧ first.text = name) ∨
          name ∈ patternNamesAfter (first.kind == .period) later := by
      rw [patternNamesAfter]
      split
      · next bound =>
        obtain ⟨same, bound⟩ : afterPeriod = false ∧ isBoundInPattern first = true := by
          simpa using bound
        simp [same, bound, eq_comm]
      · next free =>
        have free : afterPeriod = false → isBoundInPattern first ≠ true := by simpa using free
        simp only [iff_or_self, and_imp]
        exact fun same bound => absurd bound (free same)
    rw [split, here, ih]
    constructor
    · rintro (⟨isName, same, plain, small, free⟩ |
        ⟨before, token, after, rfl, isName, same, plain, small, free, noMember⟩)
      · exact ⟨[], first, later, rfl, isName, same, plain, small, fun _ => free, by simp⟩
      · refine ⟨first :: before, token, after, rfl, isName, same, plain, small, nofun, ?_⟩
        cases before with
        | nil => simpa using free
        | cons => simpa using noMember
    · rintro ⟨before, token, after, tokens_eq, isName, same, plain, small, free, noMember⟩
      cases before with
      | nil =>
        obtain ⟨rfl, rfl⟩ := List.cons.inj tokens_eq
        exact .inl ⟨isName, same, plain, small, free rfl⟩
      | cons _ before =>
        obtain ⟨rfl, rfl⟩ := List.cons.inj tokens_eq
        refine .inr ⟨before, token, after, rfl, isName, same, plain, small, ?_, ?_⟩
        · rintro rfl
          simpa using noMember
        · intro last isLast
          refine noMember last ?_
          cases before with
          | nil => cases isLast
          | cons => simpa using isLast

/-- The names of a pattern are those that it binds. -/
theorem mem_patternNames_iff {tokens : List Token} {name : String} :
    name ∈ patternNames tokens ↔ PatternBinds tokens name := by
  simp [patternNames, mem_patternNamesAfter_iff, PatternBinds]

/-- A pattern spells the names that it binds. -/
theorem PatternBinds.isSpelled {tokens : List Token} {name : String}
    (binds : PatternBinds tokens name) : IsSpelled tokens name := by
  obtain ⟨before, token, after, rfl, -, same, -⟩ := binds
  exact ⟨token, by simp, same⟩

/-- The pattern binds the name. -/
def Pattern.Binds : Pattern → String → Prop
  | .identifier token, name => token.text = name ∧ name ≠ "_"
  | .raw tokens, name => PatternBinds tokens name

/-- The names of a pattern are those that it binds. -/
theorem Pattern.mem_names_iff {pattern : Pattern} {name : String} :
    name ∈ pattern.names ↔ pattern.Binds name := by
  cases pattern with
  | identifier token =>
    by_cases wild : token.text = "_"
    · simp [Pattern.names, Pattern.Binds, wild, eq_comm]
    · simp only [Pattern.names, Pattern.Binds, beq_iff_eq, wild, if_false, List.mem_singleton]
      constructor
      · rintro rfl
        exact ⟨rfl, wild⟩
      · exact fun ⟨same, _⟩ => same.symm
  | raw tokens => exact mem_patternNames_iff

theorem Pattern.Binds.isSpelled {pattern : Pattern} {name : String} (binds : pattern.Binds name) :
    IsSpelled (Node.tokens pattern) name := by
  cases pattern with
  | identifier token => exact ⟨token, List.mem_cons_self, binds.1⟩
  | raw tokens => exact PatternBinds.isSpelled binds

/-! ### Parameters -/

/-- The tokens begin with a parameter of the given name, which stands right before the colon. -/
def BeginsParameter (name : String) (tokens : List Token) : Prop :=
  ∃ front token colon later, tokens = front ++ token :: colon :: later ∧
    Grouped (fun kind => kind ≠ .comma ∧ kind ≠ .colon) front ∧
    token.kind = .identifier ∧ token.text = name ∧ name ≠ "_" ∧ colon.kind = .colon

/-- The parameters bind the name: one of them has it as its inner name. -/
def ParameterClause.Binds (clause : ParameterClause) (name : String) : Prop :=
  InSomePart (BeginsParameter name) clause.parameters

/-- Inside of delimiters no name is looked for. -/
theorem parameterNamesFrom_grouped {outer : TokenKind → Prop} {part : List Token}
    (grouped : Grouped outer part) (scan : ParameterScan) (deep : scan.depth ≠ 0)
    (rest : List Token) :
    parameterNamesFrom scan (part ++ rest) = parameterNamesFrom scan rest := by
  induction grouped generalizing scan rest with
  | nil => rfl
  | token opens closes _ _ ih =>
    rw [List.cons_append, parameterNamesFrom]
    simpa [opens, closes, deep] using ih scan deep rest
  | group opens closes _ _ inner later =>
    rw [List.cons_append, parameterNamesFrom, if_pos opens, List.append_assoc,
      inner _ (Nat.succ_ne_zero _), List.cons_append, parameterNamesFrom,
      if_neg (by simp [TokenKind.isOpening_of_isClosing closes]), if_pos closes]
    exact later _ deep rest

/-- What is found later is found also if a name stands before it. -/
theorem subset_of_unnamed {found names : List String} (subset : found ⊆ names) (name : String) :
    found ⊆ if name == "_" then names else name :: names := by
  split
  · exact subset
  · exact List.subset_cons_of_subset _ subset

/-- Delimiters in pairs leave the scan outside of them, and what it finds later counts. If no comma
and no colon stands outside, the scan stays before the type of its parameter. -/
theorem exists_parameterNamesFrom {outer : TokenKind → Prop} {part : List Token}
    (grouped : Grouped outer part) (scan : ParameterScan) (top : scan.depth = 0)
    (rest : List Token) :
    ∃ after : ParameterScan, after.depth = 0 ∧
      parameterNamesFrom after rest ⊆ parameterNamesFrom scan (part ++ rest) ∧
      ((∀ kind, outer kind → kind ≠ .comma ∧ kind ≠ .colon) → after.inType = scan.inType) := by
  -- The scan stays outside of all brackets; what a comma or a colon sets is kept in its state.
  induction grouped generalizing scan rest with
  | nil => exact ⟨scan, top, List.Subset.refl _, fun _ => rfl⟩
  | @token outer token later opens closes isOuter _ ih =>
    rw [List.cons_append, parameterNamesFrom, if_neg (by simp [opens]), if_neg (by simp [closes]),
      if_neg (by simp [top])]
    split
    · next isComma =>
      obtain ⟨after, isTop, found, -⟩ := ih {} rfl rest
      exact ⟨after, isTop, found, fun plain => absurd isComma (plain _ isOuter).1⟩
    · next isColon isType =>
      obtain ⟨after, isTop, found, -⟩ := ih { scan with inType := true } top rest
      refine ⟨after, isTop, ?_, fun plain => absurd isColon (plain _ isOuter).2⟩
      split
      · exact subset_of_unnamed found _
      · exact found
    · exact ih { scan with candidate := some token.text } top rest
    · exact ih scan top rest
  | group opens closes grouped _ _ ih =>
    rw [List.cons_append, parameterNamesFrom, if_pos opens, List.append_assoc,
      parameterNamesFrom_grouped grouped _ (Nat.succ_ne_zero _), List.cons_append,
      parameterNamesFrom, if_neg (by simp [TokenKind.isOpening_of_isClosing closes]),
      if_pos closes]
    exact ih scan top rest

/-- A parameter that begins in a part of the clause is among the names found. -/
theorem mem_parameterNamesFrom {tokens : List Token} {name : String}
    (binds : InSomePart (BeginsParameter name) tokens) (scan : ParameterScan)
    (top : scan.depth = 0) (isName : scan.inType = false) :
    name ∈ parameterNamesFrom scan tokens := by
  induction binds generalizing scan with
  | here first =>
    obtain ⟨front, token, colon, later, rfl, grouped, isToken, same, named, isColon⟩ := first
    obtain ⟨after, isTop, found, plain⟩ :=
      exists_parameterNamesFrom grouped scan top (token :: colon :: later)
    apply found
    have stays : after.inType = false := (plain fun _ outer => outer).trans isName
    simp [parameterNamesFrom, TokenKind.isOpening, TokenKind.isClosing, isToken, isColon, isTop,
      stays, same, named]
  | @later part comma later grouped isComma _ ih =>
    obtain ⟨after, isTop, found, -⟩ := exists_parameterNamesFrom grouped scan top (comma :: later)
    apply found
    simpa [parameterNamesFrom, TokenKind.isOpening, TokenKind.isClosing, isComma, isTop]
      using ih {} rfl rfl

/-- The inner name of a parameter is found. -/
theorem ParameterClause.mem_names {clause : ParameterClause} {name : String}
    (binds : clause.Binds name) : name ∈ clause.names :=
  mem_parameterNamesFrom binds {} rfl rfl

/-- The names found in a parameter clause are spelled there. -/
theorem isSpelled_of_mem_parameterNamesFrom {tokens : List Token} {scan : ParameterScan}
    {name : String} (member : name ∈ parameterNamesFrom scan tokens) :
    scan.candidate = some name ∨ IsSpelled tokens name := by
  fun_induction parameterNamesFrom scan tokens with
  | case1 => cases member
  | case2 _ _ _ _ ih | case3 _ _ _ _ _ ih | case4 _ _ _ _ _ _ ih | case10 _ _ _ _ _ _ _ _ _ ih =>
    exact (ih member).imp_right .tail
  | case5 _ token later _ _ _ _ ih =>
    rcases ih member with none | spelled
    · cases none
    · exact .inr spelled.tail
  | case6 _ _ _ _ _ _ _ _ _ _ _ _ ih | case8 _ _ _ _ _ _ _ _ _ _ ih =>
    exact (ih member).imp_right .tail
  | case7 _ _ _ _ _ _ _ _ _ candidate isCandidate _ ih =>
    rcases List.mem_cons.1 member with rfl | member
    · exact .inl isCandidate
    · exact (ih member).imp_right .tail
  | case9 _ token later _ _ _ _ _ ih =>
    rcases ih member with here | spelled
    · exact .inr ⟨token, List.mem_cons_self, Option.some.inj here⟩
    · exact .inr spelled.tail

/-- A parameter clause spells its names. -/
theorem ParameterClause.isSpelled_of_mem_names {clause : ParameterClause} {name : String}
    (member : name ∈ clause.names) : IsSpelled clause.parameters name :=
  (isSpelled_of_mem_parameterNamesFrom member).resolve_left nofun

/-! ### Closures -/

/-- The tokens begin with a parameter of a closure of the given name. The name stands alone, after
another name, or alone after an attribute that has no arguments. -/
def BeginsClosureParameter (name : String) (tokens : List Token) : Prop :=
  ∃ token, token.kind = .identifier ∧ token.text = name ∧ name ≠ "_" ∧
    ((∃ next later, tokens = token :: next :: later ∧ next.kind ≠ .identifier) ∨
      (∃ label later, tokens = label :: token :: later ∧ label.kind = .identifier) ∨
      ∃ sign mark next later, tokens = sign :: mark :: token :: next :: later ∧
        sign.kind = .atSign ∧ mark.kind = .identifier ∧ next.kind ≠ .identifier)

/-- Parameters without parentheses, up to an effect or the result, bind the name. -/
inductive ShorthandBinds (name : String) : List Token → Prop
  | here {token : Token} {later : List Token} (isName : token.kind = .identifier)
      (same : token.text = name) (parameter : name ∉ ["_", "async", "throws"]) :
    ShorthandBinds name (token :: later)
  | later {token comma : Token} {later : List Token} (isName : token.kind = .identifier)
      (parameter : token.text ∉ ["async", "throws"]) (isComma : comma.kind = .comma)
      (rest : ShorthandBinds name later) :
    ShorthandBinds name (token :: comma :: later)

/-- The tokens are a capture list in brackets. -/
def IsCaptureList (tokens : List Token) : Prop :=
  ∃ opening inner closing, tokens = opening :: (inner ++ [closing]) ∧
    opening.kind = .leftBracket ∧ closing.kind = .rightBracket ∧ Grouped (fun _ => True) inner

/-- The signature binds the name: after the captures, if there are any, one of the parameters has
it, be they in parentheses or not. -/
def ClosureSignature.Binds (signature : ClosureSignature) (name : String) : Prop :=
  ∃ captures parameters, signature.tokens = captures ++ parameters ∧
    (captures = [] ∨ IsCaptureList captures) ∧
    (ShorthandBinds name parameters ∨
      ∃ opening later, parameters = opening :: later ∧ opening.kind = .leftParen ∧
        InSomePart (BeginsClosureParameter name) later)

/-- Groups of brackets are passed over on the way to the closing one. -/
theorem afterClosing_grouped {outer : TokenKind → Prop} {part : List Token}
    (grouped : Grouped outer part) (depth : Nat) (rest : List Token) :
    afterClosing (depth + 1) (part ++ rest) = afterClosing (depth + 1) rest := by
  induction grouped generalizing depth rest with
  | nil => rfl
  | token opens closes _ _ ih =>
    rw [List.cons_append, afterClosing, if_neg (by simp [opens]), if_neg (by simp [closes]), ih]
  | group opens closes _ _ inner later =>
    rw [List.cons_append, afterClosing, if_pos opens, List.append_assoc, inner, List.cons_append,
      afterClosing, if_neg (by simp [TokenKind.isOpening_of_isClosing closes]), if_pos closes,
      if_neg (by omega), Nat.add_sub_cancel, later]

/-- A capture list is passed. -/
theorem afterCaptures_append {captures : List Token} (isList : IsCaptureList captures)
    (rest : List Token) : afterCaptures (captures ++ rest) = rest := by
  obtain ⟨opening, inner, closing, rfl, isOpening, isClosing, grouped⟩ := isList
  rw [List.cons_append, afterCaptures, if_pos (by simp [isOpening]), List.append_assoc,
    afterClosing_grouped grouped]
  simp [afterClosing, isClosing, TokenKind.isOpening, TokenKind.isClosing]

/-- A capture list binds nothing. -/
theorem ClosureSignature.parameterNames_captures {captures parameters : List Token}
    (isList : IsCaptureList captures)
    (only : ∀ first ∈ parameters.head?, first.kind ≠ .leftBracket) (keyword : Token) :
    (ClosureSignature.mk (captures ++ parameters) keyword).parameterNames =
      (ClosureSignature.mk parameters keyword).parameterNames := by
  have passed : afterCaptures parameters = parameters := by
    cases parameters with
    | nil => rfl
    | cons first later => rw [afterCaptures, if_neg (by simpa using only)]
  rw [parameterNames, parameterNames, afterCaptures_append isList, passed]

/-- A name bound in shorthand is among the names found. -/
theorem mem_shorthandNames {tokens : List Token} {name : String}
    (binds : ShorthandBinds name tokens) : name ∈ shorthandNames tokens := by
  induction binds with
  | here isName same parameter =>
    subst same
    simp only [List.mem_cons, List.not_mem_nil, or_false, not_or] at parameter
    simp [shorthandNames, isName, parameter]
  | later isName parameter isComma _ ih =>
    simp only [List.mem_cons, List.not_mem_nil, or_false, not_or] at parameter
    simp only [shorthandNames, isName, isComma, parameter, beq_iff_eq, Bool.or_eq_true, or_self,
      if_false]
    split
    · exact ih
    · exact List.mem_cons_of_mem _ ih

/-- A pair of delimiters is passed if what is inside of it is. -/
theorem exists_clauseNames_group {opening closing : Token} {inner : List Token} {depth : Nat}
    (opens : opening.kind.isOpening = true) (closes : closing.kind.isClosing = true)
    (passes : ∀ atStart rest, ∃ after, clauseNames (depth + 2) atStart (inner ++ rest) =
      clauseNames (depth + 2) after rest)
    (atStart : Bool) (rest : List Token) :
    ∃ after, clauseNames (depth + 1) atStart (opening :: (inner ++ closing :: rest)) =
      clauseNames (depth + 1) after rest := by
  obtain ⟨after, passed⟩ := passes (depth + 1 == 0) (closing :: rest)
  refine ⟨after, ?_⟩
  rw [clauseNames, if_pos opens, passed, clauseNames,
    if_neg (by simp [TokenKind.isOpening_of_isClosing closes]), if_pos closes, if_neg (by omega)]
  rfl

/-- Inside of further delimiters no name is looked for. -/
theorem exists_clauseNames_grouped {outer : TokenKind → Prop} {part : List Token}
    (grouped : Grouped outer part) (depth : Nat) (atStart : Bool) (rest : List Token) :
    ∃ after, clauseNames (depth + 2) atStart (part ++ rest) =
      clauseNames (depth + 2) after rest := by
  induction grouped generalizing depth atStart rest with
  | nil => exact ⟨atStart, rfl⟩
  | token opens closes _ _ ih =>
    obtain ⟨after, passed⟩ := ih depth atStart rest
    refine ⟨after, ?_⟩
    rw [List.cons_append, clauseNames]
    simpa [opens, closes] using passed
  | group opens closes _ _ inner later =>
    obtain ⟨between, passed⟩ :=
      exists_clauseNames_group opens closes (inner (depth + 1)) atStart (_ ++ rest)
    obtain ⟨after, passed'⟩ := later depth between rest
    refine ⟨after, ?_⟩
    rw [List.cons_append, List.append_assoc, List.cons_append]
    exact passed.trans passed'

/-- Delimiters in pairs leave the scan between the parentheses, and what it finds later counts. -/
theorem exists_clauseNames {outer : TokenKind → Prop} {part : List Token}
    (grouped : Grouped outer part) (atStart : Bool) (rest : List Token) :
    ∃ after, clauseNames 1 after rest ⊆ clauseNames 1 atStart (part ++ rest) := by
  induction grouped generalizing atStart rest with
  | nil => exact ⟨atStart, List.Subset.refl _⟩
  | @token outer token later opens closes _ _ ih =>
    rw [List.cons_append, clauseNames, if_neg (by simp [opens]), if_neg (by simp [closes])]
    split
    · exact ih true rest
    · split
      · obtain ⟨after, found⟩ := ih false rest
        exact ⟨after, subset_of_unnamed found _⟩
      · exact ih atStart rest
  | group opens closes grouped _ _ later =>
    obtain ⟨between, passed⟩ := exists_clauseNames_group opens closes
      (exists_clauseNames_grouped grouped 0) atStart (_ ++ rest)
    obtain ⟨after, found⟩ := later between rest
    refine ⟨after, ?_⟩
    rw [List.cons_append, List.append_assoc, List.cons_append, passed]
    exact found

/-- A closure parameter that begins in a part of the clause is among the names found. -/
theorem mem_clauseNames {tokens : List Token} {name : String}
    (binds : InSomePart (BeginsClosureParameter name) tokens) :
    name ∈ clauseNames 1 true tokens := by
  induction binds with
  | here first =>
    obtain ⟨token, isName, same, named, begins⟩ := first
    rcases begins with ⟨next, later, rfl, notName⟩ | ⟨label, later, rfl, isLabel⟩ |
      ⟨sign, mark, next, later, rfl, isSign, isMark, -⟩
    · simp [clauseNames, TokenKind.isOpening, TokenKind.isClosing, isName, notName, same, named]
    · simp [clauseNames, TokenKind.isOpening, TokenKind.isClosing, isName, isLabel, same, named]
    · -- The scan takes the name of the attribute for a label.
      simp [clauseNames, TokenKind.isOpening, TokenKind.isClosing, isName, isSign, isMark, same,
        named]
  | @later part comma later grouped isComma _ ih =>
    obtain ⟨after, found⟩ := exists_clauseNames grouped true (comma :: later)
    apply found
    simpa [clauseNames, TokenKind.isOpening, TokenKind.isClosing, isComma] using ih

/-- The parameters of a closure are found. -/
theorem ClosureSignature.mem_parameterNames {signature : ClosureSignature} {name : String}
    (binds : signature.Binds name) : name ∈ signature.parameterNames := by
  obtain ⟨captures, parameters, tokens_eq, isList, binds⟩ := binds
  have begins : parameters ≠ [] ∧ ∀ first ∈ parameters.head?, first.kind ≠ .leftBracket := by
    rcases binds with shorthand | ⟨opening, later, rfl, isOpening, -⟩
    · cases shorthand with
      | here isName | later isName => simp [isName]
    · simp [isOpening]
  have passed : afterCaptures signature.tokens = parameters := by
    rcases isList with rfl | isList
    · obtain ⟨first, later, rfl⟩ := List.exists_cons_of_ne_nil begins.1
      rw [tokens_eq, List.nil_append, afterCaptures, if_neg (by simpa using begins.2)]
    · rw [tokens_eq, afterCaptures_append isList]
  rw [ClosureSignature.parameterNames, passed]
  rcases binds with shorthand | ⟨opening, later, rfl, isOpening, binds⟩
  · obtain ⟨first, later, rfl⟩ := List.exists_cons_of_ne_nil begins.1
    have notParen : first.kind ≠ .leftParen := by
      cases shorthand with
      | here isName | later isName => simp [isName]
    simpa [notParen] using mem_shorthandNames shorthand
  · simpa [isOpening, clauseNames, TokenKind.isOpening] using mem_clauseNames binds

/-- The names found in shorthand are spelled there. -/
theorem isSpelled_of_mem_shorthandNames {tokens : List Token} {name : String}
    (member : name ∈ shorthandNames tokens) : IsSpelled tokens name := by
  fun_induction shorthandNames tokens with
  | case1 => cases member
  | case2 _ _ _ ih => exact (ih member).tail
  | case3 => cases member
  | case4 _ _ _ _ _ ih => exact (ih member).tail
  | case5 token later _ _ _ ih =>
    rcases List.mem_cons.1 member with rfl | member
    · exact ⟨token, List.mem_cons_self, rfl⟩
    · exact (ih member).tail
  | case6 => cases member

/-- The names found in a clause of a closure are spelled there. -/
theorem isSpelled_of_mem_clauseNames {tokens : List Token} {depth : Nat} {atStart : Bool}
    {name : String} (member : name ∈ clauseNames depth atStart tokens) : IsSpelled tokens name := by
  fun_induction clauseNames depth atStart tokens with
  | case1 | case3 => cases member
  | case2 _ _ _ _ _ ih | case4 _ _ _ _ _ _ _ ih | case5 _ _ _ _ _ _ _ ih => exact (ih member).tail
  | case6 _ _ _ _ _ _ _ _ _ _ _ ih | case8 _ _ _ _ _ _ _ _ ih => exact (ih member).tail
  | case7 _ _ token later _ _ _ _ name _ _ ih =>
    rcases List.mem_cons.1 member with rfl | member
    · cases later with
      | nil => exact ⟨token, List.mem_cons_self, rfl⟩
      | cons next later =>
        by_cases isName : next.kind = .identifier
        · exact ⟨next, by simp, by simp [name, isName]⟩
        · exact ⟨token, by simp, by simp [name, isName]⟩
    · exact (ih member).tail

theorem afterClosing_subset (depth : Nat) (tokens : List Token) :
    afterClosing depth tokens ⊆ tokens := by
  fun_induction afterClosing depth tokens with
  | case1 => exact List.Subset.refl _
  | case2 _ _ _ _ ih | case4 _ _ _ _ _ _ ih | case5 _ _ _ _ _ ih =>
    exact List.subset_cons_of_subset _ ih
  | case3 => exact List.subset_cons_self _ _

/-- A closure signature spells the names of its parameters. -/
theorem ClosureSignature.isSpelled_of_mem_parameterNames {signature : ClosureSignature}
    {name : String} (member : name ∈ signature.parameterNames) :
    IsSpelled signature.tokens name := by
  have subset : afterCaptures signature.tokens ⊆ signature.tokens := by
    cases signature.tokens with
    | nil => exact List.Subset.refl _
    | cons first later =>
      rw [afterCaptures]
      split
      · exact List.subset_cons_of_subset _ (afterClosing_subset 1 later)
      · exact List.Subset.refl _
  refine IsSpelled.mono ?_ subset
  rw [ClosureSignature.parameterNames] at member
  split at member
  · cases member
  · next first later tokens_eq =>
    rw [tokens_eq]
    split at member
    · exact isSpelled_of_mem_clauseNames member
    · exact isSpelled_of_mem_shorthandNames member

/-! ### Binders -/

/-- Something that binds names. -/
inductive Binder
  /-- The parameters of a function. -/
  | parameters (clause : ParameterClause)
  /-- The parameters of a closure. -/
  | closure (signature : ClosureSignature)
  /-- A variable, a loop or a condition. -/
  | pattern (pattern : Pattern)
  /-- A handler of errors. -/
  | handler (pattern : List Token)
  /-- A local function. -/
  | function (name : Token)

namespace Binder

/-- The name is bound. A handler without a pattern binds `error`. -/
def Binds : Binder → String → Prop
  | .parameters clause, name => clause.Binds name
  | .closure signature, name => signature.Binds name
  | .pattern form, name => form.Binds name
  | .handler [], name => name = "error"
  | .handler form, name => PatternBinds form name
  | .function token, name => token.text = name

/-- The names that are found. -/
def names : Binder → List String
  | .parameters clause => clause.names
  | .closure signature => signature.parameterNames
  | .pattern form => form.names
  | .handler form => catchNames form
  | .function token => [token.text]

/-- The tokens in which the names are written. -/
def tokens : Binder → List Token
  | .parameters clause => clause.parameters
  | .closure signature => signature.tokens
  | .pattern form => Node.tokens form
  | .handler form => form
  | .function token => [token]

variable {binder : Binder} {name : String}

/-- Every name that is bound is found. -/
theorem mem_names (binds : binder.Binds name) : name ∈ binder.names := by
  match binder with
  | .parameters _ => exact ParameterClause.mem_names binds
  | .closure _ => exact ClosureSignature.mem_parameterNames binds
  | .pattern _ => exact Pattern.mem_names_iff.2 binds
  | .handler [] => exact List.mem_singleton.2 binds
  | .handler (_ :: _) => exact mem_patternNames_iff.2 binds
  | .function _ => exact List.mem_singleton.2 (Eq.symm binds)

/-- Every name that is found is written among the tokens, or it is the `error` of a handler. -/
theorem isKnown (member : name ∈ binder.names) : IsKnown binder.tokens name := by
  match binder with
  | .parameters _ => exact .inr (ParameterClause.isSpelled_of_mem_names member)
  | .closure _ => exact .inr (ClosureSignature.isSpelled_of_mem_parameterNames member)
  | .pattern _ => exact .inr (Pattern.mem_names_iff.1 member).isSpelled
  | .handler [] => exact .inl (List.mem_singleton.1 member)
  | .handler (_ :: _) => exact .inr (mem_patternNames_iff.1 member).isSpelled
  | .function token =>
    exact .inr ⟨token, List.mem_cons_self, (List.mem_singleton.1 member).symm⟩

end Binder

/-- Names that are found for some binders: all that these bind, and none that is not written among
the tokens, apart from the `error` of a handler. -/
structure Finds (names : List String) (binders : List Binder) (tokens : List Token) : Prop where
  bound : ∀ binder ∈ binders, ∀ name, binder.Binds name → name ∈ names
  known : ∀ name ∈ names, IsKnown tokens name

namespace Finds

theorem none (tokens : List Token) : Finds [] [] tokens :=
  ⟨List.forall_mem_nil _, List.forall_mem_nil _⟩

theorem binder (binder : Binder) : Finds binder.names [binder] binder.tokens := by
  refine ⟨?_, fun _ => Binder.isKnown⟩
  simpa using fun _ => Binder.mem_names

variable {names more : List String} {binders others : List Binder} {tokens written : List Token}

/-- Binders found among some tokens are found among more. -/
theorem mono (finds : Finds names binders tokens) (subset : tokens ⊆ written) :
    Finds names binders written :=
  ⟨finds.bound, fun name member => (finds.known name member).mono subset⟩

/-- Binders found in two parts are found in both together. -/
theorem append (first : Finds names binders tokens) (second : Finds more others tokens) :
    Finds (names ++ more) (binders ++ others) tokens := by
  constructor
  · intro binder isBinder name binds
    rcases List.mem_append.1 isBinder with isBinder | isBinder
    · exact List.mem_append_left more (first.bound binder isBinder name binds)
    · exact List.mem_append_right names (second.bound binder isBinder name binds)
  · intro name member
    exact (List.mem_append.1 member).elim (first.known name) (second.known name)

/-- Names that are found for more binders are found for some of them. -/
theorem of_append (finds : Finds names (binders ++ others) tokens) : Finds names binders tokens :=
  ⟨fun binder isBinder => finds.bound binder (List.mem_append_left others isBinder), finds.known⟩

/-- The names of a closure are those of its signature. -/
theorem closure (closure : Closure) :
    Finds closure.parameterNames (closure.signature.toList.map .closure)
      (Node.tokens closure.signature) := by
  rw [Closure.parameterNames]
  cases closure.signature with
  | none => exact none _
  | some signature => exact (binder (.closure signature)).mono (List.subset_append_left _ _)

/-- The names of a loop are those of its pattern, and words before it. -/
theorem loop (modifiers : List Token) (pattern : Pattern) :
    Finds (loopNames modifiers pattern) [.pattern pattern] (modifiers ++ Node.tokens pattern) := by
  have plain : Finds pattern.names [.pattern pattern] (modifiers ++ Node.tokens pattern) :=
    (binder (.pattern pattern)).mono (List.subset_append_right modifiers _)
  rw [loopNames]
  split
  · refine ⟨fun binder isBinder name binds => ?_, fun name member => ?_⟩
    · exact List.mem_append_left _ (plain.bound binder isBinder name binds)
    · rcases List.mem_append.1 member with member | member
      · exact plain.known name member
      · exact .inr ((mem_patternNames_iff.1 member).isSpelled.mono (List.subset_append_left _ _))
  · exact plain

end Finds

end SuiteMigration
