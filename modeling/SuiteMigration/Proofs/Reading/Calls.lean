import Mathlib.Tactic.Common
import SuiteMigration.Proofs.Lexing.Words
import SuiteMigration.Proofs.Reading.Progress

/-!
# The punctuation of calls

A call with arguments is read from an opening parenthesis on. Commas stand between its arguments,
and its last token is a closing parenthesis or stands for a missing one. Unlike the shape of the
list, this holds only in the stream of a source, where each token has a text and the last one ends
the source: past the end there is nothing to read but that token.

## Main definitions

* `CallArguments.Punctuated` - the delimiters and commas of a list are of their classes
* `Cursor.Genuine` - the stream of a cursor is like that of a source
* `Parser.Assures` - whatever a computation gives at a genuine cursor meets a condition

## Main results

* `SourceFile.forall_mem_parse` - what holds of the expressions and declarations that are read
* `SourceFile.punctuated_of_call` - the lists of calls that are statements are punctuated
-/

namespace SuiteMigration

/-- The token is one of the class, and no missing one. -/
def Token.IsA (token : Token) (kind : TokenKind) : Prop :=
  token.kind = kind ∧ token.text ≠ ""

/-- The commas of the arguments are tokens of the class of the comma. -/
def HaveCommas (arguments : List Argument) : Prop :=
  ∀ argument ∈ arguments, ∀ comma, argument.comma = some comma → comma.IsA .comma

/-- What stands in the place of the parentheses of a call are parentheses, of which the second may
be missing, and the commas of the call are commas. -/
structure CallArguments.Punctuated (list : CallArguments) : Prop where
  leftParen : ∀ token, list.leftParen = some token → token.IsA .leftParen
  commas : HaveCommas list.arguments
  rightParen : ∀ token, list.rightParen = some token → token.kind = .rightParen

/-- If the expression is a call, its arguments are punctuated. -/
def Expr.IsPunctuated (expr : Expr) : Prop :=
  ∀ callee list closure, expr = .call callee list closure → list.Punctuated

/-- What is no call has no arguments to be punctuated. -/
theorem Expr.IsPunctuated.of_not_call {expr : Expr}
    (other : ∀ callee list closure, expr ≠ .call callee list closure) :
    expr.IsPunctuated :=
  fun callee list closure same => absurd same (other callee list closure)

/-- A closure behind a call leaves its arguments. -/
theorem Expr.IsPunctuated.withClosure {callee : Expr} (punctuated : callee.IsPunctuated)
    (closure : Closure) : (callee.withClosure closure).IsPunctuated := by
  intro outer list closure' same
  unfold Expr.withClosure at same
  split at same
  · next inner arguments =>
    rw [Expr.call.injEq] at same
    obtain ⟨rfl, rfl, -⟩ := same
    exact punctuated _ _ _ rfl
  · cases same
    exact ⟨nofun, nofun, nofun⟩

/-- If the item is a call, its arguments are punctuated. -/
def Item.IsPunctuated (item : Item) : Prop :=
  ∀ expr, item = .expr expr → expr.IsPunctuated

theorem Item.IsPunctuated.of_not_expr {item : Item} (other : ∀ expr, item ≠ .expr expr) :
    item.IsPunctuated :=
  fun expr same => absurd same (other expr)

/-- The stream of the cursor is like that of a source: its tokens have texts, and the last one, which
has none, ends the source. -/
structure Cursor.Genuine (cursor : Cursor) : Prop where
  proper : cursor.Proper
  words : ∀ token ∈ cursor.pending, token.text ≠ ""
  ending : cursor.endOfFile.text = ""

/-- What comes later is as genuine as what came before. -/
theorem Cursor.Passes.genuine {cursor next : Cursor} (passes : cursor.Passes next)
    (genuine : cursor.Genuine) : next.Genuine :=
  ⟨passes.proper genuine.proper, fun token member =>
    genuine.words token (passes.suffix.subset member), by rw [passes.endOfFile, genuine.ending]⟩

namespace Parser

/-- What the computation gives at the cursor meets the condition. -/
def AssuresAt (cursor : Cursor) (p : Parser α) (post : α → Prop) : Prop :=
  ∀ answer next, p cursor = some (answer, next) → post answer

/-- What the computation gives at a genuine cursor meets the condition. -/
def Assures (p : Parser α) (post : α → Prop) : Prop :=
  ∀ cursor : Cursor, cursor.Genuine → AssuresAt cursor p post

section Assures

variable {p q : Parser α} {f : α → Parser β} {cursor : Cursor} {middle : α → Prop} {post : β → Prop}

/-- What is assured of an answer is known when the next computation starts. -/
theorem AssuresAt.bind (genuine : cursor.Genuine) (forward : Forward p)
    (first : AssuresAt cursor p middle) (later : ∀ answer, middle answer → Assures (f answer) post) :
    AssuresAt cursor (p >>= f) post := by
  intro answer last given
  obtain ⟨value, next, read, rest⟩ := bind_eq_some given
  have genuine' := (forward cursor value next read).genuine genuine
  exact later value (first value next read) next genuine' answer last rest

namespace Assures

theorem pure {answer : β} (holds : post answer) : Assures (Pure.pure answer) post := by
  intro cursor _ _ _ given
  cases given
  exact holds

theorem failure : Assures (failure : Parser β) post := by
  intro cursor _ _ _ given
  cases given

/-- What is assured of an answer is known in what comes after it. -/
theorem bind (forward : Forward p) (first : Assures p middle)
    (later : ∀ answer, middle answer → Assures (f answer) post) : Assures (p >>= f) post :=
  fun cursor genuine => (first cursor genuine).bind genuine forward later

/-- A step whose answer does not matter. -/
theorem after (forward : Forward p) (later : ∀ answer, Assures (f answer) post) :
    Assures (p >>= f) post :=
  bind forward (fun _ _ _ _ _ => trivial : Assures p fun _ => True) fun answer _ => later answer

/-- A computation that looks at the cursor goes on there. -/
theorem get {f : Cursor → Parser β}
    (later : ∀ cursor : Cursor, cursor.Genuine → AssuresAt cursor (f cursor) post) :
    Assures (MonadState.get >>= f) post :=
  later

/-- A computation that asks something of the cursor goes on there. -/
theorem ask {question : Cursor → α}
    (later : ∀ cursor : Cursor, cursor.Genuine → AssuresAt cursor (f (question cursor)) post) :
    Assures (Parser.ask question >>= f) post :=
  later

/-- A node may be assured more than its parts. -/
theorem map {make : α → β} (forward : Forward p) (holds : ∀ answer, post (make answer)) :
    Assures (make <$> p) post := by
  rw [← bind_pure_comp]
  exact after forward fun answer => pure (holds answer)

theorem ite {condition : Prop} [Decidable condition] {p q : Parser β} (holds : Assures p post)
    (fails : Assures q post) : Assures (if condition then p else q) post := by
  split
  · exact holds
  · exact fails

end Assures

theorem AssuresAt.ite {condition : Prop} [Decidable condition] {p q : Parser β}
    (holds : condition → AssuresAt cursor p post) (fails : AssuresAt cursor q post) :
    AssuresAt cursor (if condition then p else q) post := by
  split
  · next true_ => exact holds true_
  · exact fails

end Assures

/-! ### Delimiters and commas -/

variable {fuel : Nat} {position : Position}

/-- A token that is found to be of a kind is one of the source. -/
theorem isA_bump {cursor : Cursor} (genuine : cursor.Genuine) {kind : TokenKind}
    (start : cursor.isAt kind = true) (other : kind ≠ .endOfFile) : cursor.bump.1.IsA kind := by
  have some := genuine.proper.pending_ne_nil_of_isAt start other
  rw [Cursor.bump_fst some]
  rw [Cursor.isAt, beq_iff_eq] at start
  refine ⟨start, genuine.words _ ?_⟩
  obtain ⟨token, later, pending⟩ := List.exists_cons_of_ne_nil some
  simp [Cursor.peek, pending]

theorem assures_bumpIf {kind : TokenKind} (other : kind ≠ .endOfFile) :
    Assures (bumpIf (·.isAt kind)) fun token => ∀ found, token = some found → found.IsA kind := by
  intro cursor genuine token next given found same
  cases holds : cursor.isAt kind with
  | false =>
    rw [bumpIf_of_not holds] at given
    cases given
    cases same
  | true =>
    rw [bumpIf_of holds] at given
    cases given
    obtain rfl := Option.some.inj same
    exact isA_bump genuine holds other

/-- A required token is of its kind, missing or not. -/
theorem assures_expect {kind : TokenKind} (other : kind ≠ .endOfFile) :
    Assures (expect kind) fun token => token.kind = kind := by
  refine .bind (.bumpIf _) (assures_bumpIf other) fun token isKind => .pure ?_
  cases token with
  | none => rfl
  | some token => exact (isKind token rfl).1

/-- All arguments but the last have commas. -/
theorem assures_arguments (fuel : Nat) (closer : TokenKind) :
    Assures (arguments fuel closer) HaveCommas := by
  have nothing : Assures (Pure.pure []) HaveCommas := .pure (by simp [HaveCommas])
  induction fuel with
  | zero => exact .failure
  | succ fuel ih =>
    have grammar := allForward fuel
    rw [arguments]
    refine .after (.ask _) fun _ => .ite nothing ?_
    refine .after forward_label fun _ => .after (grammar.expr .free) fun _ =>
      .after (forward_absorbStray _ _) fun _ =>
      .bind (.bumpIf _) (assures_bumpIf (by decide)) fun comma isComma => .ite nothing ?_
    refine .ite (.bind (grammar.arguments closer) ih fun later commas => .pure ?_)
      (.bind (.pure []) nothing fun later commas => .pure ?_)
    iterate 2 exact List.forall_mem_cons.2 ⟨isComma, commas⟩

/-- A list that begins at an opening parenthesis is punctuated. -/
theorem assuresAt_argumentList {cursor : Cursor} (genuine : cursor.Genuine)
    (start : cursor.isAt .leftParen = true) :
    AssuresAt cursor (argumentList fuel .rightParen) fun list =>
      (CallArguments.ofList list).Punctuated := by
  cases fuel with
  | zero => exact Assures.failure cursor genuine
  | succ fuel =>
    have first : AssuresAt cursor bump fun opener => opener.IsA .leftParen := by
      intro token next given
      obtain rfl : cursor.bump.1 = token := congrArg Prod.fst (Option.some.inj given)
      exact isA_bump genuine start (by decide)
    rw [argumentList]
    refine first.bind genuine .bump fun opener isOpener => ?_
    refine .bind ((allForward fuel).arguments _) (assures_arguments fuel _) fun _ commas =>
      .bind (.expect _) (assures_expect (by decide)) fun _ closer => .pure ?_
    refine ⟨?_, commas, ?_⟩
    · rintro _ ⟨⟩
      exact isOpener
    · rintro _ ⟨⟩
      exact closer

/-! ### Calls -/

/-- Suffixes leave the calls before them punctuated. -/
theorem assures_suffixes (fuel : Nat) (position : Position) {base : Expr}
    (punctuated : base.IsPunctuated) :
    Assures (suffixes fuel position base) Expr.IsPunctuated := by
  induction fuel generalizing base with
  | zero => exact .failure
  | succ fuel ih =>
    have grammar := allForward fuel
    have other {expr : Expr}
        (other : ∀ callee list closure, expr ≠ .call callee list closure) :
        Assures (suffixes fuel position expr) Expr.IsPunctuated := ih (.of_not_call other)
    rw [suffixes]
    refine .get fun cursor genuine => .ite (fun _ => ?_) (.ite (fun atParen => ?_)
      (.ite (fun _ => ?_) (.ite (fun _ => ?_) (.ite (fun _ => ?_) ?_))))
    · exact Assures.after .bump (fun _ => .after .bump fun _ => other (by simp)) cursor genuine
    · rw [Bool.and_eq_true] at atParen
      refine (assuresAt_argumentList genuine atParen.1).bind genuine (grammar.argumentList _)
        fun list listPunctuated => ih ?_
      intro callee list' closure same
      cases same
      exact listPunctuated
    · exact Assures.after (grammar.argumentList _) (fun _ => other (by simp)) cursor genuine
    · exact Assures.after grammar.closure (fun _ => ih (punctuated.withClosure _)) cursor genuine
    · exact Assures.after .bump (fun _ => other (by simp)) cursor genuine
    · split
      · exact Assures.after (.run _) (fun _ => other (by simp)) cursor genuine
      · exact Assures.pure punctuated cursor genuine

theorem assures_collection (fuel : Nat) : Assures (collection fuel) Expr.IsPunctuated := by
  cases fuel with
  | zero => exact .failure
  | succ fuel =>
    rw [collection]
    refine .after .bump fun _ => .after (.ask _) fun _ => .ite ?_ ?_
    · exact .after .bump fun _ => .after .bump fun _ => .pure (.of_not_call (by simp))
    · exact .after (allForward fuel).elements fun _ => .after (.expect _) fun _ =>
        .pure (.of_not_call (by simp))

theorem assures_primary (fuel : Nat) (position : Position) :
    Assures (primary fuel position) Expr.IsPunctuated := by
  cases fuel with
  | zero => exact .failure
  | succ fuel =>
    have grammar := allForward fuel
    have nothing : Assures (Pure.pure Expr.empty) Expr.IsPunctuated :=
      .pure (.of_not_call (by simp [Expr.empty]))
    have single (make : Token → Expr)
        (other : ∀ token callee list closure, make token ≠ .call callee list closure) :
        Assures (make <$> bump) Expr.IsPunctuated :=
      .map .bump fun token => .of_not_call (other token)
    rw [primary]
    refine .after (.ask _) fun token => ?_
    split
    · exact .ite (single _ (by simp)) (.ite nothing (single _ (by simp)))
    · exact single _ (by simp)
    iterate 2 exact single _ (by simp)
    · exact .map (grammar.argumentList _) fun _ => .of_not_call (by simp)
    · exact assures_collection fuel
    · exact .ite (.map grammar.closure fun _ => .of_not_call (by simp)) nothing
    · exact .after .bump fun _ => .after (.bumpIf _) fun _ => .pure (.of_not_call (by simp))
    · exact nothing

theorem assures_unary (fuel : Nat) (position : Position) :
    Assures (unary fuel position) Expr.IsPunctuated := by
  cases fuel with
  | zero => exact .failure
  | succ fuel =>
    have grammar := allForward fuel
    rw [unary]
    refine .after .get fun _ => .ite ?_ (.ite ?_ (.ite ?_ (.ite ?_ ?_)))
    · exact .after .bump fun _ => .after (.bumpIf _) fun _ => .after (grammar.expr _) fun _ =>
        .pure (.of_not_call (by simp))
    · exact .after .bump fun _ => .after (grammar.expr _) fun _ => .pure (.of_not_call (by simp))
    · exact .after .bump fun _ => .after (grammar.unary _) fun _ => .pure (.of_not_call (by simp))
    · exact .after .bump fun _ => .after (grammar.primary _) fun _ =>
        .after (grammar.suffixes _ _) fun _ => .pure (.of_not_call (by simp))
    · exact .bind (grammar.primary _) (assures_primary fuel position) fun _ punctuated =>
        .ite (.pure punctuated) (assures_suffixes fuel position punctuated)

/-- An expression that is read has its calls punctuated. -/
theorem assures_expr (fuel : Nat) (position : Position) :
    Assures (expr fuel position) Expr.IsPunctuated := by
  cases fuel with
  | zero => exact .failure
  | succ fuel =>
    have grammar := allForward fuel
    rw [expr]
    refine .bind (grammar.unary _) (assures_unary fuel position) fun _ punctuated =>
      .ite (.pure punctuated) (.after (grammar.terms _ _) fun rest => .pure ?_)
    unfold Expr.ofTerms
    split
    · exact punctuated
    · exact .of_not_call (by simp)

/-! ### Statements -/

section Items

-- A condition on items that only expressions and declarations can fail.
variable {post : Item → Prop}
  (expression : ∀ fuel, Assures (Parser.expr fuel .free) fun expr => post (.expr expr))
  (declaration : ∀ fuel, Assures (Parser.decl fuel) fun decl => post (.decl decl))
  (other : ∀ item : Item, (∀ expr, item ≠ .expr expr) → (∀ decl, item ≠ .decl decl) → post item)

include expression declaration other

/-- What a statement does meets the condition. -/
theorem assures_item (fuel : Nat) : Assures (item fuel) post := by
  cases fuel with
  | zero => exact .failure
  | succ fuel =>
    have grammar := allForward fuel
    have expression : Assures (Item.expr <$> Parser.expr fuel .free) post := by
      rw [← bind_pure_comp]
      exact .bind (grammar.expr .free) (expression fuel) fun _ holds => .pure holds
    have declaration : Assures (Item.decl <$> Parser.decl fuel) post := by
      rw [← bind_pure_comp]
      exact .bind grammar.decl (declaration fuel) fun _ holds => .pure holds
    have mapped {α : Type} {p : Parser α} {make : α → Item} (forward : Forward p)
        (noExpr : ∀ answer expr, make answer ≠ .expr expr)
        (noDecl : ∀ answer decl, make answer ≠ .decl decl) : Assures (make <$> p) post :=
      .map forward fun answer => other _ (noExpr answer) (noDecl answer)
    have done {item : Item} (noExpr : ∀ expr, item ≠ .expr expr)
        (noDecl : ∀ decl, item ≠ .decl decl) : Assures (Pure.pure item) post :=
      .pure (other item noExpr noDecl)
    have pattern := Forward.of_agree agree_pattern
    have type := Forward.of_agree agree_annotatedType
    rw [item]
    refine .after .get fun cursor => .ite (mapped (.run _) (by simp) (by simp))
      (.ite (mapped (.run _) (by simp) (by simp)) (.ite declaration (.ite ?_ expression)))
    -- No statement that begins with a keyword is an expression or a declaration.
    generalize cursor.peek.text = word
    split
    · exact mapped grammar.ifStatement (by simp) (by simp)
    · exact .after .bump fun _ => .after grammar.conditions fun _ => .after (.expectKeyword _) fun _ =>
        .after grammar.codeBlock fun _ => done (by simp) (by simp)
    · exact .after .bump fun _ => .after (.run _) fun _ => .after pattern fun _ => .after type fun _ =>
        .after (.expectKeyword _) fun _ => .after (grammar.expr _) fun _ =>
        .after (grammar.clause _ _) fun _ => .after grammar.codeBlock fun _ =>
        done (by simp) (by simp)
    · exact .after .bump fun _ => .after grammar.conditions fun _ => .after grammar.codeBlock fun _ =>
        done (by simp) (by simp)
    · exact .after .bump fun _ => .after grammar.codeBlock fun _ => .after (.expectKeyword _) fun _ =>
        .ite (.after (.pure _) fun _ => done (by simp) (by simp))
          (.after (grammar.expr _) fun _ => done (by simp) (by simp))
    · exact .after .bump fun _ => .after (.bumpIf _) fun _ => .after (.run _) fun _ =>
        .after grammar.codeBlock fun _ => .after grammar.catches fun _ => done (by simp) (by simp)
    · refine .after .bump fun _ => .after (grammar.expr _) fun _ => .after (.bumpIf _) fun brace => ?_
      cases brace with
      | none => exact done (by simp) (by simp)
      | some brace =>
        exact .after grammar.switchCases fun _ => .after (.expect _) fun _ =>
          done (by simp) (by simp)
    · exact .after .bump fun _ => .after grammar.codeBlock fun _ => done (by simp) (by simp)
    · exact .after .bump fun _ => .after (.ask _) fun _ => .ite (done (by simp) (by simp))
        (.after (grammar.expr _) fun _ => done (by simp) (by simp))
    · exact .after .bump fun _ => .after (grammar.expr _) fun _ => done (by simp) (by simp)
    iterate 2 exact .after .bump fun _ => .after (.bumpIf _) fun _ => done (by simp) (by simp)
    · exact mapped (.run _) (by simp) (by simp)
    · exact expression

theorem assures_statement (fuel : Nat) :
    Assures (statement fuel) fun statement => post statement.item := by
  cases fuel with
  | zero => exact .failure
  | succ fuel =>
    have last {item : Item} (holds : post item) :
        Assures (do
          let semicolon ← bumpIf (·.isAt .semicolon)
          return ({ item, semicolon } : Statement)) fun statement => post statement.item :=
      .after (.bumpIf _) fun _ => .pure holds
    rw [statement]
    refine .after (.ask _) fun _ => .bind (allForward fuel).item
      (assures_item expression declaration other fuel) fun item holds =>
        .after (.ask _) fun _ => .ite ?_ ?_
    · exact .bind (.map .bump) (.map .bump fun _ => other _ (by simp) (by simp)) fun _ => last
    · exact .bind (.pure item) (.pure holds) fun _ => last

/-- All statements of a file meet the condition. -/
theorem assures_fileStatements (fuel : Nat) :
    Assures (fileStatements fuel) fun statements => ∀ statement ∈ statements, post statement.item := by
  induction fuel with
  | zero => exact .failure
  | succ fuel ih =>
    have raw : Assures ((fun token => Statement.ofItem (.raw [token])) <$> bump)
        fun statement => post statement.item :=
      .map .bump fun _ => other _ (by simp [Statement.ofItem]) (by simp [Statement.ofItem])
    rw [fileStatements]
    refine .after (.ask _) fun _ => .ite (.pure (by simp)) (.after (.ask _) fun _ => .ite ?_ ?_)
    · exact .bind (.map .bump) raw fun _ holds => .bind (forward_fileStatements fuel) ih
        fun _ later => .pure (List.forall_mem_cons.2 ⟨holds, later⟩)
    · exact .bind (allForward fuel).statement (assures_statement expression declaration other fuel)
        fun _ holds => .bind (forward_fileStatements fuel) ih
          fun _ later => .pure (List.forall_mem_cons.2 ⟨holds, later⟩)

end Items

end Parser

/-- A condition that only expressions and declarations can fail holds of the statements of a source
if it holds of all expressions and declarations that are read. -/
theorem SourceFile.forall_mem_parse (post : Item → Prop)
    (expression : ∀ fuel, Parser.Assures (Parser.expr fuel .free) fun expr => post (.expr expr))
    (declaration : ∀ fuel, Parser.Assures (Parser.decl fuel) fun decl => post (.decl decl))
    (other : ∀ item : Item, (∀ expr, item ≠ .expr expr) → (∀ decl, item ≠ .decl decl) → post item)
    (source : String) : ∀ statement ∈ (parse source).statements, post statement.item := by
  have genuine : (Cursor.start (tokenize source)).Genuine :=
    ⟨rfl, fun _ => text_ne_of_mem_tokenize, rfl⟩
  unfold parse ofTokens
  split
  · next given =>
    exact Parser.assures_fileStatements expression declaration other _ _ genuine _ _ given
  · intro statement isRaw
    rw [List.mem_singleton.1 isRaw]
    exact other _ (by simp [Statement.ofItem]) (by simp [Statement.ofItem])

/-- The lists of the calls that are statements of a source are punctuated. -/
theorem SourceFile.punctuated_of_call {source : String} {statement : Statement}
    (member : statement ∈ (parse source).statements) {callee : Expr} {list : CallArguments}
    {closure : Option Closure} (call : statement.item = .expr (.call callee list closure)) :
    list.Punctuated := by
  have all := forall_mem_parse Item.IsPunctuated (fun fuel => ?_) (fun fuel => ?_)
    (fun item noExpr _ => .of_not_expr noExpr) source
  · exact all statement member _ call _ _ _ rfl
  · intro cursor genuine expr next given other same
    cases same
    exact Parser.assures_expr fuel .free cursor genuine expr next given
  · intro _ _ _ _ _
    exact .of_not_expr (by simp)

end SuiteMigration
