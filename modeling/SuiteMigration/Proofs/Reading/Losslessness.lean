import SuiteMigration.Proofs.Reading.Statements
import SuiteMigration.Tree.Layout

/-!
# A tree gives its text back

The fuel taken from the number of tokens suffices for every function of the grammar, so the tree of
a stream is the one that the grammar reads, and its tokens are those of the stream. Nothing is asked
of the order or the balance of the tokens.

## Main results

* `fueled_start` - the fuel for a stream suffices
* `SourceFile.exists_reading`, `Expr.exists_reading` - what the grammar reads from a stream
* `reading_lossless` - a tree holds the tokens of its stream, and renders to their text
-/

namespace SuiteMigration

/-- The fuel for a stream suffices at its start, for every function of the grammar. -/
theorem fueled_start {stream : TokenStream} (ended : stream.endOfFile.kind = .endOfFile)
    {fuel : Nat} (enough : fuelFor stream ≤ fuel) (rank : Nat) (low : rank ≤ 48) :
    (Cursor.start stream).Fueled rank (fuelFor stream) fuel := by
  have left : (Cursor.start stream).left = stream.tokens.length := rfl
  rw [fuelFor] at enough ⊢
  exact ⟨ended, by omega, by omega⟩

/-- The grammar reads the statements of a file to the end of the stream, with the fuel for the
stream or any more. -/
theorem SourceFile.exists_reading {stream : TokenStream}
    (ended : stream.endOfFile.kind = .endOfFile) :
    ∃ statements last,
      (∀ fuel, fuelFor stream ≤ fuel →
        Parser.fileStatements fuel (.start stream) = some (statements, last)) ∧
      (Cursor.start stream).Reads (tokensOfStatements statements) last ∧ last.pending = [] := by
  have agree {fuel : Nat} (enough : fuelFor stream ≤ fuel) :=
    Parser.agree_fileStatements (fueled_start ended enough 10 (by decide))
  obtain ⟨statements, last, answer, -, reads, done⟩ := agree (Nat.le_refl _)
  refine ⟨statements, last, fun fuel enough => ?_, reads, done⟩
  obtain ⟨statements', last', answer', further, -⟩ := agree enough
  rw [further, ← answer', answer]

/-- The grammar reads an expression at the start of the stream, with the fuel for the stream or any
more. -/
theorem Expr.exists_reading {stream : TokenStream} (ended : stream.endOfFile.kind = .endOfFile)
    (position : Position) :
    ∃ expr last,
      (∀ fuel, fuelFor stream ≤ fuel →
        Parser.expr fuel position (.start stream) = some (expr, last)) ∧
      (Cursor.start stream).Reads expr.tokens last := by
  have agree {fuel : Nat} (enough : fuelFor stream ≤ fuel) :=
    (settled _ _).expr (.start stream) position (fueled_start ended enough 4 (by decide))
  obtain ⟨expr, last, answer, -, reads⟩ := agree (Nat.le_refl _)
  refine ⟨expr, last, fun fuel enough => ?_, reads⟩
  obtain ⟨expr', last', answer', further, -⟩ := agree enough
  rw [further, ← answer', answer]

namespace SourceFile

/-- The tree of a stream is the one that the grammar reads. -/
theorem ofTokens_eq {stream : TokenStream} {statements : List Statement} {last : Cursor}
    (answer : Parser.fileStatements (fuelFor stream) (.start stream) = some (statements, last)) :
    ofTokens stream = { statements, endOfFile := stream.endOfFile } := by
  rw [ofTokens, answer]

theorem atomsOf_tokens_ofTokens {stream : TokenStream}
    (ended : stream.endOfFile.kind = .endOfFile) :
    Token.atomsOf (Node.tokens (ofTokens stream)) = Token.atomsOf stream.toList := by
  obtain ⟨statements, last, answer, reads, done⟩ := exists_reading ended
  have atoms : Token.atomsOf stream.tokens = Token.atomsOf (tokensOfStatements statements) := by
    simpa [Cursor.start, done] using reads.atoms
  rw [ofTokens_eq (answer _ (Nat.le_refl _)), TokenStream.toList, Token.atomsOf_append, atoms,
    ← Token.atomsOf_append]
  rfl

/-- A tree renders to the text of its stream. -/
theorem render_ofTokens {stream : TokenStream} (ended : stream.endOfFile.kind = .endOfFile) :
    Node.render (ofTokens stream) = Token.renderAll stream.toList := by
  rw [Node.render, ← Token.renderAll_atomsOf, atomsOf_tokens_ofTokens ended,
    Token.renderAll_atomsOf]

end SourceFile

namespace Expr

theorem atomsOf_tokens_ofTokens {stream : TokenStream}
    (ended : stream.endOfFile.kind = .endOfFile) :
    Token.atomsOf (ofTokens stream).tokens = Token.atomsOf stream.tokens := by
  obtain ⟨expr, last, answer, reads⟩ := exists_reading ended .free
  have atoms : Token.atomsOf stream.tokens =
      Token.atomsOf expr.tokens ++ Token.atomsOf last.pending := reads.atoms
  rw [ofTokens, answer _ (Nat.le_refl _)]
  simp only
  split
  · next done =>
    rw [Cursor.atEnd, List.isEmpty_iff] at done
    simpa [done] using atoms.symm
  · rw [Expr.tokens, Token.atomsOf_append, atoms]

end Expr

/-- A tree holds the tokens of its stream. For every stream that ends with the token of the end, the
grammar reads all statements of a file with the fuel it is given; the tree that they make stands for
exactly the tokens of the stream, in their order, and renders to their text. The same holds of the
expression that a text spells. -/
theorem reading_lossless :
    (∀ stream : TokenStream, stream.endOfFile.kind = .endOfFile →
      (Parser.fileStatements (fuelFor stream) (.start stream)).isSome ∧
      Token.atomsOf (Node.tokens (SourceFile.ofTokens stream)) = Token.atomsOf stream.toList ∧
      Node.render (SourceFile.ofTokens stream) = Token.renderAll stream.toList) ∧
    ∀ source : String,
      (Parser.expr (fuelFor (tokenize source)) .free (.start (tokenize source))).isSome ∧
      Token.atomsOf (Expr.parse source).tokens = Token.atomsOf (tokenize source).tokens ∧
      Node.render (Expr.parse source) = Token.renderAll (tokenize source).tokens := by
  refine ⟨fun stream ended => ⟨?_, ?_, ?_⟩, fun source => ?_⟩
  · obtain ⟨statements, last, answer, -⟩ := SourceFile.exists_reading ended
    rw [answer _ (Nat.le_refl _)]
    rfl
  · exact SourceFile.atomsOf_tokens_ofTokens ended
  · exact SourceFile.render_ofTokens ended
  · have ended : (tokenize source).endOfFile.kind = .endOfFile := rfl
    have atoms := Expr.atomsOf_tokens_ofTokens ended
    refine ⟨?_, atoms, ?_⟩
    · obtain ⟨expr, last, answer, -⟩ := Expr.exists_reading ended .free
      rw [answer _ (Nat.le_refl _)]
      rfl
    · calc Node.render (Expr.parse source)
          = Token.renderAll (Token.atomsOf (Expr.parse source).tokens) :=
            (Token.renderAll_atomsOf _).symm
        _ = Token.renderAll (Token.atomsOf (tokenize source).tokens) := by
            rw [Expr.parse, atoms]
        _ = Token.renderAll (tokenize source).tokens := Token.renderAll_atomsOf _

/-- A stream without balance, in which a cast takes its mark and a call lacks its parenthesis. -/
theorem reading_lossless_unbalanced :
    Node.render (SourceFile.ofTokens
      { tokens := [.ofPunctuation '}', .ofName "x", (Token.ofName "as").withLeading " ",
          .ofOperator "?", (Token.ofName "Int").withLeading " ", .ofPunctuation '(']
        endOfFile := { kind := .endOfFile, text := "", leading := "\n" } }) = "\x7dx as? Int(\n" :=
  (reading_lossless.1 _ rfl).2.2.trans (by decide)

end SuiteMigration
