import Mathlib.Tactic.Common
import SuiteMigration.Tree.Layout

/-!
# Filling the places of a node

A change of the trivia at an end of a node is a change of its list of tokens that keeps the words,
and keeps the trivia after every token but the last. Filling a node from such a list takes as many
tokens as the node has, and the node has these tokens afterwards.

## Main definitions

* `Edited` - a list of tokens with other trivia before them and at the end
* `Supply.Fills` - an action that takes as many tokens from the supply as there were before
* `LawfulNode` - a node has the tokens with which it is filled

## Main results

* `Edited.split` - an edit of two lists in a row is an edit of each
* `edited_leading`, `edited_trailing` - the trivia at the ends of a list are changed by an edit
* `Supply.Fills.bind` - places that are filled one after the other
-/

namespace SuiteMigration

/-! ### Edits of a list of tokens -/

/-- The word of a token, without its trivia. -/
def Token.word (token : Token) : TokenKind × String :=
  (token.kind, token.text)

/-- The new tokens have the words of the old ones, and the same trivia after each but the last. -/
structure Edited (old new : List Token) : Prop where
  words : new.map Token.word = old.map Token.word
  inner : new.dropLast.map Token.trailing = old.dropLast.map Token.trailing

namespace Edited

variable {old new first second : List Token} {token : Token}

/-- Edited tokens are as many as before. -/
theorem length_eq (edited : Edited old new) : new.length = old.length := by
  simpa using congrArg List.length edited.words

@[simp] theorem nil_left : Edited [] new ↔ new = [] := by
  constructor
  · intro edited
    exact List.eq_nil_of_length_eq_zero edited.length_eq
  · rintro rfl
    exact ⟨rfl, rfl⟩

/-- An edit of two lists in a row. Only the trivia at the end of the second can be other ones. -/
theorem split (edited : Edited (first ++ second) new) :
    ∃ front back, new = front ++ back ∧ Edited first front ∧ Edited second back ∧
      (second ≠ [] → front.map Token.trailing = first.map Token.trailing) := by
  obtain ⟨words, inner⟩ := edited
  rw [List.map_append, List.map_eq_append_iff] at words
  obtain ⟨front, back, rfl, frontWords, backWords⟩ := words
  have frontLength : front.length = first.length := by simpa using congrArg List.length frontWords
  have backLength : back.length = second.length := by simpa using congrArg List.length backWords
  refine ⟨front, back, rfl, ?_⟩
  by_cases empty : second = []
  · subst empty
    obtain rfl : back = [] := List.eq_nil_of_length_eq_zero backLength
    exact ⟨⟨frontWords, by simpa using inner⟩, ⟨rfl, rfl⟩, fun absurd => (absurd rfl).elim⟩
  · have backNonempty : back ≠ [] := by
      rintro rfl
      exact empty (List.eq_nil_of_length_eq_zero backLength.symm)
    rw [List.dropLast_append_of_ne_nil backNonempty, List.dropLast_append_of_ne_nil empty,
      List.map_append, List.map_append] at inner
    obtain ⟨frontTrivia, backTrivia⟩ := List.append_inj inner (by simpa using frontLength)
    refine ⟨⟨frontWords, ?_⟩, ⟨backWords, backTrivia⟩, fun _ => frontTrivia⟩
    rw [List.map_dropLast, List.map_dropLast, frontTrivia]

/-- Trivia that are kept over two lists in a row are kept over each. -/
theorem kept_append {newFirst newSecond : List Token} (edited : Edited first newFirst)
    (kept : (newFirst ++ newSecond).map Token.trailing = (first ++ second).map Token.trailing) :
    newFirst.map Token.trailing = first.map Token.trailing ∧
      newSecond.map Token.trailing = second.map Token.trailing := by
  rw [List.map_append, List.map_append] at kept
  exact List.append_inj kept (by simpa using edited.length_eq)

/-- Of edited tokens the first belongs to the first. -/
theorem split_cons (edited : Edited (token :: second) new) :
    ∃ head back, new = head :: back ∧ head.word = token.word ∧ Edited second back := by
  rw [← List.singleton_append] at edited
  obtain ⟨front, back, rfl, ⟨words, -⟩, backEdited, -⟩ := edited.split
  obtain ⟨head, rfl, same⟩ := List.map_eq_singleton_iff.1 words
  exact ⟨head, back, rfl, same, backEdited⟩

end Edited

/-- Setting the leading trivia edits tokens. -/
theorem edited_leading (trivia : Trivia) (tokens : List Token) :
    Edited tokens (modifyFirst (·.withLeading trivia) tokens) := by
  match tokens with
  | [] => exact ⟨rfl, rfl⟩
  | [_] => exact ⟨rfl, rfl⟩
  | _ :: _ :: _ => exact ⟨rfl, rfl⟩

/-- Setting the trailing trivia edits tokens. -/
theorem edited_trailing (trivia : Trivia) (tokens : List Token) :
    Edited tokens (modifyLast (·.withTrailing trivia) tokens) := by
  match tokens with
  | [] => exact ⟨rfl, rfl⟩
  | [_] => exact ⟨rfl, rfl⟩
  | first :: second :: later =>
    have edited := edited_trailing trivia (second :: later)
    have nonempty : modifyLast (·.withTrailing trivia) (second :: later) ≠ [] := by
      intro empty
      simpa [empty] using edited.length_eq
    constructor
    · simpa [modifyLast] using edited.words
    · simpa [modifyLast, List.dropLast_cons_of_ne_nil nonempty] using edited.inner

/-! ### Actions that fill places -/

namespace Supply

variable {α β : Type} {old later : List Token} {token : Token}

/-- Given an edit of the old tokens, the action takes just the new ones from the supply, and what
it makes of them meets the condition. -/
def Fills (action : Supply α) (old : List Token) (post : List Token → α → Prop) : Prop :=
  ∀ new rest, Edited old new → ∃ value, action (new ++ rest) = (value, rest) ∧ post new value

namespace Fills

variable {action : Supply α} {next : α → Supply β} {post post' : List Token → α → Prop}
  {goal : List Token → β → Prop}

/-- A weaker postcondition is met as well. -/
theorem mono (fills : action.Fills old post)
    (weaker : ∀ new value, Edited old new → post new value → post' new value) :
    action.Fills old post' := by
  intro new rest edited
  obtain ⟨value, taken, holds⟩ := fills new rest edited
  exact ⟨value, taken, weaker new value edited holds⟩

theorem cast (fills : action.Fills old post) (same : later = old) : action.Fills later post :=
  same ▸ fills

theorem pure {value : α} (holds : post [] value) : Fills (Pure.pure value) [] post := by
  intro new rest edited
  obtain rfl := Edited.nil_left.1 edited
  exact ⟨value, rfl, holds⟩

/-- Places are filled one after the other. The second part learns that the trivia of the first are
kept as soon as tokens follow. -/
theorem bind (first : action.Fills old post)
    (second : ∀ new value, Edited old new →
      (later ≠ [] → new.map Token.trailing = old.map Token.trailing) → post new value →
      (next value).Fills later fun newer => goal (new ++ newer)) :
    Fills (action >>= next) (old ++ later) goal := by
  intro new rest edited
  obtain ⟨front, back, rfl, frontEdited, backEdited, kept⟩ := edited.split
  obtain ⟨value, taken, holds⟩ := first front (back ++ rest) frontEdited
  obtain ⟨result, takenLater, holdsLater⟩ :=
    second front value frontEdited kept holds back rest backEdited
  refine ⟨result, ?_, holdsLater⟩
  rw [List.append_assoc]
  show next (action (front ++ (back ++ rest))).1 (action (front ++ (back ++ rest))).2 = _
  rw [taken]
  exact takenLater

/-- The last place of a node is filled, and the node is made. -/
theorem bind_pure {make : α → β} (last : action.Fills old post)
    (made : ∀ new value, Edited old new → post new value → goal new (make value)) :
    Fills (action >>= fun value => Pure.pure (make value)) old goal := by
  intro new rest edited
  obtain ⟨value, taken, holds⟩ := last new rest edited
  refine ⟨make value, ?_, made new value edited holds⟩
  show (make (action (new ++ rest)).1, (action (new ++ rest)).2) = _
  rw [taken]

/-- A node made of the last filled part is filled with it. -/
theorem map {make : α → β} (last : action.Fills old post)
    (made : ∀ new value, Edited old new → post new value → goal new (make value)) :
    Fills (make <$> action) old goal :=
  bind_pure last made

/-- A token is filled with one token that has its word. -/
theorem single : Fills (Node.fill token) [token] fun new value =>
    new = [value] ∧ value.word = token.word := by
  intro new rest edited
  obtain ⟨head, back, rfl, same, backEdited⟩ := edited.split_cons
  obtain rfl := Edited.nil_left.1 backEdited
  exact ⟨head, rfl, rfl, same⟩

/-- A place for one token is filled first. -/
theorem bind_token {next : Token → Supply β}
    (second : ∀ value, value.word = token.word →
      (next value).Fills later fun newer => goal (value :: newer)) :
    Fills (Node.fill token >>= next) (token :: later) goal :=
  bind single fun _ value _ _ ⟨new_eq, same⟩ => new_eq ▸ second value same

end Fills

end Supply

/-! ### Parts that hold tokens only -/

/-- A node that has the tokens with which it is filled. -/
class LawfulNode (α : Type) [Node α] : Prop where
  fills : ∀ node : α, (Node.fill node).Fills (Node.tokens node) fun new value =>
    Node.tokens value = new

namespace Supply.Fills

variable {α β : Type} [Node α] [LawfulNode α] {node : α} {later : List Token}
  {goal : List Token → β → Prop}

/-- The places of a part that holds tokens only are filled first. -/
theorem bind_node {next : α → Supply β}
    (second : ∀ value : α, (next value).Fills later fun newer =>
      goal (Node.tokens value ++ newer)) :
    Fills (Node.fill node >>= next) (Node.tokens node ++ later) goal :=
  bind (LawfulNode.fills node) fun _ value _ _ new_eq => new_eq ▸ second value

/-- A node made of one filled part takes just the tokens of that part. -/
theorem bind_node_pure {make : α → β} (made : ∀ value : α, goal (Node.tokens value) (make value)) :
    Fills (Node.fill node >>= fun value => Pure.pure (make value)) (Node.tokens node) goal :=
  bind_pure (LawfulNode.fills node) fun _ value _ new_eq => new_eq ▸ made value

end Supply.Fills

instance : LawfulNode Token where
  fills _ := .mono .single fun _ _ _ ⟨new_eq, _⟩ => new_eq.symm

instance [Node α] [LawfulNode α] : LawfulNode (List α) where
  fills nodes := by
    induction nodes with
    | nil => exact .pure rfl
    | cons node later ih =>
      show Supply.Fills ((node :: later).mapM Node.fill) _ _
      rw [List.mapM_cons]
      exact .bind_node fun value => .bind_pure ih fun new values _ new_eq => by
        simpa [Node.tokens] using new_eq

/-- A part that may be absent stays absent or present. -/
theorem Supply.Fills.option [Node α] [LawfulNode α] (node : Option α) :
    Supply.Fills (Node.fill node) (Node.tokens node) fun new value =>
      Node.tokens value = new ∧ value.isNone = node.isNone := by
  match node with
  | none => exact .pure ⟨rfl, rfl⟩
  | some node => exact .map (LawfulNode.fills node) fun _ _ _ new_eq => ⟨new_eq, rfl⟩

instance [Node α] [LawfulNode α] : LawfulNode (Option α) where
  fills node := .mono (.option node) fun _ _ _ filled => filled.1

/-- A token that may be absent keeps its word. -/
theorem Supply.Fills.token? (token : Option Token) :
    Supply.Fills (Node.fill token) (Node.tokens token) fun new value =>
      Node.tokens value = new ∧ value.map Token.word = token.map Token.word := by
  match token with
  | none => exact .pure ⟨rfl, rfl⟩
  | some token => exact .map .single fun _ _ _ ⟨new_eq, same⟩ => ⟨new_eq.symm, congrArg some same⟩

namespace Supply.Fills

variable {β : Type} {tokens later : List Token} {goal : List Token → β → Prop}

/-- A run of tokens is filled with as many. -/
theorem run : Fills (Node.fill tokens) tokens fun new values => values = new := by
  have fills := LawfulNode.fills tokens
  simpa [Node.tokens] using fills

/-- A run of places for single tokens is filled first. -/
theorem bind_tokens {next : List Token → Supply β}
    (second : ∀ values, (next values).Fills later fun newer => goal (values ++ newer)) :
    Fills (Node.fill tokens >>= next) (tokens ++ later) goal :=
  bind run fun _ values _ _ new_eq => new_eq ▸ second values

theorem bind_tokens_pure {make : List Token → β} (made : ∀ values, goal values (make values)) :
    Fills (Node.fill tokens >>= fun values => Pure.pure (make values)) tokens goal :=
  bind_pure run fun _ values _ new_eq => new_eq ▸ made values

theorem bind_token_pure {token : Token} {make : Token → β}
    (made : ∀ value, value.word = token.word → goal [value] (make value)) :
    Fills (Node.fill token >>= fun value => Pure.pure (make value)) [token] goal :=
  bind_pure single fun _ value _ ⟨new_eq, same⟩ => new_eq ▸ made value same

end Supply.Fills

instance : LawfulNode Attribute where
  fills _ := .bind_token fun _ _ => .bind_token fun _ _ => .bind_tokens_pure fun _ => rfl

instance : LawfulNode Modifier where
  fills _ := .bind_token fun _ _ => .bind_tokens_pure fun _ => rfl

instance : LawfulNode TypeAnnotation where
  fills _ := .bind_token fun _ _ => .bind_tokens_pure fun _ => rfl

instance : LawfulNode Pattern where
  fills
    | .identifier _ => .map .single fun _ _ _ ⟨new_eq, _⟩ => new_eq.symm
    | .raw _ => .map .run fun _ _ _ new_eq => new_eq

instance : LawfulNode Label where
  fills _ := .bind_token fun _ _ => .bind_token_pure fun _ _ => rfl

instance : LawfulNode ClosureSignature where
  fills _ := .bind_tokens fun _ => .bind_token_pure fun _ _ => rfl

instance : LawfulNode ParameterClause where
  fills _ := .bind_token fun _ _ => .bind_tokens fun _ => .bind_token_pure fun _ _ => rfl

instance : LawfulNode InheritedType where
  fills _ := .bind_tokens fun _ => .bind_node_pure fun _ => rfl

instance : LawfulNode InheritanceClause where
  fills _ := .bind_token fun _ _ => .bind_node_pure fun _ => rfl

instance : LawfulNode ImportDecl where
  fills _ := .cast
    (.bind_node fun _ => .bind_node fun _ => .bind_token fun _ _ => .bind_node fun _ =>
      .bind_tokens_pure fun _ => by simp [Node.tokens])
    (by simp [Node.tokens])

instance : LawfulNode RawDecl where
  fills _ := .cast
    (.bind_node fun _ => .bind_node fun _ => .bind_tokens_pure fun _ => by simp [Node.tokens])
    (by simp [Node.tokens])

instance : LawfulNode TypeHeader where
  fills _ := .cast
    (.bind_node fun _ => .bind_node fun _ => .bind_token fun _ _ => .bind_token fun _ _ =>
      .bind_tokens fun _ => .bind_node fun _ => .bind_tokens_pure fun _ => by simp [Node.tokens])
    (by simp [Node.tokens])

instance : LawfulNode FunctionHeader where
  fills _ := .cast
    (.bind_node fun _ => .bind_node fun _ => .bind_token fun _ _ => .bind_token fun _ _ =>
      .bind_tokens fun _ => .bind_node fun _ => .bind_tokens_pure fun _ => by simp [Node.tokens])
    (by simp [Node.tokens])

instance : LawfulNode InitializerHeader where
  fills _ := .cast
    (.bind_node fun _ => .bind_node fun _ => .bind_token fun _ _ => .bind_node fun _ =>
      .bind_tokens fun _ => .bind_node fun _ => .bind_tokens_pure fun _ => by simp [Node.tokens])
    (by simp [Node.tokens])

instance : LawfulNode KeywordHeader where
  fills _ := .cast
    (.bind_node fun _ => .bind_node fun _ => .bind_token_pure fun _ _ => by simp [Node.tokens])
    (by simp [Node.tokens])

/-! ### Refilling a node -/

/-- The node is refilled from an edit of its tokens. -/
theorem Supply.Fills.refill [Node α] {node : α} {post : List Token → α → Prop}
    {new : List Token} (fills : (Node.fill node).Fills (Node.tokens node) post)
    (edited : Edited (Node.tokens node) new) : post new (Node.refill node new) := by
  obtain ⟨value, taken, holds⟩ := fills new [] edited
  rw [List.append_nil] at taken
  rwa [Node.refill, taken]

end SuiteMigration
