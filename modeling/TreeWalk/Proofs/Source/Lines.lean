import TreeWalk.Proofs.Source.Order

/-!
Lines of tokens. The tokens of a program are made from the lexemes of its text, so their texts are
texts and their lines are lines of the text.
-/

set_option autoImplicit false

namespace TreeWalk.Source

/-- What holds of the tokens that a state keeps and of that of a lexeme holds after the move. -/
theorem Move.forall_tokens {P : Token → Prop} {lexeme : Lexeme} {line : Nat} {state next : State}
    (move : Move lexeme line state next) (name : P (nameToken lexeme.text line))
    (operator : ∀ k, P (operatorToken k line)) (before : ∀ t ∈ state.tokens, P t) :
    ∀ t ∈ next.tokens, P t := by
  have made : ∀ t ∈ (lexeme.token? line).toList, P t := by
    unfold Lexeme.token?
    split
    · exact List.forall_mem_singleton.2 name
    · exact List.forall_mem_singleton.2 (operator _)
    · exact nofun
  rw [move.tokens, List.forall_mem_append]
  exact ⟨before, made⟩

/-- A token as the parser makes it from a text of so many lines. -/
structure OfText (bound : Nat) (t : Token) : Prop where
  text : ∃ s : String, t.text = .text s
  first : 1 ≤ t.line
  last : t.line ≤ bound

/-- The tokens of a program stand on lines of its text. -/
theorem tokens_of_parse {source : String} {p : Program} (h : parse source = .ok p) :
    ∀ t ∈ p.tokens, OfText (Text.newlines source.toList + 1) t := by
  have kept : Kept (Text.newlines source.toList + 1)
      (fun state => ∀ t ∈ state.tokens, OfText (Text.newlines source.toList + 1) t) := by
    intro state next lexeme line cs now lexed first last move
    have lines : (1 : Int) ≤ line ∧ (line : Int) ≤ (Text.newlines source.toList + 1 : Nat) := by
      omega
    refine move.forall_tokens ⟨⟨_, rfl⟩, lines.1, lines.2⟩ ?_ now
    intro k
    exact ⟨⟨_, rfl⟩, lines.1, lines.2⟩
  have start : ∀ t ∈ (State.declaration ⟨[], []⟩).tokens,
      OfText (Text.newlines source.toList + 1) t := nofun
  obtain ⟨final, each, complete⟩ := kept.final start (Nat.le_refl 1) (by omega) h
  rw [tokens_of_program? complete]
  exact each

end TreeWalk.Source
