import TreeWalk.Proofs.Source.Endings
import TreeWalk.Proofs.Source.WellFormed

/-!
Texts that can be completed. From every state that the parser comes to there are lexemes that lead
to a complete program: an operand if one is missing, then what closes the parentheses, the statement
and the blocks, one after the other. So an error is found at the first place where it is one: the
text in front of it begins a program.
-/

set_option autoImplicit false

namespace TreeWalk.Source

/-- Some lexemes lead from the state to a complete program, whatever the line is. -/
def Closable (state : State) : Prop :=
  ∀ line, ∃ lexemes : List Lexeme, (∀ l ∈ lexemes, Spells l.terminal l.text) ∧
    ∃ final p, Runs state (placed line lexemes) final ∧ final.program? = some p

theorem Closable.step {state : State} {l : Lexeme} (spells : Spells l.terminal l.text)
    (h : ∀ line, ∃ next, Move l line state next ∧ Closable next) : Closable state := by
  intro line
  obtain ⟨next, move, closable⟩ := h line
  obtain ⟨lexemes, all, final, p, runs, complete⟩ := closable (line + Text.newlines l.text)
  exact ⟨l :: lexemes, List.forall_mem_cons.2 ⟨spells, all⟩, final, p, .cons move runs, complete⟩

theorem Closable.of_mark {state : State} (m : Mark)
    (h : ∀ line, ∃ next, Move m.lexeme line state next ∧ Closable next) : Closable state :=
  .step (.mark m) h

/-- A name to put where one is missing. -/
def someName : Lexeme := ⟨.name, ['x']⟩

theorem Closable.of_name {state : State}
    (h : ∀ line, ∃ next, Move someName line state next ∧ Closable next) : Closable state :=
  .step (l := someName) (.name (by decide) nofun (by decide)) h

/-- A complete statement completes the branches and loops around it, up to a block. -/
theorem frames_complete (s : Stmt) (frames : List Frame) (done : List Stmt) :
    TakesDeclarations (Outer.complete s frames done).frames ∧
      (Outer.complete s frames done).frames.length ≤ frames.length := by
  fun_induction Outer.complete s frames done with
  | case1 => exact ⟨trivial, Nat.le_refl _⟩
  | case2 => exact ⟨trivial, Nat.le_refl _⟩
  | case3 s condition frames done ih | case4 s condition yes frames done ih
  | case5 s condition frames done ih => exact ⟨ih.1, Nat.le_succ_of_le ih.2⟩

/-- Where a declaration may stand, the blocks around it can be closed. -/
theorem closable_of_ready {state : State} {outer : Outer} (ready : Ready state outer)
    (takes : TakesDeclarations outer.frames) : Closable state := by
  obtain ⟨frames, done⟩ := outer
  -- A block that is closed may complete several frames around it: the depth falls by one or more.
  induction depth : frames.length using Nat.strong_induction_on generalizing state frames done with
  | _ n ih =>
    match frames, takes with
    | [], _ => exact fun line => ⟨[], nofun, state, _, .nil state, ready.program?⟩
    | .block inner :: frames, _ =>
      refine .of_mark .closeBrace fun line =>
        ⟨_, ready.move (.closeBrace inner frames done rfl), ?_⟩
      obtain ⟨takes, shorter⟩ := frames_complete (.block inner.reverse) frames done
      have fewer : (Outer.complete (.block inner.reverse) frames done).frames.length < n := by
        rw [← depth, List.length_cons]
        omega
      exact ih _ fewer _ _ (.afterStatement _ _) takes rfl

theorem closable_afterStatement (outer : Outer) (s : Stmt) : Closable (.afterStatement outer s) :=
  closable_of_ready (.afterStatement outer s) (frames_complete s outer.frames outer.done).1

theorem closable_added (outer : Outer) (s : Stmt) : Closable (.declaration (outer.add s)) :=
  closable_of_ready (.declaration _) (frames_complete s outer.frames outer.done).1

theorem closable_statement (outer : Outer) : Closable (.statement outer) := by
  refine .of_name fun line => ⟨_, .expression (.name _ _ _ rfl), ?_⟩
  refine .of_mark .semicolon fun line => ⟨_, .endExpression rfl rfl, ?_⟩
  exact closable_afterStatement _ _

/-- Completing what waits for an operand ends at the innermost parenthesis that is open, or there is
none. -/
theorem collapse_cases (e : Expr) (pending : List Pending) :
    ∃ whole, collapse e pending = (whole, []) ∨
      ∃ rest, collapse e pending = (whole, .group :: rest) ∧ rest.length < pending.length := by
  fun_induction collapse e pending with
  | case1 e operator pending ih | case2 e left operator pending ih | case3 e name pending ih =>
    obtain ⟨whole, closed | ⟨rest, opened, shorter⟩⟩ := ih
    · exact ⟨whole, .inl closed⟩
    · exact ⟨whole, .inr ⟨rest, opened, Nat.lt_succ_of_lt shorter⟩⟩
  | case4 e pending => exact ⟨e, .inr ⟨pending, rfl, Nat.lt_succ_self _⟩⟩
  | case5 e => exact ⟨e, .inl rfl⟩

/-- Behind an operand the parentheses can be closed, and then the statement that it is for. -/
theorem closable_afterOperand (outer : Outer) (goal : Goal) (pending : List Pending) (e : Expr) :
    Closable (.afterOperand outer goal pending e) := by
  induction depth : pending.length using Nat.strong_induction_on generalizing pending e with
  | _ n ih =>
    obtain ⟨whole, closed | ⟨rest, opened, shorter⟩⟩ := collapse_cases e pending
    · cases goal with
      | print =>
        refine .of_mark .semicolon fun line => ⟨_, .endPrint rfl closed, ?_⟩
        exact closable_afterStatement _ _
      | expression =>
        refine .of_mark .semicolon fun line => ⟨_, .endExpression rfl closed, ?_⟩
        exact closable_afterStatement _ _
      | initial name =>
        refine .of_mark .semicolon fun line => ⟨_, .endInitial rfl closed, ?_⟩
        exact closable_added _ _
      | branch =>
        refine .of_mark .closeParen fun line => ⟨_, .closeBranch rfl closed, ?_⟩
        exact closable_statement _
      | loop =>
        refine .of_mark .closeParen fun line => ⟨_, .closeLoop rfl closed, ?_⟩
        exact closable_statement _
    · refine .of_mark .closeParen fun line => ⟨_, .closeGroup rfl opened, ?_⟩
      exact ih _ (depth ▸ shorter) rest _ rfl

theorem closable_operand (outer : Outer) (goal : Goal) (pending : List Pending) :
    Closable (.operand outer goal pending) :=
  .of_name fun _ => ⟨_, .name _ _ _ rfl, closable_afterOperand _ _ _ _⟩

/-- Every state that a lexeme leads to can be closed. -/
theorem closable_of_move {lexeme : Lexeme} {line : Nat} {state next : State}
    (move : Move lexeme line state next) : Closable next := by
  have named (outer : Outer) (name : Token) : Closable (.afterDeclaredName outer name) :=
    .of_mark .semicolon fun _ => ⟨_, .noInitial outer name rfl, closable_added _ _⟩
  induction move with
  | constant | name | closeGroup => exact closable_afterOperand _ _ _ _
  | openParen | unary | print | initial | condition | assign | operator =>
    exact closable_operand _ _ _
  | branch | loop =>
    exact .of_mark .openParen fun line => ⟨_, .condition _ _ rfl, closable_operand _ _ _⟩
  | openBrace => exact closable_of_ready (.declaration _) trivial
  | expression _ ih | statement _ ih | complete _ ih => exact ih
  | declare =>
    exact .of_name fun line => ⟨_, .declaredName _ rfl, named _ _⟩
  | closeBrace | endPrint | endExpression => exact closable_afterStatement _ _
  | otherwise | closeBranch | closeLoop => exact closable_statement _
  | declaredName => exact named _ _
  | noInitial | endInitial => exact closable_added _ _

theorem closable_of_reading {state final : State} {line : Nat} {cs : List Char}
    (reading : Reading state line cs final) (closable : Closable state) : Closable final := by
  induction reading with
  | done => exact closable
  | step _ _ move _ ih => exact ih (closable_of_move move)

/-- What is read up to some state begins a program. -/
theorem exists_program_of_reading {before : String} {mid : State}
    (reading : Reading (.declaration ⟨[], []⟩) 1 before.toList mid) :
    ∃ suffix p, parse (before ++ suffix) = .ok p := by
  have start : Closable (.declaration ⟨[], []⟩) := closable_of_ready (.declaration _) trivial
  obtain ⟨lexemes, spells, final, p, runs, complete⟩ :=
    closable_of_reading reading start (1 + Text.newlines before.toList + 1)
  have parsed := @parseFrom_of_runs mid final 1 _ _ _ _ (tokens_spaced spells _) runs complete
  obtain ⟨final', rest, complete'⟩ := reading_of_parseFrom parsed
  -- The line feed keeps what is added apart from the last lexeme and out of a comment.
  refine ⟨String.ofList ('\n' :: spaced lexemes), p, parse_eq_ok_iff.2 ⟨final', ?_, complete'⟩⟩
  rw [String.toList_append, String.toList_ofList]
  exact reading.newline rest

/-- A text that is no program is refused at a place that its error tells of. The text in front of
that place begins a program; so does the whole text if it is refused at its end. -/
theorem errors_are_found_first {source : String} {e : SyntaxError}
    (rejected : parse source = .error e) :
    ∃ before rest : String, source = before ++ rest ∧
      Refusal (.declaration ⟨[], []⟩) 1 1 source.toList rest.toList e ∧
      e.StandsAt (1 + Text.newlines before.toList) rest.toList ∧
      ∃ suffix p, parse (before ++ suffix) = .ok p := by
  obtain ⟨rest, refusal⟩ := refusal_of_parseFrom rejected
  obtain ⟨before, mid, split, reading, stands⟩ := refusal.reading
  refine ⟨String.ofList before, String.ofList rest, ?_, ?_, ?_, ?_⟩
  · rw [← String.ofList_append, ← split, String.ofList_toList]
  · rwa [String.toList_ofList]
  · rwa [String.toList_ofList, String.toList_ofList]
  · apply exists_program_of_reading
    rwa [String.toList_ofList]

/-- In an open block and an open parenthesis, behind a word that is read as `or` and a name. -/
theorem errors_are_found_first_operator :
    parse "\x7b print (\"a\"orx\n+*" = .error (.unexpectedToken "*" 2) ∧
    ∃ before rest : String, "\x7b print (\"a\"orx\n+*" = before ++ rest ∧
      Refusal (.declaration ⟨[], []⟩) 1 1 "\x7b print (\"a\"orx\n+*".toList rest.toList
        (.unexpectedToken "*" 2) ∧
      (SyntaxError.unexpectedToken "*" 2).StandsAt (1 + Text.newlines before.toList) rest.toList ∧
      ∃ suffix p, parse (before ++ suffix) = .ok p := by
  have rejected : parse "\x7b print (\"a\"orx\n+*" = .error (.unexpectedToken "*" 2) := by cbv
  exact ⟨rejected, errors_are_found_first rejected⟩

end TreeWalk.Source
