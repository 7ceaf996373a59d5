import Mathlib.Data.List.TakeWhile
import TreeWalk.Source.Parser

/-!
The moves of the parser. A lexeme is taken from the head of the text; it takes the parser from one
state to the next in one of a few ways, and a property of states that each of them keeps holds
where the text ends.
-/

set_option autoImplicit false

namespace TreeWalk.Source

theorem takeNumber_head (cs : List Char) : takeNumber cs <+: cs := by
  have split := @List.takeWhile_append_dropWhile _ Text.isDigit cs
  unfold takeNumber
  simp only
  split
  · next rest point =>
    split
    · exact List.takeWhile_prefix _
    · refine ⟨rest.dropWhile Text.isDigit, ?_⟩
      rw [List.append_assoc, List.cons_append, List.takeWhile_append_dropWhile, ← point, split]
  · exact List.takeWhile_prefix _

theorem takeWhile_quote {inner : List Char} (plain : '"' ∉ inner) (rest : List Char) :
    (inner ++ '"' :: rest).takeWhile (· ≠ '"') = inner := by
  have inside : ∀ c ∈ inner, decide (c ≠ '"') = true := by
    intro c member
    rw [decide_eq_true_eq]
    rintro rfl
    exact plain member
  rw [List.takeWhile_append_of_pos inside]
  simp

theorem takeString?_eq_some_iff {cs text : List Char} :
    takeString? ('"' :: cs) = some text ↔
      ∃ inner rest, cs = inner ++ '"' :: rest ∧ '"' ∉ inner ∧ text = '"' :: inner ++ ['"'] := by
  constructor
  · intro h
    simp only [takeString?, List.drop_succ_cons, List.drop_zero] at h
    by_cases closed : '"' ∈ cs
    · obtain ⟨inner, rest, rfl, plain⟩ := List.eq_append_cons_of_mem closed
      rw [takeWhile_quote plain] at h
      rw [if_neg (by simp), Option.some.injEq] at h
      exact ⟨inner, rest, rfl, plain, h.symm⟩
    · have all : cs.takeWhile (· ≠ '"') = cs := by
        rw [List.takeWhile_eq_self_iff]
        intro c member
        rw [decide_eq_true_eq]
        rintro rfl
        exact closed member
      rw [all, if_pos rfl] at h
      cases h
  · rintro ⟨inner, rest, rfl, plain, rfl⟩
    simp only [takeString?, List.drop_succ_cons, List.drop_zero]
    rw [takeWhile_quote plain, if_neg (by simp)]

theorem spelled?_eq_some {accepts : Terminal → Bool} {table : List (List Char × Terminal)}
    {cs : List Char} {lexeme : Lexeme} (h : spelled? accepts table cs = some lexeme) :
    (lexeme.text, lexeme.terminal) ∈ table ∧ accepts lexeme.terminal = true ∧
      lexeme.text <+: cs := by
  obtain ⟨entry, found, rfl⟩ := Option.map_eq_some_iff.1 h
  have holds := List.find?_some found
  rw [Bool.and_eq_true] at holds
  exact ⟨List.mem_of_find?_eq_some found, holds.1, List.isPrefixOf_iff_prefix.1 holds.2⟩

/-- What a lexeme is made of, given the lexemes that may stand at its place. -/
inductive Lexed (accepts : Terminal → Bool) : List Char → Lexeme → Prop where
  | number {c : Char} {cs : List Char} (digit : Text.isDigit c = true)
    (accepted : accepts .number = true) : Lexed accepts (c :: cs) ⟨.number, takeNumber (c :: cs)⟩
  | string {inner : List Char} (rest : List Char) (plain : '"' ∉ inner)
    (accepted : accepts .string = true) :
    Lexed accepts ('"' :: (inner ++ '"' :: rest)) ⟨.string, '"' :: inner ++ ['"']⟩
  | word {c : Char} {cs : List Char} (start : isNameStart c = true)
    (accepted : accepts .name = true) :
    Lexed accepts (c :: cs) ⟨wordTerminal accepts ((c :: cs).takeWhile isNameChar),
      (c :: cs).takeWhile isNameChar⟩
  | keyword {cs text : List Char} {terminal : Terminal} (listed : (text, terminal) ∈ words)
    (accepted : accepts terminal = true) (head : text <+: cs) : Lexed accepts cs ⟨terminal, text⟩
  | sign {cs text : List Char} {terminal : Terminal} (listed : (text, terminal) ∈ signs)
    (accepted : accepts terminal = true) (head : text <+: cs) : Lexed accepts cs ⟨terminal, text⟩

theorem lexed_of_lexeme? {accepts : Terminal → Bool} {cs : List Char} {lexeme : Lexeme}
    (h : lexeme? accepts cs = some lexeme) : Lexed accepts cs lexeme := by
  unfold lexeme? at h
  split at h
  · cases h
  split at h
  · next digit =>
    split at h
    · next accepted =>
      cases h
      exact .number digit accepted
    · cases h
  split at h
  · next quote =>
    subst quote
    split at h
    · next accepted =>
      obtain ⟨text, taken, rfl⟩ := Option.map_eq_some_iff.1 h
      obtain ⟨inner, rest, rfl, plain, rfl⟩ := takeString?_eq_some_iff.1 taken
      exact .string rest plain accepted
    · cases h
  split at h
  · next start =>
    split at h
    · next accepted =>
      cases h
      exact .word start accepted
    · obtain ⟨listed, accepted, head⟩ := spelled?_eq_some h
      exact .keyword listed accepted head
  · obtain ⟨listed, accepted, head⟩ := spelled?_eq_some h
    exact .sign listed accepted head

theorem Lexed.head {accepts : Terminal → Bool} {cs : List Char} {lexeme : Lexeme}
    (h : Lexed accepts cs lexeme) : lexeme.text <+: cs := by
  cases h with
  | number => exact takeNumber_head _
  | @string inner rest => exact ⟨rest, by simp⟩
  | word => exact List.takeWhile_prefix _
  | keyword _ _ head => exact head
  | sign _ _ head => exact head

theorem newlines_skip (comment : Bool) (line : Nat) (cs : List Char) :
    (skip comment line cs).1 + Text.newlines (skip comment line cs).2 =
      line + Text.newlines cs := by
  fun_induction skip comment line cs with
  | case1 => rfl
  | case2 comment line cs ih =>
    rw [ih, Text.newlines, Text.newlines, List.count_cons_self]
    omega
  | case3 line c cs other ih | case4 _ line c cs other _ _ ih | case5 _ line c cs other _ _ _ ih =>
    rw [ih, Text.newlines, Text.newlines, List.count_cons_of_ne other]
  | case6 => rfl

theorem line_le_skip (comment : Bool) (line : Nat) (cs : List Char) :
    line ≤ (skip comment line cs).1 := by
  fun_induction skip comment line cs <;> omega

theorem newlines_drop {text cs : List Char} (head : text <+: cs) :
    Text.newlines text + Text.newlines (cs.drop text.length) = Text.newlines cs := by
  obtain ⟨rest, rfl⟩ := head
  rw [List.drop_left, Text.newlines, Text.newlines, Text.newlines, List.count_append]

/-- The constant that a lexeme writes. -/
def constant? (lexeme : Lexeme) : Option Literal :=
  match lexeme.terminal with
  | .number => some (.number (numberValue lexeme.text))
  | .string => some (.text (stringValue lexeme.text))
  | .keyword .yes => some (.bool true)
  | .keyword .no => some (.bool false)
  | .keyword .nothing => some .null
  | _ => none

/-- What a lexeme that starts on a line does to the state of the parser. -/
inductive Move (lexeme : Lexeme) (line : Nat) : State → State → Prop where
  | constant (outer : Outer) (goal : Goal) (pending : List Pending) {value : Literal}
    (h : constant? lexeme = some value) :
    Move lexeme line (.operand outer goal pending)
      (.afterOperand outer goal pending (.literal value))
  | name (outer : Outer) (goal : Goal) (pending : List Pending) (h : lexeme.terminal = .name) :
    Move lexeme line (.operand outer goal pending)
      (.afterOperand outer goal pending (.var (nameToken lexeme.text line)))
  | openParen (outer : Outer) (goal : Goal) (pending : List Pending)
    (h : lexeme.terminal = .mark .openParen) :
    Move lexeme line (.operand outer goal pending) (.operand outer goal (.group :: pending))
  | unary (outer : Outer) (goal : Goal) (pending : List Pending) {k : Kind}
    (h : lexeme.terminal = .operator k) (sign : k = .not ∨ k = .subtract) :
    Move lexeme line (.operand outer goal pending)
      (.operand outer goal (.unary (operatorToken k line) :: pending))
  | print (outer : Outer) (h : lexeme.terminal = .keyword .print) :
    Move lexeme line (.statement outer) (.operand outer .print [])
  | branch (outer : Outer) (h : lexeme.terminal = .keyword .branch) :
    Move lexeme line (.statement outer) (.condition outer .branch)
  | loop (outer : Outer) (h : lexeme.terminal = .keyword .loop) :
    Move lexeme line (.statement outer) (.condition outer .loop)
  | openBrace (outer : Outer) (h : lexeme.terminal = .mark .openBrace) :
    Move lexeme line (.statement outer) (.declaration (outer.push (.block [])))
  | expression {outer : Outer} {next : State}
    (move : Move lexeme line (.operand outer .expression []) next) :
    Move lexeme line (.statement outer) next
  | declare (outer : Outer) (h : lexeme.terminal = .keyword .declare) :
    Move lexeme line (.declaration outer) (.declaredName outer)
  | closeBrace (inner : List Stmt) (frames : List Frame) (done : List Stmt)
    (h : lexeme.terminal = .mark .closeBrace) :
    Move lexeme line (.declaration ⟨.block inner :: frames, done⟩)
      (.afterStatement ⟨frames, done⟩ (.block inner.reverse))
  | statement {outer : Outer} {next : State} (move : Move lexeme line (.statement outer) next) :
    Move lexeme line (.declaration outer) next
  | otherwise {outer : Outer} {s : Stmt} {frames : List Frame}
    (h : lexeme.terminal = .keyword .otherwise)
    (attached : Outer.attach? s outer.frames = some frames) :
    Move lexeme line (.afterStatement outer s) (.statement ⟨frames, outer.done⟩)
  | complete {outer : Outer} {s : Stmt} {next : State}
    (move : Move lexeme line (.declaration (outer.add s)) next) :
    Move lexeme line (.afterStatement outer s) next
  | declaredName (outer : Outer) (h : lexeme.terminal = .name) :
    Move lexeme line (.declaredName outer)
      (.afterDeclaredName outer (nameToken lexeme.text line))
  | initial (outer : Outer) (name : Token) (h : lexeme.terminal = .mark .assign) :
    Move lexeme line (.afterDeclaredName outer name) (.operand outer (.initial name) [])
  | noInitial (outer : Outer) (name : Token) (h : lexeme.terminal = .mark .semicolon) :
    Move lexeme line (.afterDeclaredName outer name)
      (.declaration (outer.add (.declare name none)))
  | condition (outer : Outer) (goal : Goal) (h : lexeme.terminal = .mark .openParen) :
    Move lexeme line (.condition outer goal) (.operand outer goal [])
  | assign {outer : Outer} {goal : Goal} {pending : List Pending} {e : Expr} {name : Token}
    (h : lexeme.terminal = .mark .assign) (assignable : assignable? pending e = some name) :
    Move lexeme line (.afterOperand outer goal pending e)
      (.operand outer goal (.assign name :: pending))
  | operator {outer : Outer} {goal : Goal} {pending rest : List Pending} {e left : Expr} {k : Kind}
    {level : Nat} (h : lexeme.terminal = .operator k) (binds : level? k = some level)
    (reduced : reduce level e pending = (left, rest)) :
    Move lexeme line (.afterOperand outer goal pending e)
      (.operand outer goal (.operator left (operatorToken k line) :: rest))
  | closeGroup {outer : Outer} {goal : Goal} {pending rest : List Pending} {e whole : Expr}
    (h : lexeme.terminal = .mark .closeParen)
    (collapsed : collapse e pending = (whole, .group :: rest)) :
    Move lexeme line (.afterOperand outer goal pending e)
      (.afterOperand outer goal rest (.grouping whole))
  | closeBranch {outer : Outer} {pending : List Pending} {e whole : Expr}
    (h : lexeme.terminal = .mark .closeParen) (collapsed : collapse e pending = (whole, [])) :
    Move lexeme line (.afterOperand outer .branch pending e)
      (.statement (outer.push (.yes whole)))
  | closeLoop {outer : Outer} {pending : List Pending} {e whole : Expr}
    (h : lexeme.terminal = .mark .closeParen) (collapsed : collapse e pending = (whole, [])) :
    Move lexeme line (.afterOperand outer .loop pending e)
      (.statement (outer.push (.body whole)))
  | endPrint {outer : Outer} {pending : List Pending} {e whole : Expr}
    (h : lexeme.terminal = .mark .semicolon) (collapsed : collapse e pending = (whole, [])) :
    Move lexeme line (.afterOperand outer .print pending e) (.afterStatement outer (.print whole))
  | endExpression {outer : Outer} {pending : List Pending} {e whole : Expr}
    (h : lexeme.terminal = .mark .semicolon) (collapsed : collapse e pending = (whole, [])) :
    Move lexeme line (.afterOperand outer .expression pending e)
      (.afterStatement outer (.expression whole))
  | endInitial {outer : Outer} {pending : List Pending} {e whole : Expr} {name : Token}
    (h : lexeme.terminal = .mark .semicolon) (collapsed : collapse e pending = (whole, [])) :
    Move lexeme line (.afterOperand outer (.initial name) pending e)
      (.declaration (outer.add (.declare name (some whole))))

theorem move_startOperand {outer : Outer} {goal : Goal} {pending : List Pending} {lexeme : Lexeme}
    {line : Nat} {next : State} (h : startOperand outer goal pending lexeme line = some next) :
    Move lexeme line (.operand outer goal pending) next := by
  unfold startOperand at h
  simp only at h
  split at h
  · next terminal =>
    cases h
    exact .constant _ _ _ (by simp only [constant?, terminal])
  · next terminal =>
    cases h
    exact .constant _ _ _ (by simp only [constant?, terminal])
  · next terminal =>
    cases h
    exact .constant _ _ _ (by simp only [constant?, terminal])
  · next terminal =>
    cases h
    exact .constant _ _ _ (by simp only [constant?, terminal])
  · next terminal =>
    cases h
    exact .constant _ _ _ (by simp only [constant?, terminal])
  · next terminal =>
    cases h
    exact .name _ _ _ terminal
  · next terminal =>
    cases h
    exact .openParen _ _ _ terminal
  · next terminal =>
    cases h
    exact .unary _ _ _ terminal (.inl rfl)
  · next terminal =>
    cases h
    exact .unary _ _ _ terminal (.inr rfl)
  · cases h

theorem move_startStatement {outer : Outer} {lexeme : Lexeme} {line : Nat} {next : State}
    (h : startStatement outer lexeme line = some next) :
    Move lexeme line (.statement outer) next := by
  unfold startStatement at h
  split at h
  · next terminal =>
    cases h
    exact .print _ terminal
  · next terminal =>
    cases h
    exact .branch _ terminal
  · next terminal =>
    cases h
    exact .loop _ terminal
  · next terminal =>
    cases h
    exact .openBrace _ terminal
  · exact .expression (move_startOperand h)

theorem move_startDeclaration {outer : Outer} {lexeme : Lexeme} {line : Nat} {next : State}
    (h : startDeclaration outer lexeme line = some next) :
    Move lexeme line (.declaration outer) next := by
  unfold startDeclaration at h
  split at h
  · next terminal =>
    cases h
    exact .declare _ terminal
  · next terminal =>
    obtain ⟨frames, done⟩ := outer
    split at h
    · next inner frames inside =>
      cases h
      cases inside
      exact .closeBrace _ _ _ terminal
    · cases h
  · exact .statement (move_startStatement h)

theorem move_continueOperand {outer : Outer} {goal : Goal} {pending : List Pending} {e : Expr}
    {lexeme : Lexeme} {line : Nat} {next : State}
    (h : continueOperand outer goal pending e lexeme line = some next) :
    Move lexeme line (.afterOperand outer goal pending e) next := by
  unfold continueOperand at h
  split at h
  · next terminal =>
    obtain ⟨name, assignable, rfl⟩ := Option.map_eq_some_iff.1 h
    exact .assign terminal assignable
  · next terminal =>
    unfold closeParen at h
    split at h
    · next collapsed =>
      cases h
      exact .closeGroup terminal collapsed
    · next collapsed =>
      cases h
      exact .closeBranch terminal collapsed
    · next collapsed =>
      cases h
      exact .closeLoop terminal collapsed
    · cases h
  · next terminal =>
    unfold closeStatement at h
    split at h
    · next collapsed =>
      cases h
      exact .endPrint terminal collapsed
    · next collapsed =>
      cases h
      exact .endExpression terminal collapsed
    · next collapsed =>
      cases h
      exact .endInitial terminal collapsed
    · cases h
  · next terminal =>
    obtain ⟨level, binds, rfl⟩ := Option.map_eq_some_iff.1 h
    exact .operator terminal binds rfl
  · cases h

theorem move_of_step {state next : State} {lexeme : Lexeme} {line : Nat}
    (h : step state lexeme line = some next) : Move lexeme line state next := by
  cases state with
  | declaration outer => exact move_startDeclaration h
  | afterStatement outer s =>
    simp only [step] at h
    split at h
    · next terminal =>
      obtain ⟨frames, attached, rfl⟩ := Option.map_eq_some_iff.1 h
      exact .otherwise terminal attached
    · exact .complete (move_startDeclaration h)
  | statement outer => exact move_startStatement h
  | declaredName outer =>
    simp only [step, Option.ite_none_right_eq_some, Option.some.injEq] at h
    obtain ⟨terminal, rfl⟩ := h
    exact .declaredName outer terminal
  | afterDeclaredName outer name =>
    simp only [step] at h
    split at h
    · next terminal =>
      cases h
      exact .initial outer name terminal
    · next terminal =>
      cases h
      exact .noInitial outer name terminal
    · cases h
  | condition outer goal =>
    simp only [step, Option.ite_none_right_eq_some, Option.some.injEq] at h
    obtain ⟨terminal, rfl⟩ := h
    exact .condition outer goal terminal
  | operand outer goal pending => exact move_startOperand h
  | afterOperand outer goal pending e => exact move_continueOperand h

theorem startsOperand_of_constant? {lexeme : Lexeme} {value : Literal}
    (h : constant? lexeme = some value) : startsOperand lexeme.terminal = true := by
  unfold constant? at h
  split at h
  all_goals first
    | next terminal => simp only [terminal, startsOperand]
    | cases h

theorem accepts_afterOperand (outer : Outer) (goal : Goal) (pending : List Pending) (e : Expr)
    {t : Terminal} (follows : followsOperand t = true) :
    (State.afterOperand outer goal pending e).slot.accepts t = true := by
  simp only [State.slot]
  split
  · simp only [Slot.accepts, follows, Bool.true_or]
  · exact follows

/-- A lexeme moves the parser only where it may stand. -/
theorem Move.accepted {lexeme : Lexeme} {line : Nat} {state next : State}
    (move : Move lexeme line state next) : state.slot.accepts lexeme.terminal = true := by
  induction move with
  | constant _ _ _ h => exact startsOperand_of_constant? h
  | name _ _ _ h | openParen _ _ _ h => simp [State.slot, Slot.accepts, startsOperand, h]
  | unary _ _ _ h sign =>
    rcases sign with rfl | rfl <;> simp [State.slot, Slot.accepts, startsOperand, h]
  | print _ h | branch _ h | loop _ h | openBrace _ h =>
    simp [State.slot, Slot.accepts, startsStatement, h]
  | expression _ ih =>
    simp only [State.slot, Slot.accepts, startsStatement] at ih ⊢
    simp [ih]
  | declare _ h | closeBrace _ _ _ h =>
    simp [State.slot, Slot.accepts, followsDeclaration, h]
  | statement _ ih =>
    simp only [State.slot, Slot.accepts, followsDeclaration] at ih ⊢
    simp [ih]
  | otherwise h => simp [State.slot, Slot.accepts, h]
  | complete _ ih =>
    simp only [State.slot, Slot.accepts] at ih ⊢
    simp [ih]
  | declaredName _ h | initial _ _ h | noInitial _ _ h | condition _ _ h =>
    simp [State.slot, Slot.accepts, h]
  | assign h assignable => simp [State.slot, Slot.accepts, assignable, h]
  | operator h binds =>
    apply accepts_afterOperand
    simp [followsOperand, h, binds]
  | closeGroup h | closeBranch h | closeLoop h | endPrint h | endExpression h | endInitial h =>
    apply accepts_afterOperand
    simp [followsOperand, h]

theorem step_of_move {lexeme : Lexeme} {line : Nat} {state next : State}
    (move : Move lexeme line state next) : step state lexeme line = some next := by
  induction move with
  | constant _ _ _ h =>
    unfold constant? at h
    split at h
    all_goals first
      | next terminal =>
        cases h
        simp only [step, startOperand, terminal]
      | cases h
  | name _ _ _ h | openParen _ _ _ h => simp [step, startOperand, h]
  | unary _ _ _ h sign => rcases sign with rfl | rfl <;> simp [step, startOperand, h]
  | print _ h | branch _ h | loop _ h | openBrace _ h => simp [step, startStatement, h]
  | expression move ih =>
    have accepted := move.accepted
    simp only [State.slot, Slot.accepts] at accepted
    simp only [step] at ih
    simp only [step, startStatement]
    split
    all_goals first
      | next terminal =>
        rw [terminal] at accepted
        cases accepted
      | exact ih
  | declare _ h | closeBrace _ _ _ h => simp [step, startDeclaration, h]
  | statement move ih =>
    have accepted := move.accepted
    simp only [State.slot, Slot.accepts] at accepted
    simp only [step] at ih
    simp only [step, startDeclaration]
    split
    all_goals first
      | next terminal =>
        rw [terminal] at accepted
        cases accepted
      | exact ih
  | otherwise h attached => simp [step, h, attached]
  | complete move ih =>
    have accepted := move.accepted
    simp only [State.slot, Slot.accepts] at accepted
    simp only [step] at ih
    simp only [step]
    split
    · next terminal =>
      rw [terminal] at accepted
      cases accepted
    · exact ih
  | declaredName _ h | initial _ _ h | noInitial _ _ h | condition _ _ h => simp [step, h]
  | assign h assignable => simp [step, continueOperand, h, assignable]
  | operator h binds reduced => simp [step, continueOperand, h, binds, reduced]
  | closeGroup h collapsed => simp [step, continueOperand, closeParen, h, collapsed]
  | closeBranch h collapsed => simp [step, continueOperand, closeParen, h, collapsed]
  | closeLoop h collapsed => simp [step, continueOperand, closeParen, h, collapsed]
  | endPrint h collapsed => simp [step, continueOperand, closeStatement, h, collapsed]
  | endExpression h collapsed => simp [step, continueOperand, closeStatement, h, collapsed]
  | endInitial h collapsed => simp [step, continueOperand, closeStatement, h, collapsed]

/-- The moves are the steps of the parser. -/
theorem step_eq_some_iff {lexeme : Lexeme} {line : Nat} {state next : State} :
    step state lexeme line = some next ↔ Move lexeme line state next :=
  ⟨move_of_step, step_of_move⟩

theorem parseFrom_step {state next : State} {last line here : Nat} {c : Char} {cs rest : List Char}
    {lexeme : Lexeme} (skipped : skip false line cs = (here, c :: rest))
    (found : lexeme? state.slot.accepts (c :: rest) = some lexeme)
    (stepped : step state lexeme here = some next) :
    parseFrom state last line cs =
      parseFrom next here (here + Text.newlines lexeme.text)
        ((c :: rest).drop lexeme.text.length) := by
  rw [parseFrom]
  split
  · next empty =>
    rw [skipped] at empty
    cases empty
  · next same =>
    rw [skipped] at same
    cases same
    split
    · next missing =>
      rw [found] at missing
      cases missing
    · next same =>
      rw [found] at same
      cases same
      rw [stepped]

theorem parseFrom_end {state : State} {last line here : Nat} {cs : List Char} {p : Program}
    (skipped : skip false line cs = (here, [])) (complete : state.program? = some p) :
    parseFrom state last line cs = .ok p := by
  rw [parseFrom]
  split
  · rw [complete]
  · next same =>
    rw [skipped] at same
    cases same

/-- A property that every lexeme of a text keeps. Its line is one of the first `bound` lines. -/
def Kept (bound : Nat) (Inv : State → Prop) : Prop :=
  ∀ (state next : State) (lexeme : Lexeme) (line : Nat) (cs : List Char), Inv state →
    Lexed state.slot.accepts cs lexeme → 1 ≤ line → line ≤ bound →
    Move lexeme line state next → Inv next

/-- What each lexeme keeps holds where the text ends. -/
theorem Kept.final {bound : Nat} {Inv : State → Prop} (kept : Kept bound Inv) {state : State}
    {last line : Nat} {cs : List Char} {p : Program} (now : Inv state) (first : 1 ≤ line)
    (within : line + Text.newlines cs ≤ bound) (h : parseFrom state last line cs = .ok p) :
    ∃ final : State, Inv final ∧ final.program? = some p := by
  fun_induction parseFrom state last line cs with
  | case1 state last line cs here empty program complete =>
    cases h
    exact ⟨state, now, complete⟩
  | case2 => cases h
  | case3 => cases h
  | case4 => cases h
  | case5 state last line cs here c rest skipped lexeme found next stepped ih =>
    have lines := newlines_skip false line cs
    have later := line_le_skip false line cs
    rw [skipped] at lines later
    have lexed := lexed_of_lexeme? found
    have split := newlines_drop lexed.head
    refine ih (kept _ _ _ here _ now lexed (by omega) ?_ (move_of_step stepped)) (by omega) ?_ h
    · omega
    · simp only at lines
      omega

end TreeWalk.Source
