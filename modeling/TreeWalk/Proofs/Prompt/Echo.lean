import TreeWalk.Proofs.Prompt.Batch
import TreeWalk.Proofs.Source.Places

/-!
Expressions at the prompt. An expression is read the same way whatever it is read for, so that one
which a semicolon would make a statement of is printed. The semicolon is put behind the snippet
without the blanks at its ends: if that ends in a comment the semicolon is part of it, and the
snippet is refused.
-/

set_option autoImplicit false

namespace TreeWalk

namespace Source

section

variable {accepts accepts' : Terminal → Bool} (narrower : ∀ t, accepts' t = true → accepts t = true)

include narrower

theorem wordTerminal_narrow {word : List Char}
    (accepted : accepts' (wordTerminal accepts word) = true) :
    wordTerminal accepts' word = wordTerminal accepts word := by
  unfold wordTerminal at accepted ⊢
  split
  · next entry found =>
    rw [found] at accepted
    by_cases may : accepts entry.2 = true
    · simp only [may, if_true] at accepted
      rw [if_pos may, if_pos accepted]
    · rw [if_neg may, if_neg fun still => may (narrower _ still)]
  · rfl

theorem spelled?_narrow {table : List (List Char × Terminal)} {cs : List Char} {lexeme : Lexeme}
    (found : spelled? accepts table cs = some lexeme)
    (accepted : accepts' lexeme.terminal = true) :
    spelled? accepts' table cs = some lexeme := by
  obtain ⟨entry, first, rfl⟩ := Option.map_eq_some_iff.1 found
  rw [List.find?_eq_some_iff_append] at first
  obtain ⟨holds, before, after, split, earlier⟩ := first
  have first' : table.find? (fun entry => accepts' entry.2 && entry.1.isPrefixOf cs) =
      some entry := by
    rw [List.find?_eq_some_iff_append]
    rw [Bool.and_eq_true] at holds
    refine ⟨Bool.and_eq_true_iff.2 ⟨accepted, holds.2⟩, before, after, split, ?_⟩
    intro other member
    have missed := earlier other member
    rw [Bool.not_eq_true', Bool.eq_false_iff, ne_eq, Bool.and_eq_true] at missed ⊢
    exact fun both => missed ⟨narrower _ both.1, both.2⟩
  rw [spelled?, first']
  rfl

/-- A lexeme is found also where fewer are tried, if it is one of them. -/
theorem lexeme?_narrow (named : accepts' .name = true) {cs : List Char} {lexeme : Lexeme}
    (found : lexeme? accepts cs = some lexeme) (accepted : accepts' lexeme.terminal = true) :
    lexeme? accepts' cs = some lexeme := by
  cases cs with
  | nil => cases found
  | cons c cs =>
    simp only [lexeme?] at found ⊢
    split at found
    · next digit =>
      split at found
      · cases found
        rw [if_pos digit, if_pos accepted]
      · cases found
    next digit =>
    rw [if_neg digit]
    split at found
    · next quote =>
      split at found
      · obtain ⟨text, taken, rfl⟩ := Option.map_eq_some_iff.1 found
        rw [if_pos quote, if_pos accepted, taken]
        rfl
      · cases found
    next quote =>
    rw [if_neg quote]
    split at found
    · next start =>
      rw [if_pos (narrower _ named)] at found
      cases found
      rw [if_pos start, if_pos named, wordTerminal_narrow narrower accepted]
    · next start =>
      rw [if_neg start]
      exact spelled?_narrow narrower found accepted

end

theorem complete_ne_empty (s : Stmt) (frames : List Frame) (done : List Stmt) :
    Outer.complete s frames done ≠ ⟨[], []⟩ := by
  fun_induction Outer.complete s frames done with
  | case1 | case2 => simp
  | case3 _ _ _ _ ih | case4 _ _ _ _ _ ih | case5 _ _ _ _ ih => exact ih

theorem attach?_ne_nil {s : Stmt} {frames frames' : List Frame}
    (attached : Outer.attach? s frames = some frames') : frames' ≠ [] := by
  fun_induction Outer.attach? s frames with
  | case1 =>
    cases attached
    simp
  | case2 _ _ _ _ ih | case3 _ _ _ ih => exact ih attached
  | case4 => cases attached

/-- The first statement is complete or is no expression. -/
def State.Past : State → Prop
  | .declaration outer | .statement outer => outer ≠ ⟨[], []⟩
  | .condition outer goal | .operand outer goal _ | .afterOperand outer goal _ _ =>
    outer ≠ ⟨[], []⟩ ∨ goal ≠ .expression
  | .afterStatement .. | .declaredName _ | .afterDeclaredName .. => True

theorem Move.past {lexeme : Lexeme} {line : Nat} {state next : State}
    (move : Move lexeme line state next) (past : state.Past) : next.Past := by
  induction move with
  | constant | name | openParen | unary | condition | assign | operator | closeGroup => exact past
  | print | branch | loop | initial => exact .inr (by simp)
  | openBrace | closeBranch | closeLoop => simp [State.Past, Outer.push]
  | expression _ ih => exact ih (.inl past)
  | statement _ ih => exact ih past
  | complete _ ih => exact ih (complete_ne_empty _ _ _)
  | otherwise _ attached =>
    have some_frame := attach?_ne_nil attached
    simp [State.Past, some_frame]
  | declare | closeBrace | declaredName | endPrint | endExpression => trivial
  | noInitial | endInitial => exact complete_ne_empty _ _ _

theorem Reading.past {state final : State} {line : Nat} {cs : List Char}
    (reading : Reading state line cs final) (past : state.Past) : final.Past := by
  induction reading with
  | done => exact past
  | step _ _ move _ ih => exact ih (move.past past)

/-- In a first statement that is an expression. -/
inductive InFirst : State → Prop where
  | operand (pending : List Pending) : InFirst (.operand ⟨[], []⟩ .expression pending)
  | afterOperand (pending : List Pending) (e : Expr) :
    InFirst (.afterOperand ⟨[], []⟩ .expression pending e)

theorem InFirst.not_past {state : State} (first : InFirst state) : ¬ state.Past := by
  cases first <;> simp [State.Past]

/-- The state in which the expression is read for something else. -/
def State.aim (goal : Goal) : State → State
  | .operand outer _ pending => .operand outer goal pending
  | .afterOperand outer _ pending e => .afterOperand outer goal pending e
  | state => state

theorem slot_aim (goal : Goal) (state : State) : (state.aim goal).slot = state.slot := by
  cases state <;> rfl

/-- A move inside of the expression does not depend on what that is read for. -/
theorem InFirst.move {lexeme : Lexeme} {line : Nat} {state next : State} (first : InFirst state)
    (move : Move lexeme line state next) (goal : Goal) :
    next.Past ∨ InFirst next ∧ Move lexeme line (state.aim goal) (next.aim goal) := by
  cases first with
  | operand pending =>
    right
    cases move with
    | constant _ _ _ h => exact ⟨.afterOperand _ _, .constant _ _ _ h⟩
    | name _ _ _ h => exact ⟨.afterOperand _ _, .name _ _ _ h⟩
    | openParen _ _ _ h => exact ⟨.operand _, .openParen _ _ _ h⟩
    | unary _ _ _ h sign => exact ⟨.operand _, .unary _ _ _ h sign⟩
  | afterOperand pending e =>
    cases move with
    | assign h assignable => exact .inr ⟨.operand _, .assign h assignable⟩
    | operator h binds reduced => exact .inr ⟨.operand _, .operator h binds reduced⟩
    | closeGroup h collapsed => exact .inr ⟨.afterOperand _ _, .closeGroup h collapsed⟩
    | endExpression => exact .inl trivial

theorem InFirst.reading {state final : State} {line : Nat} {cs : List Char}
    (first : InFirst state) (reading : Reading state line cs final) (last : InFirst final)
    (goal : Goal) : Reading (state.aim goal) line cs (final.aim goal) := by
  induction reading with
  | done skipped => exact .done skipped
  | step skipped found move tail ih =>
    rcases first.move move goal with past | ⟨inside, moved⟩
    · exact absurd (tail.past past) last.not_past
    · exact .step skipped (by rwa [slot_aim]) moved (ih inside last)

/-- A text that is read up to the inside of a first expression is such an expression for every
goal. -/
theorem Reading.aim {final : State} {line : Nat} {cs : List Char}
    (reading : Reading (.declaration ⟨[], []⟩) line cs final) (last : InFirst final) (goal : Goal) :
    Reading (.operand ⟨[], []⟩ goal []) line cs (final.aim goal) := by
  cases reading with
  | done => cases last
  | @step _ next _ _ here _ rest c lexeme skipped found move tail =>
    have start : next.Past ∨ Move lexeme here (.operand ⟨[], []⟩ .expression []) next := by
      cases move with
      | declare => exact .inl trivial
      | statement move =>
        cases move with
        | print | branch | loop => exact .inl (.inr (by simp))
        | openBrace => exact .inl (by simp [State.Past, Outer.push])
        | expression move => exact .inr move
    rcases start with past | move
    · exact absurd (tail.past past) last.not_past
    have narrower (t : Terminal) (accepted : Slot.operand.accepts t = true) :
        Slot.declaration.accepts t = true := by
      simp only [Slot.accepts] at accepted
      simp [Slot.accepts, followsDeclaration, startsStatement, accepted]
    have found' := lexeme?_narrow narrower rfl found move.accepted
    rcases (InFirst.operand []).move move goal with past | ⟨inside, moved⟩
    · exact absurd (tail.past past) last.not_past
    · exact .step skipped found' moved (inside.reading tail last goal)

theorem complete_eq_single {s : Stmt} {frames : List Frame} {done : List Stmt} {x : Expr}
    (single : Outer.complete s frames done = ⟨[], [.expression x]⟩) :
    frames = [] ∧ done = [] ∧ s = .expression x := by
  fun_induction Outer.complete s frames done with
  | case1 s done =>
    cases single
    exact ⟨rfl, rfl, rfl⟩
  | case2 => cases single
  | case3 _ _ _ _ ih | case4 _ _ _ _ _ ih | case5 _ _ _ _ ih => cases (ih single).2.2

theorem lexeme?_semicolon (accepts : Terminal → Bool) :
    lexeme? accepts [';'] =
      if accepts (.mark .semicolon) then some ⟨.mark .semicolon, [';']⟩ else none := by
  have digit : Text.isDigit ';' = false := by decide
  have start : isNameStart ';' = false := by decide
  cases accepted : accepts (.mark .semicolon) <;>
    simp [lexeme?, digit, start, spelled?, signs, Kind.symbol, Mark.spelling, accepted]

theorem Ready.unique {state : State} {outer outer' : Outer} (ready : Ready state outer)
    (ready' : Ready state outer') : outer = outer' := by
  cases ready <;> cases ready' <;> rfl

/-- What a semicolon makes the only statement of a program, if that is an expression. -/
theorem Move.of_semicolon {text : List Char} {line : Nat} {mid final : State} {x : Expr}
    (move : Move ⟨.mark .semicolon, text⟩ line mid final)
    (complete : final.program? = some ⟨[.expression x]⟩) :
    ∃ pending e, mid = .afterOperand ⟨[], []⟩ .expression pending e ∧
      collapse e pending = (x, []) := by
  have ready := Ready.of_program? complete
  have accepted := move.accepted
  cases move with
  | noInitial =>
    have added := complete_eq_single ((Ready.declaration _).unique ready)
    cases added.2.2
  | endInitial =>
    have added := complete_eq_single ((Ready.declaration _).unique ready)
    cases added.2.2
  | endPrint =>
    have added := complete_eq_single ((Ready.afterStatement _ _).unique ready)
    cases added.2.2
  | @endExpression outer pending e whole _ collapsed =>
    obtain ⟨noFrames, noneDone, same⟩ :=
      complete_eq_single ((Ready.afterStatement _ _).unique ready)
    cases same
    exact ⟨pending, e, by rw [← noFrames, ← noneDone], collapsed⟩
  | constant | name | openParen | unary | print | branch | loop | openBrace | expression | declare
    | closeBrace | statement | otherwise | complete | declaredName | condition => cases accepted
  | initial _ _ h | assign h | operator h | closeGroup h | closeBranch h | closeLoop h => cases h

theorem Reading.of_semicolon {mid final : State} {line : Nat} {x : Expr}
    (reading : Reading mid line [';'] final)
    (complete : final.program? = some ⟨[.expression x]⟩) :
    ∃ pending e, mid = .afterOperand ⟨[], []⟩ .expression pending e ∧
      collapse e pending = (x, []) := by
  have kept : skip false line [';'] = (line, [';']) := rfl
  cases reading with
  | done skipped => cases kept.symm.trans skipped
  | step skipped found move tail =>
    cases kept.symm.trans skipped
    rw [lexeme?_semicolon, Option.ite_none_right_eq_some] at found
    cases found.2
    cases tail with
    | step skipped => cases skipped
    | done => exact move.of_semicolon complete

/-- A text that ends inside of a statement is refused at its end. -/
theorem parseFrom_of_incomplete {state final : State} {line : Nat} {cs : List Char}
    (reading : Reading state line cs final) (incomplete : final.program? = none) (last : Nat) :
    ∃ n, parseFrom state last line cs = .error (.unexpectedEnd n) := by
  induction reading generalizing last with
  | done skipped =>
    rw [parseFrom]
    split
    · rw [incomplete]
      exact ⟨_, rfl⟩
    · next same =>
      rw [skipped] at same
      cases same
  | step skipped found move _ ih =>
    rw [parseFrom_step skipped found (step_of_move move)]
    exact ih incomplete _

theorem parse_of_incomplete {source : String} {final : State}
    (reading : Reading (.declaration ⟨[], []⟩) 1 source.toList final)
    (incomplete : final.program? = none) : ∃ n, parse source = .error (.unexpectedEnd n) :=
  parseFrom_of_incomplete reading incomplete 1

theorem Reading.print {outer : Outer} {final : State} {line : Nat} {cs : List Char}
    (reading : Reading (.operand outer .print []) line cs final) :
    Reading (.declaration outer) line ("print ".toList ++ cs) final := by
  have skipped : skip false line ("print ".toList ++ cs) = (line, "print".toList ++ ' ' :: cs) :=
    rfl
  have found : lexeme? (State.declaration outer).slot.accepts ("print".toList ++ ' ' :: cs) =
      some ⟨.keyword .print, "print".toList⟩ := rfl
  exact .take skipped found rfl (reading.of_skip rfl)

theorem Reading.endPrint {outer : Outer} {pending : List Pending} {e x : Expr}
    (collapsed : collapse e pending = (x, [])) (line : Nat) :
    Reading (.afterOperand outer .print pending e) line [';']
      (.afterStatement outer (.print x)) := by
  have accepted := accepts_afterOperand outer .print pending e
    (show followsOperand (.mark .semicolon) = true from rfl)
  have found : lexeme? (State.afterOperand outer .print pending e).slot.accepts ([';'] ++ []) =
      some ⟨.mark .semicolon, [';']⟩ := by
    rw [List.append_nil, lexeme?_semicolon, if_pos accepted]
  exact .take rfl found (step_of_move (.endPrint rfl collapsed)) (.done rfl)

theorem exists_print_of_behind {state : State} {lines : Nat} {x : Expr}
    (same : state.behind [] lines = .afterStatement ⟨[], []⟩ (.print x)) :
    ∃ x' : Expr, state = .afterStatement ⟨[], []⟩ (.print x') ∧ x = x'.later lines := by
  cases state with
  | afterStatement outer s =>
    obtain ⟨around, printed⟩ := State.afterStatement.inj same
    obtain ⟨noFrames, noneDone⟩ := Outer.mk.inj around
    rw [List.map_eq_nil_iff] at noFrames
    rw [List.append_nil, List.map_eq_nil_iff] at noneDone
    obtain ⟨frames, done⟩ := outer
    cases noFrames
    cases noneDone
    cases s with
    | print x' =>
      cases printed
      exact ⟨x', rfl, rfl⟩
    | _ => cases printed
  | _ => cases same

end Source

namespace Prompt

open Source

section

variable {source : String} {x : Expr}

theorem reading_of_expression (expression : parse (source ++ "\n;") = .ok ⟨[.expression x]⟩) :
    ∃ pending e, collapse e pending = (x, []) ∧
      Reading (.declaration ⟨[], []⟩) 1 source.toList
        (.afterOperand ⟨[], []⟩ .expression pending e) ∧
      Reading (.operand ⟨[], []⟩ .print [])
        (1 + Text.newlines (source.toList.takeWhile Text.isBlank)) (Text.strip source).toList
        (.afterOperand ⟨[], []⟩ .print pending e) := by
  obtain ⟨final, reading, complete⟩ := parse_eq_ok_iff.1 expression
  rw [String.toList_append] at reading
  obtain ⟨mid, here, front, back⟩ := @Reading.split_newline _ _ _ _ [';'] (by decide) reading
  obtain ⟨pending, e, rfl, collapsed⟩ := back.of_semicolon complete
  refine ⟨pending, e, collapsed, front, ?_⟩
  obtain ⟨blanks, split, after⟩ := strip_back source
  have leading : ∀ c ∈ source.toList.takeWhile Text.isBlank, Text.isBlank c = true :=
    fun c member => List.mem_takeWhile_imp member
  rw [split] at front
  have stripped := (front.behind_blanks leading).cut_blanks after
  exact stripped.aim (.afterOperand _ _) .print

/-- The snippet that is printed, with the word in front of it and the semicolon behind it. -/
theorem reading_of_print {final : State} {lines : Nat}
    (reading : Reading (.operand ⟨[], []⟩ .print []) (1 + lines)
      ((Text.strip source).toList ++ [';']) final) :
    ∃ final' : State, Reading (.declaration ⟨[], []⟩) 1
      ("print " ++ Text.strip source ++ ";").toList final' ∧ final = final'.behind [] lines := by
  obtain ⟨final', further, same⟩ :=
    @Reading.of_behind [] lines (.operand ⟨[], []⟩ .print []) _ _ _ reading
  refine ⟨final', ?_, same⟩
  rw [String.toList_append, String.toList_append, List.append_assoc]
  exact further.print

end

/-- A snippet that is no program, but an expression that a semicolon on the next line makes a
statement of, is printed. It is read without the blanks at its ends, so its tokens are further up by
the lines in front of it. This is so unless it ends, without these blanks, in a comment: then it is
refused as one that ends too early. -/
theorem expressions_are_echoed {source : String} {x : Expr}
    (expression : parse (source ++ "\n;") = .ok ⟨[.expression x]⟩) :
    ∃ line, parse source = .error (.unexpectedEnd line) ∧
      (endsInComment false false (Text.strip source).toList = false → ∃ x' : Expr,
        parseSnippet source = .ok ⟨[.print x']⟩ ∧
          x = x'.later (Text.newlines (source.toList.takeWhile Text.isBlank))) ∧
      (endsInComment false false (Text.strip source).toList = true →
        parseSnippet source = .error (.unexpectedEnd line)) := by
  obtain ⟨pending, e, collapsed, whole, printed⟩ := reading_of_expression expression
  obtain ⟨line, refused⟩ := parse_of_incomplete whole rfl
  refine ⟨line, refused, ?_, ?_⟩
  · intro outside
    have closed := printed.semicolon outside (.endPrint collapsed _)
    obtain ⟨final, reading, same⟩ := reading_of_print closed
    obtain ⟨x', rfl, later⟩ := exists_print_of_behind same.symm
    have parsed : parse ("print " ++ Text.strip source ++ ";") = .ok ⟨[.print x']⟩ :=
      parse_eq_ok_iff.2 ⟨_, reading, rfl⟩
    exact ⟨x', by simp only [parseSnippet, refused, parsed], later⟩
  · intro inside
    obtain ⟨final, reading, same⟩ := reading_of_print (printed.comment inside)
    have incomplete : final.program? = none := by
      cases final with
      | afterOperand => rfl
      | _ => cases same
    obtain ⟨n, refused'⟩ := parse_of_incomplete reading incomplete
    simp only [parseSnippet, refused, refused']

/-- Slashes in a string and a comment between the operands do not matter, one at the end does, also
with a line feed behind it. -/
theorem expressions_are_echoed_slashes :
    (∃ (line : Nat) (x' : Expr),
      parse "\n\"//\" + // c\n x\t" = .error (.unexpectedEnd line) ∧
      parseSnippet "\n\"//\" + // c\n x\t" = .ok ⟨[.print x']⟩ ∧
      .binary (.literal (.text "//")) (operatorToken .add 2) (.var (nameToken ['x'] 3)) =
        x'.later 1) ∧
    ∃ line, parseSnippet "x // c\n" = .error (.unexpectedEnd line) := by
  have parsed : parse ("\n\"//\" + // c\n x\t" ++ "\n;") = .ok ⟨[.expression (.binary
      (.literal (.text "//")) (operatorToken .add 2) (.var (nameToken ['x'] 3)))]⟩ := by cbv
  have parsed' : parse ("x // c\n" ++ "\n;") =
      .ok ⟨[.expression (.var (nameToken ['x'] 1))]⟩ := by cbv
  obtain ⟨line, refused, echoed, -⟩ := expressions_are_echoed parsed
  obtain ⟨x', printed, later⟩ := echoed (by decide)
  obtain ⟨line', -, -, refused'⟩ := expressions_are_echoed parsed'
  exact ⟨⟨line, x', refused, printed, later⟩, line', refused' (by decide)⟩

/-- A comment behind a variable hides the semicolon. -/
theorem comment_hides_semicolon :
    parse ("x // c" ++ "\n;") = .ok ⟨[.expression (.var (nameToken ['x'] 1))]⟩ ∧
      parseSnippet "x // c" = .error (.unexpectedEnd 1) :=
  ⟨by cbv, by cbv⟩

end Prompt

end TreeWalk
