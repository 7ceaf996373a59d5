import TreeWalk.Proofs.Source.Completeness
import TreeWalk.Proofs.Source.Endings
import TreeWalk.Proofs.Source.Lines
import TreeWalk.Proofs.Source.StateTokens

/-!
Programs one after the other. A text is read the same way further down and behind complete
statements: the parser keeps those and adds the lines above to the lines of its tokens. So two
programs with a line feed between them are one, unless the second one starts with an `else`, which
would be a name at the start of a text and may belong to a branch behind a statement.
-/

set_option autoImplicit false

namespace TreeWalk

/-- The token so many lines further down. -/
def Token.later (lines : Nat) (t : Token) : Token := { t with line := t.line + lines }

theorem Token.text_later (lines : Nat) (t : Token) : (t.later lines).text = t.text := rfl

theorem Token.kind_later (lines : Nat) (t : Token) : (t.later lines).kind = t.kind := rfl

def Expr.later (lines : Nat) : Expr → Expr := Expr.mapTokens (.later lines) (.later lines)

def Stmt.later (lines : Nat) : Stmt → Stmt := Stmt.mapTokens (.later lines) (.later lines)

def Program.later (lines : Nat) : Program → Program :=
  Program.mapTokens (.later lines) (.later lines)

theorem Program.later_statements (lines : Nat) (p : Program) :
    (p.later lines).statements = p.statements.map (Stmt.later lines) := by
  rw [Program.later, Program.mapTokens, Stmt.mapTokensAll_eq_map]
  rfl

namespace Source

/-- The statements around a place, further down and behind complete statements of the program. -/
def Outer.behind (before : List Stmt) (lines : Nat) (o : Outer) : Outer :=
  o.mapTokens before (.later lines)

def State.behind (before : List Stmt) (lines : Nat) (state : State) : State :=
  state.mapTokens before (.later lines)

section

variable {before : List Stmt} {lines : Nat}

theorem later_nameToken (text : List Char) (line : Nat) :
    nameToken text (line + lines) = (nameToken text line).later lines := by
  simp [nameToken, Token.identifier, Token.later]

theorem later_operatorToken (k : Kind) (line : Nat) :
    operatorToken k (line + lines) = (operatorToken k line).later lines := by
  simp [operatorToken, Token.later]

theorem relines_later (line lines : Nat) : Relines (Token.later lines) line (line + lines) :=
  ⟨fun _ => rfl, fun text => (later_nameToken text line).symm,
    fun k => (later_operatorToken k line).symm⟩

theorem behind_add (o : Outer) (s : Stmt) :
    (o.behind before lines).add (s.later lines) = (o.add s).behind before lines :=
  mapTokens_add o s

theorem slot_behind (state : State) : (state.behind before lines).slot = state.slot :=
  slot_mapTokens before (.later lines) state

theorem Move.behind {lexeme : Lexeme} {line : Nat} {state next : State}
    (move : Move lexeme line state next) (before : List Stmt) (lines : Nat) :
    Move lexeme (line + lines) (state.behind before lines) (next.behind before lines) := by
  have stepped := @step_mapTokens before _ _ _ (relines_later line lines) state lexeme
  rw [step_of_move move] at stepped
  exact move_of_step stepped

theorem skip_later (comment : Bool) (line : Nat) (cs : List Char) :
    skip comment (line + lines) cs =
      ((skip comment line cs).1 + lines, (skip comment line cs).2) := by
  fun_induction skip comment line cs with
  | case1 => rfl
  | case2 comment line cs ih =>
    rw [skip, if_pos rfl, Nat.add_right_comm]
    exact ih
  | case3 line c cs other ih => rw [skip, if_neg other, if_pos rfl, ih]
  | case4 comment line c cs other outside space ih =>
    rw [skip, if_neg other, if_neg outside, if_pos space, ih]
  | case5 comment line c cs other outside space slashes ih =>
    rw [skip, if_neg other, if_neg outside, if_neg space, if_pos slashes, ih]
  | case6 comment line c cs other outside space slashes =>
    rw [skip, if_neg other, if_neg outside, if_neg space, if_neg slashes]

theorem Reading.behind {state final : State} {line : Nat} {cs : List Char}
    (reading : Reading state line cs final) (before : List Stmt) (lines : Nat) :
    Reading (state.behind before lines) (line + lines) cs (final.behind before lines) := by
  induction reading with
  | done skipped => exact .done (by rw [skip_later, skipped])
  | step skipped found move _ ih =>
    refine .step (by rw [skip_later, skipped]) ?_ (move.behind before lines) ?_
    · rw [slot_behind]
      exact found
    · rw [Nat.add_right_comm]
      exact ih

theorem Reading.of_behind {state final : State} {line : Nat} {cs : List Char}
    (reading : Reading (state.behind before lines) (line + lines) cs final) :
    ∃ final' : State, Reading state line cs final' ∧ final = final'.behind before lines := by
  generalize down : state.behind before lines = state' at reading
  generalize below : line + lines = line' at reading
  induction reading generalizing state line with
  | @done _ _ here cs skipped =>
    rw [← below, skip_later] at skipped
    have empty := congrArg Prod.snd skipped
    exact ⟨state, .done (Prod.ext rfl empty), down.symm⟩
  | @step _ next final _ here cs rest c lexeme skipped found move tail ih =>
    subst down below
    rw [skip_later] at skipped
    obtain ⟨rfl, kept⟩ := Prod.ext_iff.1 skipped
    have stepped := step_of_move move
    rw [State.behind, step_mapTokens (relines_later _ lines)] at stepped
    obtain ⟨next', stepped', same⟩ := Option.map_eq_some_iff.1 stepped
    obtain ⟨final', reading, rfl⟩ := ih same (Nat.add_right_comm _ _ _)
    refine ⟨final', .step (Prod.ext rfl kept) ?_ (move_of_step stepped') reading, rfl⟩
    rwa [slot_behind] at found

theorem Ready.behind {state : State} {outer : Outer} (ready : Ready state outer)
    (before : List Stmt) (lines : Nat) :
    Ready (state.behind before lines) (outer.behind before lines) := by
  cases ready with
  | declaration => exact .declaration _
  | afterStatement outer s =>
    rw [← behind_add]
    exact .afterStatement _ _

theorem Ready.of_program? {state : State} {p : Program} (complete : state.program? = some p) :
    Ready state ⟨[], p.statements.reverse⟩ := by
  match state, complete with
  | .declaration ⟨[], done⟩, complete =>
    cases complete
    rw [List.reverse_reverse]
    exact .declaration _
  | .afterStatement outer s, complete =>
    have ready := Ready.afterStatement outer s
    rw [State.program?] at complete
    split at complete
    · next done whole =>
      cases complete
      rw [List.reverse_reverse, ← whole]
      exact ready
    · cases complete

end

/-- The first lexeme of the text is the word `else`. -/
def startsWithElse (source : String) : Bool :=
  (anyLexeme? (skip false 1 source.toList).2).any (·.terminal = .keyword .otherwise)

theorem accepts_afterStatement {t : Terminal} (other : t ≠ .keyword .otherwise) :
    Slot.afterStatement.accepts t = Slot.declaration.accepts t := by
  simp [Slot.accepts, other]

/-- Behind a statement the same lexemes are found as where a declaration starts, but for `else`. -/
theorem lexeme?_afterStatement {cs : List Char}
    (other : (anyLexeme? cs).any (·.terminal = .keyword .otherwise) = false) :
    lexeme? Slot.afterStatement.accepts cs = lexeme? Slot.declaration.accepts cs := by
  cases cs with
  | nil => rfl
  | cons c cs =>
    have word (start : isNameStart c = true) (digit : ¬ Text.isDigit c = true) (quote : c ≠ '"') :
        wordTerminal Slot.afterStatement.accepts ((c :: cs).takeWhile isNameChar) =
          wordTerminal Slot.declaration.accepts ((c :: cs).takeWhile isNameChar) := by
      rw [anyLexeme?, lexeme?, if_neg digit, if_neg quote, if_pos start, if_pos rfl] at other
      simp only [wordTerminal, if_true] at other ⊢
      split
      · next entry found =>
        rw [found] at other
        rw [accepts_afterStatement (by simpa using other)]
      · rfl
    have sign : spelled? Slot.afterStatement.accepts signs (c :: cs) =
        spelled? Slot.declaration.accepts signs (c :: cs) := rfl
    unfold lexeme?
    simp only [sign]
    split
    · rfl
    split
    · rfl
    next digit quote =>
      split
      · next start =>
        rw [word start digit quote]
        rfl
      · rfl

/-- Where a declaration may start, a text that does not start with an `else` is read as at the start
of a declaration. -/
theorem Ready.reading {state final : State} {outer : Outer} {line : Nat} {cs : List Char}
    (ready : Ready state outer) (reading : Reading (.declaration outer) line cs final)
    (other : (anyLexeme? (skip false line cs).2).any (·.terminal = .keyword .otherwise) = false) :
    ∃ final' : State, Reading state line cs final' ∧
      ∀ outer' : Outer, Ready final outer' → Ready final' outer' := by
  cases reading with
  | done skipped =>
    -- Nothing is read, so the reading ends in another state than from the start of a declaration.
    refine ⟨state, .done skipped, ?_⟩
    rintro outer' ⟨⟩
    exact ready
  | step skipped found move tail =>
    refine ⟨final, .step skipped ?_ (ready.move move) tail, fun _ same => same⟩
    cases ready with
    | declaration => exact found
    | afterStatement =>
      rw [skipped] at other
      exact (lexeme?_afterStatement other).trans found

/-- A program is read behind complete statements as one that goes on with its own. -/
theorem Ready.program {state : State} {before : List Stmt} (ready : Ready state ⟨[], before⟩)
    {source : String} {p : Program} (parsed : parse source = .ok p)
    (other : startsWithElse source = false) (lines : Nat) :
    ∃ final : State, Reading state (1 + lines) source.toList final ∧
      Ready final ⟨[], (p.later lines).statements.reverse ++ before⟩ := by
  obtain ⟨final, reading, complete⟩ := parse_eq_ok_iff.1 parsed
  have further : (skip false (1 + lines) source.toList).2 = (skip false 1 source.toList).2 := by
    rw [skip_later]
  obtain ⟨final', read, ends⟩ := ready.reading (reading.behind before lines)
    (by rw [further]; exact other)
  refine ⟨final', read, ends _ ?_⟩
  have done := (Ready.of_program? complete).behind before lines
  rw [Program.later_statements, ← List.map_reverse]
  exact done

/-- The statements of programs one below the other, each further down by the lines of the texts
before it. -/
def joined (lines : Nat) : List (String × Program) → List Stmt
  | [] => []
  | (source, p) :: parts =>
    (p.later lines).statements ++ joined (lines + (Text.newlines source.toList + 1)) parts

theorem Ready.programs {state : State} {before : List Stmt} (ready : Ready state ⟨[], before⟩)
    {parts : List (String × Program)} (parsed : ∀ part ∈ parts, parse part.1 = .ok part.2)
    (other : ∀ part ∈ parts, startsWithElse part.1 = false) (lines : Nat) :
    ∃ final : State,
      Reading state (1 + lines) (String.intercalate "\n" (parts.map Prod.fst)).toList final ∧
      Ready final ⟨[], (joined lines parts).reverse ++ before⟩ := by
  induction parts generalizing state before lines with
  | nil => exact ⟨state, .done rfl, ready⟩
  | cons part parts ih =>
    obtain ⟨source, p⟩ := part
    rw [List.forall_mem_cons] at parsed other
    obtain ⟨mid, reading, ready'⟩ := ready.program parsed.1 other.1 lines
    obtain ⟨final, rest, ready''⟩ := ih ready' parsed.2 other.2
      (lines + (Text.newlines source.toList + 1))
    rw [joined, List.reverse_append, List.append_assoc]
    cases parts with
    | nil => exact ⟨mid, reading, ready'⟩
    | cons part parts =>
      refine ⟨final, ?_, ready''⟩
      rw [List.map_cons, List.map_cons, String.intercalate_cons_cons, String.toList_append,
        String.toList_append, List.append_assoc]
      rw [← Nat.add_assoc] at rest
      exact reading.newline rest

/-- Programs with line feeds between them are one program. -/
theorem parse_joined {parts : List (String × Program)}
    (parsed : ∀ part ∈ parts, parse part.1 = .ok part.2)
    (other : ∀ part ∈ parts, startsWithElse part.1 = false) :
    parse (String.intercalate "\n" (parts.map Prod.fst)) = .ok ⟨joined 0 parts⟩ := by
  obtain ⟨final, reading, ready⟩ := (Ready.declaration ⟨[], []⟩).programs parsed other 0
  have complete := ready.program?
  rw [List.append_nil, List.reverse_reverse] at complete
  exact parse_eq_ok_iff.2 ⟨final, reading, complete⟩

/-- Two programs with a line feed between them are one: the statements of the first and then those
of the second, on lines further down by the lines of the first. The second program does not start
with an `else`. -/
theorem parse_newline {first second : String} {p q : Program} (parsed : parse first = .ok p)
    (parsed' : parse second = .ok q) (other : startsWithElse second = false) :
    parse (first ++ "\n" ++ second) =
      .ok ⟨p.statements ++ (q.later (Text.newlines first.toList + 1)).statements⟩ := by
  obtain ⟨mid, reading, complete⟩ := parse_eq_ok_iff.1 parsed
  have ready := Ready.of_program? complete
  obtain ⟨final, reading', ready'⟩ := ready.program parsed' other (Text.newlines first.toList + 1)
  have whole := reading.newline reading'
  have ends := ready'.program?
  rw [List.reverse_append, List.reverse_reverse, List.reverse_reverse] at ends
  refine parse_eq_ok_iff.2 ⟨final, ?_, ends⟩
  rw [String.toList_append, String.toList_append, List.append_assoc]
  exact whole

/-- The first text ends in a branch without an `else` and a comment with an open quote, and the
second one starts with a word that `else` begins. -/
theorem parse_newline_elsewhere : ∃ p q : Program,
    parse "\nif (a) print true; // \"" = .ok p ∧ parse "elsewhere\n= -b;" = .ok q ∧
      startsWithElse "elsewhere\n= -b;" = false ∧
      parse ("\nif (a) print true; // \"" ++ "\n" ++ "elsewhere\n= -b;") =
        .ok ⟨p.statements ++ [.expression (.assign (nameToken "elsewhere".toList 3)
          (.unary (operatorToken .subtract 4) (.var (nameToken ['b'] 4))))]⟩ := by
  have parsed : parse "elsewhere\n= -b;" = .ok ⟨[.expression (.assign
      (nameToken "elsewhere".toList 1) (.unary (operatorToken .subtract 2)
        (.var (nameToken ['b'] 2))))]⟩ := by cbv
  have other : startsWithElse "elsewhere\n= -b;" = false := by cbv
  have parsed' : parse "\nif (a) print true; // \"" = .ok ⟨[.ifThen (.var (nameToken ['a'] 2))
      (.print (.literal (.bool true)))]⟩ := by cbv
  exact ⟨_, _, parsed', parsed, other, parse_newline parsed' parsed other⟩

end Source

end TreeWalk
