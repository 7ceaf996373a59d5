import TreeWalk.Proofs.Source.Endings
import TreeWalk.Proofs.Source.Places

/-!
Open blocks. The blocks that are open where the parser stands are as many as there were opening
braces less closing ones. Where no string goes over the end of a line, the lines up to there are
read by themselves, and their lexemes are those of the whole text that stand on them.
-/

set_option autoImplicit false

namespace TreeWalk.Source

/-- What a lexeme adds to the number of open blocks. -/
def Terminal.brace : Terminal → Int
  | .mark .openBrace => 1
  | .mark .closeBrace => -1
  | _ => 0

def braces (lexemes : List Located) : Int :=
  lexemes.countP (·.lexeme.terminal = .mark .openBrace) -
    lexemes.countP (·.lexeme.terminal = .mark .closeBrace)

theorem braces_cons (l : Located) (lexemes : List Located) :
    braces (l :: lexemes) = l.lexeme.terminal.brace + braces lexemes := by
  obtain ⟨⟨t, text⟩, place⟩ := l
  cases t with
  | mark m => cases m <;> simp [braces, Terminal.brace] <;> omega
  | _ => simp [braces, Terminal.brace]

def Frame.isBlock : Frame → Bool
  | .block _ => true
  | _ => false

def Outer.openBlocks (o : Outer) : Nat := o.frames.countP Frame.isBlock

def State.openBlocks : State → Nat
  | .declaration outer | .afterStatement outer _ | .statement outer | .declaredName outer
    | .afterDeclaredName outer _ | .condition outer _ | .operand outer _ _
    | .afterOperand outer _ _ _ => outer.openBlocks

theorem openBlocks_block (inner : List Stmt) (frames : List Frame) (done : List Stmt) :
    Outer.openBlocks ⟨.block inner :: frames, done⟩ = Outer.openBlocks ⟨frames, done⟩ + 1 :=
  List.countP_cons_of_pos rfl

theorem openBlocks_complete (s : Stmt) (frames : List Frame) (done : List Stmt) :
    (Outer.complete s frames done).openBlocks = Outer.openBlocks ⟨frames, done⟩ := by
  fun_induction Outer.complete s frames done with
  | case1 => rfl
  | case2 => rfl
  | case3 _ _ _ _ ih | case4 _ _ _ _ _ ih | case5 _ _ _ _ ih => exact ih

theorem openBlocks_attach? {s : Stmt} {frames frames' : List Frame} (done : List Stmt)
    (attached : Outer.attach? s frames = some frames') :
    Outer.openBlocks ⟨frames', done⟩ = Outer.openBlocks ⟨frames, done⟩ := by
  fun_induction Outer.attach? s frames with
  | case1 =>
    cases attached
    rfl
  | case2 _ _ _ _ ih | case3 _ _ _ ih => exact ih attached
  | case4 => cases attached

theorem brace_of_constant? {lexeme : Lexeme} {value : Literal}
    (constant : constant? lexeme = some value) : lexeme.terminal.brace = 0 := by
  unfold constant? at constant
  split at constant <;> simp_all [Terminal.brace]

theorem Move.openBlocks {lexeme : Lexeme} {line : Nat} {state next : State}
    (move : Move lexeme line state next) :
    (next.openBlocks : Int) = state.openBlocks + lexeme.terminal.brace := by
  induction move with
  | constant _ _ _ h => rw [brace_of_constant? h, Int.add_zero]; rfl
  | name _ _ _ h | openParen _ _ _ h | unary _ _ _ h | print _ h | branch _ h | loop _ h
    | declare _ h | declaredName _ h | initial _ _ h | condition _ _ h | assign h | operator h
    | closeGroup h | endPrint h | endExpression h => rw [h]; rfl
  | closeBranch h | closeLoop h =>
    rw [h]
    rfl
  | openBrace outer h =>
    rw [h]
    exact congrArg Nat.cast (openBlocks_block [] outer.frames outer.done)
  | closeBrace inner frames done h =>
    have one_less := openBlocks_block inner frames done
    simp only [h, State.openBlocks, Terminal.brace]
    omega
  | expression _ ih | statement _ ih => exact ih
  | otherwise h attached =>
    rw [h]
    exact congrArg Nat.cast (openBlocks_attach? _ attached)
  | complete _ ih =>
    rw [ih, State.openBlocks, Outer.add, openBlocks_complete]
    rfl
  | noInitial _ _ h | endInitial h =>
    rw [h, State.openBlocks, Outer.add, openBlocks_complete]
    rfl

/-- The braces are the difference between the blocks open at the end and at the start. -/
theorem Locating.openBlocks {state final : State} {place : Nat} {cs : List Char}
    {lexemes : List Located} (locating : Locating state place cs lexemes final) :
    (final.openBlocks : Int) = state.openBlocks + braces lexemes := by
  induction locating with
  | done => simp [braces]
  | step _ _ stepped _ ih =>
    rw [ih, (move_of_step stepped).openBlocks, braces_cons, Int.add_assoc]

theorem Ready.openBlocks {state : State} {outer : Outer} (ready : Ready state outer) :
    state.openBlocks = outer.openBlocks := by
  cases ready with
  | declaration => rfl
  | afterStatement outer s => exact (openBlocks_complete s outer.frames outer.done).symm

theorem openBlocks_of_program? {state : State} {p : Program} (complete : state.program? = some p) :
    state.openBlocks = 0 :=
  (Ready.of_program? complete).openBlocks

/-- What is skipped over the end of a line is skipped in front of it and behind it. -/
theorem skip_over_newline {line there : Nat} {front more kept : List Char}
    (skipped : skip false line (front ++ '\n' :: more) = (there, kept))
    (behind : kept.length ≤ more.length) :
    skip false line front = (line + Text.newlines front, []) ∧
      skip false (line + Text.newlines front + 1) more = (there, kept) := by
  have lines := newlines_skip false line front
  rw [skip_newline] at skipped
  split at skipped
  · next here none =>
    rw [none] at lines
    have same : here = line + Text.newlines front := by simpa [Text.newlines] using lines
    rw [← same]
    exact ⟨none, skipped⟩
  · cases skipped
    simp only [List.length_append, List.length_cons] at behind
    omega

/-- What is skipped on one line is skipped on every line. -/
theorem skip_everywhere {line here : Nat} {front kept : List Char}
    (skipped : skip false line (front ++ kept) = (here, kept)) (other : Nat) :
    skip false other (front ++ kept) = (other + Text.newlines front, kept) := by
  rw [← Nat.zero_add line, skip_later] at skipped
  have rest : (skip false 0 (front ++ kept)).2 = kept := congrArg Prod.snd skipped
  have first : skip false 0 (front ++ kept) = ((skip false 0 (front ++ kept)).1, kept) :=
    Prod.ext rfl rest
  obtain ⟨front', split, every⟩ := skip_from_zero first
  cases List.append_cancel_right split
  exact every other

/-- A lexeme without a line feed stands in front of one or behind it. -/
theorem append_newline_eq {front more ahead text rest : List Char} (one_line : '\n' ∉ text)
    (whole : front ++ '\n' :: more = ahead ++ (text ++ rest)) :
    (∃ ahead', ahead = front ++ '\n' :: ahead' ∧ more = ahead' ++ (text ++ rest)) ∨
      ∃ front', front = ahead ++ (text ++ front') ∧ rest = front' ++ '\n' :: more := by
  rcases List.append_eq_append_iff.1 whole with ⟨ahead', rfl, split⟩ | ⟨front', rfl, split⟩
  · cases ahead' with
    | cons c ahead' =>
      cases split
      exact .inl ⟨ahead', rfl, rfl⟩
    | nil =>
      cases text with
      | nil => exact .inr ⟨[], by simp, split.symm⟩
      | cons c text =>
        cases split
        simp at one_line
  · rcases List.append_eq_append_iff.1 split with ⟨front'', rfl, left⟩ | ⟨text', rfl, left⟩
    · exact .inr ⟨front'', rfl, left⟩
    · cases text' with
      | nil => exact .inr ⟨[], by simp, left.symm⟩
      | cons c text' =>
        cases left
        simp at one_line

/-- A text can be cut at a line feed that is in no lexeme. -/
theorem Locating.cut_newline {state final : State} {place : Nat} {front more : List Char}
    {lexemes : List Located} (locating : Locating state place (front ++ '\n' :: more) lexemes final)
    (one_line : ∀ l ∈ lexemes, '\n' ∉ l.lexeme.text) :
    ∃ mid first second, lexemes = first ++ second ∧ Locating state place front first mid ∧
      Locating mid (place + front.length + 1) more second final := by
  generalize whole : front ++ '\n' :: more = cs at locating
  induction locating generalizing front with
  | @done state place cs skipped =>
    subst whole
    have both (line : Nat) := skip_over_newline (skipped line) (Nat.zero_le _)
    refine ⟨state, [], [], rfl, .done fun line => (both line).1, .done ?_⟩
    have later := (both 0).2
    rw [← List.append_nil more] at later
    simpa using skip_everywhere later
  | @step state next final place ahead text rest t lexemes skipped found stepped tail ih =>
    rw [List.forall_mem_cons] at one_line
    rcases append_newline_eq one_line.1 whole with ⟨ahead', rfl, rfl⟩ | ⟨front', rfl, rfl⟩
    · have places : place + (front ++ '\n' :: ahead').length =
          place + front.length + 1 + ahead'.length := by
        rw [List.length_append, List.length_cons]
        omega
      have joined (line : Nat) : skip false line (front ++ '\n' :: (ahead' ++ (text ++ rest))) =
          (line + Text.newlines (front ++ '\n' :: ahead'), text ++ rest) := by
        simpa using skipped line
      have both (line : Nat) := skip_over_newline (joined line) (by simp)
      rw [places] at stepped tail ⊢
      exact ⟨state, [], _, rfl, .done fun line => (both line).1,
        .step (skip_everywhere (both 0).2) found stepped tail⟩
    · obtain ⟨mid, first, second, rfl, before, behind⟩ := ih one_line.2 rfl
      have places : place + (ahead ++ (text ++ front')).length + 1 =
          place + ahead.length + text.length + front'.length + 1 := by
        rw [List.length_append, List.length_append]
        omega
      rw [places]
      refine ⟨mid, _ :: first, second, rfl, .step ?_ ?_ stepped before, behind⟩
      · intro line
        refine @skip_of_append _ _ _ _ _ ('\n' :: more) ?_
        simpa using skipped line
      · refine @lexeme?_of_append _ _ ('\n' :: more) _ ?_ (List.prefix_append text front')
        simpa using found

theorem Locating.place_lt {state final : State} {place : Nat} {cs : List Char}
    {lexemes : List Located} (locating : Locating state place cs lexemes final) :
    ∀ l ∈ lexemes, l.place < place + cs.length := by
  induction locating with
  | done => exact nofun
  | step _ found _ _ ih =>
    have nonempty := List.length_pos_iff.2 (lexeme?_text_ne_nil found)
    simp only [List.length_append] at nonempty ⊢
    rw [List.forall_mem_cons]
    constructor
    · dsimp only
      omega
    · intro l member
      have := ih l member
      omega

/-- The lexemes in front of a line feed are those on the lines up to there. -/
theorem Locating.filter_lines {state mid final : State} {front more : List Char}
    {first second : List Located} (before : Locating state 0 front first mid)
    (behind : Locating mid (front.length + 1) more second final) :
    (first ++ second).filter
        (fun l => lineAt (front ++ '\n' :: more) l.place ≤ Text.newlines front + 1) = first := by
  have inside : ∀ l ∈ first, lineAt (front ++ '\n' :: more) l.place ≤ Text.newlines front + 1 := by
    intro l member
    have short := before.place_lt l member
    rw [lineAt, List.take_append_of_le_length (by omega), Nat.add_comm]
    exact Nat.add_le_add_right ((List.take_sublist _ _).count_le _) 1
  have outside : ∀ l ∈ second,
      ¬ lineAt (front ++ '\n' :: more) l.place ≤ Text.newlines front + 1 := by
    intro l member
    obtain ⟨n, at_place, -⟩ := behind.lexeme_at l member
    have split : (front ++ '\n' :: more).take l.place = front ++ '\n' :: more.take n := by
      rw [at_place, Nat.add_assoc, List.take_length_add_append, Nat.add_comm 1, List.take_succ_cons]
    rw [lineAt, split, newlines_append, Text.newlines, Text.newlines, List.count_cons_self]
    omega
  rw [List.filter_append, List.filter_eq_self.2 (by simpa using inside),
    List.filter_eq_nil_iff.2 (by simpa using outside), List.append_nil]

end TreeWalk.Source
