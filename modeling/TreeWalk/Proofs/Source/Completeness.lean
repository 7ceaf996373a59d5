import TreeWalk.Proofs.Source.Grammar
import TreeWalk.Proofs.Source.Spaced

/-!
The parser reads what the grammar forms. A form of an expression takes the parser from an operand to
the state after one, where what is still pending amounts to the tree of the form. A form of a
statement takes it to a state that amounts to the statement being read. With the plain reading of
the text, the parser gives the tree in which every `else` belongs to the nearest branch, and that is
the only such tree.
-/

set_option autoImplicit false

namespace TreeWalk.Source

/-- An expression of the level may stand here: nothing that waits takes a part of it away. -/
def Waits (level : Nat) : List Pending → Prop
  | .operator _ operator :: _ => (level? operator.kind).getD 0 < level
  | .unary _ :: _ => 7 ≤ level
  | _ => True

/-- An operand with what is pending amounts to another, for all that may follow at the level. -/
structure Settles (level : Nat) (pending : List Pending) (e : Expr) (pending' : List Pending)
    (e' : Expr) : Prop where
  reduced : ∀ n, 1 ≤ n → n ≤ level → reduce n e pending = reduce n e' pending'
  collapsed : collapse e pending = collapse e' pending'

theorem Waits.mono {level level' : Nat} {pending : List Pending} (waits : Waits level pending)
    (le : level ≤ level') : Waits level' pending := by
  match pending, waits with
  | [], _ | .group :: _, _ | .assign _ :: _, _ => trivial
  | .operator _ _ :: _, below => exact Nat.lt_of_lt_of_le below le
  | .unary _ :: _, above => exact Nat.le_trans above le

theorem Waits.startsAssignment {pending : List Pending} (waits : Waits 0 pending) :
    startsAssignment pending = true := by
  match pending, waits with
  | [], _ | .group :: _, _ | .assign _ :: _, _ => rfl
  | .operator _ _ :: _, below => exact absurd below (Nat.not_lt_zero _)

theorem Waits.reduce_eq {level : Nat} {pending : List Pending} (waits : Waits level pending)
    (small : level < 7) (e : Expr) : reduce level e pending = (e, pending) := by
  match pending, waits with
  | [], _ | .group :: _, _ | .assign _ :: _, _ => rfl
  | .operator _ _ :: _, below =>
    rw [reduce]
    exact if_neg (Nat.not_le.2 below)
  | .unary _ :: _, above => exact absurd above (Nat.not_le.2 small)

theorem Settles.refl (level : Nat) (pending : List Pending) (e : Expr) :
    Settles level pending e pending e :=
  ⟨fun _ _ _ => rfl, rfl⟩

theorem Settles.mono {level level' : Nat} {pending pending' : List Pending} {e e' : Expr}
    (settles : Settles level pending e pending' e') (le : level' ≤ level) :
    Settles level' pending e pending' e' :=
  ⟨fun n positive within => settles.reduced n positive (Nat.le_trans within le),
    settles.collapsed⟩

/-- The parser reads the lexemes as the operand, wherever an operand of the level may stand. -/
def ReadsOperand (level : Nat) (ts : List Placed) (e : Expr) : Prop :=
  ∀ (outer : Outer) (goal : Goal) (pending : List Pending), Waits level pending →
    ∃ (pending' : List Pending) (e' : Expr),
      Runs (.operand outer goal pending) ts (.afterOperand outer goal pending' e') ∧
      Settles level pending' e' pending e

/-- The rules of the chains agree with the levels of the operators. -/
theorem chain?_level {rank operand : Rank} {kinds : List Kind}
    (rule : rank.chain? = some (kinds, operand)) :
    operand.level = rank.level + 1 ∧ 1 ≤ rank.level ∧ rank.level < 7 := by
  cases rank <;> cases rule <;> decide

theorem chain?_kind {rank operand : Rank} {kinds : List Kind} {k : Kind}
    (rule : rank.chain? = some (kinds, operand)) (member : k ∈ kinds) :
    level? k = some rank.level := by
  cases rank <;> cases rule <;> revert k <;> decide

theorem chain?_node {rank operand : Rank} {kinds : List Kind} {k : Kind}
    (rule : rank.chain? = some (kinds, operand)) (member : k ∈ kinds) (left right : Expr)
    (line : Nat) :
    combine left (operatorToken k line) right = rank.node left (operatorToken k line) right := by
  have logical : ((operatorToken k line).kind = .or ∨ (operatorToken k line).kind = .and) ↔
      (rank = .or ∨ rank = .and) := by
    show (k = .or ∨ k = .and) ↔ (rank = .or ∨ rank = .and)
    cases rank <;> cases rule <;> revert k <;> decide
  by_cases either : rank = .or ∨ rank = .and
  · rw [combine, if_pos (logical.2 either)]
    rcases either with rfl | rfl <;> rfl
  · rw [combine, if_neg (mt logical.1 either)]
    cases rank with
    | or | and => simp at either
    | _ => rfl

theorem Settles.operator {level : Nat} {k : Kind} {line : Nat} {pending pending' : List Pending}
    {left right e' : Expr} (binds : level? k = some level)
    (settles : Settles (level + 1) pending' e' (.operator left (operatorToken k line) :: pending)
      right) :
    Settles level pending' e' pending (combine left (operatorToken k line) right) := by
  constructor
  · intro n positive within
    have tight : n ≤ (level? (operatorToken k line).kind).getD 0 := by
      simpa only [operatorToken, binds, Option.getD_some] using within
    rw [settles.reduced n positive (by omega), reduce, if_pos tight]
  · rw [settles.collapsed, collapse]

/-- The links of a chain are read one after the other, with the tree folded to the left. -/
theorem runs_links {rank operand : Rank} {kinds : List Kind} {links : List Link} {outer : Outer}
    {goal : Goal} {pending : List Pending} (rule : rank.chain? = some (kinds, operand))
    (waits : Waits rank.level pending)
    (signs : ∀ link ∈ links, link.kind ∈ kinds ∧ link.sign.lexeme.terminal = .operator link.kind)
    (reads : ∀ link ∈ links, ReadsOperand operand.level link.tokens link.operand)
    {now : List Pending} {e first : Expr} (settles : Settles rank.level now e pending first) :
    ∃ (pending' : List Pending) (e' : Expr),
      Runs (.afterOperand outer goal now e) (links.flatMap Link.all)
        (.afterOperand outer goal pending' e') ∧
      Settles rank.level pending' e' pending (links.foldl (fun left link =>
        rank.node left (operatorToken link.kind link.sign.line) link.operand) first) := by
  obtain ⟨tighter, positive, small⟩ := chain?_level rule
  induction links generalizing now e first with
  | nil => exact ⟨now, e, .nil _, settles⟩
  | cons link links ih =>
    rw [List.forall_mem_cons] at signs reads
    obtain ⟨⟨member, sign⟩, signs⟩ := signs
    have binds := chain?_kind rule member
    have reduced : reduce rank.level e now = (first, pending) := by
      rw [settles.reduced rank.level positive (Nat.le_refl _), waits.reduce_eq small]
    have below : Waits operand.level
        (.operator first (operatorToken link.kind link.sign.line) :: pending) := by
      show (level? link.kind).getD 0 < operand.level
      rw [binds, tighter]
      exact Nat.lt_succ_self _
    obtain ⟨now', e', runs, settles'⟩ := reads.1 outer goal _ below
    rw [tighter] at settles'
    have joined := settles'.operator binds
    rw [chain?_node rule member] at joined
    obtain ⟨pending', last, rest, settled⟩ := ih signs reads.2 joined
    exact ⟨pending', last, .cons (.operator sign binds reduced) (runs.append rest), settled⟩

/-- The parser reads every form of an expression as its tree. -/
theorem ExprForm.readsOperand {rank : Rank} {ts : List Placed} {e : Expr}
    (form : ExprForm rank ts e) : ReadsOperand rank.level ts e := by
  induction form with
  | @assign name equals ts value named sign _ ih =>
    intro outer goal pending waits
    have assignable : assignable? pending (.var (nameToken name.lexeme.text name.line)) =
        some (nameToken name.lexeme.text name.line) := by
      rw [assignable?, if_pos waits.startsAssignment]
    obtain ⟨pending', e', runs, settles⟩ := ih outer goal (.assign _ :: pending) trivial
    refine ⟨pending', e', .cons (.name _ _ _ named) (.cons (.assign sign assignable) runs), ?_⟩
    refine ⟨fun n positive none => absurd positive (Nat.not_le.2 (Nat.lt_succ_of_le none)), ?_⟩
    rw [settles.collapsed, collapse]
  | value _ ih =>
    intro outer goal pending waits
    obtain ⟨pending', e', runs, settles⟩ := ih outer goal pending (waits.mono (Nat.zero_le _))
    exact ⟨pending', e', runs, settles.mono (Nat.zero_le _)⟩
  | chain rule _ signs _ ih ihs =>
    intro outer goal pending waits
    obtain ⟨tighter, -, -⟩ := chain?_level rule
    have looser : _ ≤ _ := Nat.le.intro tighter.symm
    obtain ⟨now, e, runs, settles⟩ := ih outer goal pending (waits.mono looser)
    obtain ⟨pending', e', rest, settled⟩ := runs_links rule waits signs ihs (settles.mono looser)
    exact ⟨pending', e', runs.append rest, settled⟩
  | unary either signed _ ih =>
    intro outer goal pending waits
    obtain ⟨pending', e', runs, settles⟩ := ih outer goal (.unary _ :: pending) (Nat.le_refl 7)
    refine ⟨pending', e', .cons (.unary _ _ _ signed either) runs, ?_, ?_⟩
    · intro n positive within
      rw [settles.reduced n positive within, reduce]
    · rw [settles.collapsed, collapse]
  | plain _ ih =>
    intro outer goal pending waits
    obtain ⟨pending', e', runs, settles⟩ := ih outer goal pending (waits.mono (by decide))
    exact ⟨pending', e', runs, settles.mono (by decide)⟩
  | constant written =>
    intro outer goal pending _
    exact ⟨pending, _, .cons (.constant _ _ _ written) (.nil _), .refl _ _ _⟩
  | var named =>
    intro outer goal pending _
    exact ⟨pending, _, .cons (.name _ _ _ named) (.nil _), .refl _ _ _⟩
  | @grouping first last ts e opens _ closes ih =>
    intro outer goal pending _
    obtain ⟨pending', e', runs, settles⟩ := ih outer goal (.group :: pending) trivial
    have collapsed : collapse e' pending' = (e, .group :: pending) := settles.collapsed
    refine ⟨pending, .grouping e, ?_, .refl _ _ _⟩
    have closed := runs.append (.cons (.closeGroup closes collapsed) (.nil _))
    exact .cons (.openParen _ _ _ opens) closed

theorem ExprForm.runs {ts : List Placed} {e : Expr} (form : ExprForm .assignment ts e)
    (outer : Outer) (goal : Goal) : ∃ (pending : List Pending) (e' : Expr),
      Runs (.operand outer goal []) ts (.afterOperand outer goal pending e') ∧
      collapse e' pending = (e, []) := by
  obtain ⟨pending, e', runs, settles⟩ := form.readsOperand outer goal [] trivial
  exact ⟨pending, e', runs, settles.collapsed⟩

/-- The state amounts to a place where a declaration may start. -/
inductive Ready : State → Outer → Prop where
  | declaration (outer : Outer) : Ready (.declaration outer) outer
  | afterStatement (outer : Outer) (s : Stmt) : Ready (.afterStatement outer s) (outer.add s)

theorem Ready.move {state next : State} {outer : Outer} {lexeme : Lexeme} {line : Nat}
    (ready : Ready state outer) (move : Move lexeme line (.declaration outer) next) :
    Move lexeme line state next := by
  cases ready with
  | declaration => exact move
  | afterStatement => exact .complete move

/-- The parser is behind a statement as if it stood in `outer` alone. An `else` finds the same
branch unless the statement ends in one of its own. -/
structure Behind (outer' : Outer) (s' : Stmt) (outer : Outer) (s : Stmt) : Prop where
  added : outer'.add s' = outer.add s
  attached : opensBranch s = false → Outer.attach? s' outer'.frames =
    Outer.attach? s outer.frames ∧ outer'.done = outer.done

theorem Behind.refl (outer : Outer) (s : Stmt) : Behind outer s outer s :=
  ⟨rfl, fun _ => ⟨rfl, rfl⟩⟩

def ReadsStmt : Category → List Placed → Stmt → Prop
  | .statement, ts, s => ∀ outer : Outer, ∃ (outer' : Outer) (s' : Stmt),
      Runs (.statement outer) ts (.afterStatement outer' s') ∧ Behind outer' s' outer s
  | .declaration, ts, s => ∀ (state : State) (outer : Outer), Ready state outer →
      ∃ next : State, Runs state ts next ∧ Ready next (outer.add s)

theorem runs_condition {first last : Placed} {ts body : List Placed} {condition : Expr}
    {outer : Outer} {goal : Goal} {next final : State}
    (left : first.lexeme.terminal = .mark .openParen) (form : ExprForm .assignment ts condition)
    (close : ∀ pending e, collapse e pending = (condition, []) →
      Move last.lexeme last.line (.afterOperand outer goal pending e) next)
    (rest : Runs next body final) :
    Runs (.condition outer goal) (first :: ts ++ last :: body) final := by
  obtain ⟨pending, e, runs, collapsed⟩ := form.runs outer goal
  have closed := runs.append (.cons (close pending e collapsed) rest)
  exact .cons (.condition _ _ left) closed

theorem Runs.ofStatement {state : State} {outer outer' : Outer} {s' : Stmt} {ts : List Placed}
    (ready : Ready state outer) (runs : Runs (.statement outer) ts (.afterStatement outer' s')) :
    Runs state ts (.afterStatement outer' s') := by
  cases runs with
  | cons move tail => exact .cons (ready.move (.statement move)) tail

theorem Runs.ofOperand {outer : Outer} {pending : List Pending} {e : Expr} {ts : List Placed}
    (runs : Runs (.operand outer .expression []) ts (.afterOperand outer .expression pending e)) :
    Runs (.statement outer) ts (.afterOperand outer .expression pending e) := by
  cases runs with
  | cons move tail => exact .cons (.expression move) tail

theorem runs_parts {parts : List Part} (reads : ∀ part ∈ parts,
    ReadsStmt .declaration part.tokens part.stmt) {state : State} {outer : Outer}
    (ready : Ready state outer) : ∃ next : State, Runs state (parts.flatMap Part.tokens) next ∧
      Ready next ((parts.map Part.stmt).foldl Outer.add outer) := by
  induction parts generalizing state outer with
  | nil => exact ⟨state, .nil _, ready⟩
  | cons part parts ih =>
    rw [List.forall_mem_cons] at reads
    obtain ⟨next, runs, ready'⟩ := reads.1 state outer ready
    obtain ⟨final, rest, ready''⟩ := ih reads.2 ready'
    exact ⟨final, runs.append rest, ready''⟩

theorem foldl_add_block (body inner done : List Stmt) (frames : List Frame) :
    body.foldl Outer.add ⟨.block inner :: frames, done⟩ =
      ⟨.block (body.reverse ++ inner) :: frames, done⟩ := by
  induction body generalizing inner with
  | nil => rfl
  | cons s body ih =>
    rw [List.foldl_cons, List.reverse_cons, List.append_assoc]
    exact ih (s :: inner)

theorem foldl_add_program (body done : List Stmt) :
    body.foldl Outer.add ⟨[], done⟩ = ⟨[], body.reverse ++ done⟩ := by
  induction body generalizing done with
  | nil => rfl
  | cons s body ih =>
    rw [List.foldl_cons, List.reverse_cons, List.append_assoc]
    exact ih (s :: done)

/-- The parser reads every form of a statement as its tree, if every `else` in the tree belongs to
the nearest branch. -/
theorem StmtForm.readsStmt {category : Category} {ts : List Placed} {s : Stmt}
    (form : StmtForm category ts s) (near : NearestElse s) : ReadsStmt category ts s := by
  induction form with
  | declare opens named closes =>
    intro state outer ready
    refine ⟨_, ?_, .declaration _⟩
    exact .cons (ready.move (.declare _ opens)) (.cons (.declaredName _ named)
      (.cons (.noInitial _ _ closes) (.nil _)))
  | @initial word name equals semicolon ts e opens named sign form closes =>
    intro state outer ready
    obtain ⟨pending, e', runs, collapsed⟩ :=
      form.runs outer (.initial (nameToken name.lexeme.text name.line))
    refine ⟨_, ?_, .declaration _⟩
    have rest := runs.append (.cons (.endInitial closes collapsed) (.nil _))
    exact .cons (ready.move (.declare _ opens)) (.cons (.declaredName _ named)
      (.cons (.initial _ _ sign) rest))
  | statement _ ih =>
    intro state outer ready
    obtain ⟨outer', s', runs, behind⟩ := ih near outer
    refine ⟨.afterStatement outer' s', .ofStatement ready runs, ?_⟩
    rw [← behind.added]
    exact .afterStatement outer' s'
  | print opens form closes =>
    intro outer
    obtain ⟨pending, e', runs, collapsed⟩ := form.runs outer .print
    refine ⟨outer, _, ?_, .refl _ _⟩
    exact .cons (.print _ opens) (runs.append (.cons (.endPrint closes collapsed) (.nil _)))
  | expression form closes =>
    intro outer
    obtain ⟨pending, e', runs, collapsed⟩ := form.runs outer .expression
    refine ⟨outer, _, ?_, .refl _ _⟩
    exact runs.ofOperand.append (.cons (.endExpression closes collapsed) (.nil _))
  | @ifThen word first last ts body condition yes opens left form right _ ih =>
    cases near with
    | ifThen _ near =>
      intro outer
      obtain ⟨outer', s', runs, behind⟩ := ih near (outer.push (.yes condition))
      have head := runs_condition left form (fun _ _ collapsed => .closeBranch right collapsed) runs
      refine ⟨outer', s', .cons (.branch _ opens) head, behind.added, ?_⟩
      intro opened
      cases opened
  | @ifThenElse word first last middle ts body other condition yes no opens left form right _
      otherwise _ ihYes ihNo =>
    cases near with
    | ifThenElse _ closed near outerNear =>
      intro outer
      obtain ⟨outer', s', runs, behind⟩ := ihYes near (outer.push (.yes condition))
      obtain ⟨outer'', s'', runs', behind'⟩ := ihNo outerNear (outer.push (.no condition yes))
      have head := runs_condition left form (fun _ _ collapsed => .closeBranch right collapsed) runs
      -- The first part ends in no open branch, so the `else` finds the branch around it.
      obtain ⟨attached, done⟩ := behind.attached closed
      have found : Move middle.lexeme middle.line (.afterStatement outer' s')
          (.statement ⟨.no condition yes :: outer.frames, outer'.done⟩) :=
        .otherwise otherwise attached
      rw [done] at found
      refine ⟨outer'', s'', ?_, behind'.added, behind'.attached⟩
      exact (Runs.cons (.branch _ opens) head).append (.cons found runs')
  | @loop word first last ts rest condition body opens left form right _ ih =>
    cases near with
    | loop _ near =>
      intro outer
      obtain ⟨outer', s', runs, behind⟩ := ih near (outer.push (.body condition))
      have head := runs_condition left form (fun _ _ collapsed => .closeLoop right collapsed) runs
      exact ⟨outer', s', .cons (.loop _ opens) head, behind.added, behind.attached⟩
  | @block first last parts opens _ closes ih =>
    cases near with
    | block near =>
      intro outer
      have reads : ∀ part ∈ parts, ReadsStmt .declaration part.tokens part.stmt :=
        fun part member => ih part member (near _ (List.mem_map_of_mem member))
      obtain ⟨next, runs, ready⟩ := runs_parts reads (.declaration (outer.push (.block [])))
      rw [Outer.push, foldl_add_block, List.append_nil] at ready
      have close : Move last.lexeme last.line next
          (.afterStatement outer (.block (parts.map Part.stmt).reverse.reverse)) :=
        ready.move (.closeBrace _ _ _ closes)
      rw [List.reverse_reverse] at close
      refine ⟨outer, _, ?_, .refl _ _⟩
      exact .cons (.openBrace _ opens) (runs.append (.cons close (.nil _)))

theorem Ready.program? {state : State} {done : List Stmt} (ready : Ready state ⟨[], done⟩) :
    state.program? = some ⟨done.reverse⟩ := by
  generalize around : (⟨[], done⟩ : Outer) = outer at ready
  cases ready with
  | declaration =>
    cases around
    rfl
  | afterStatement outer s => rw [State.program?, ← around]

/-- The parser gives the tree of a form of the text in which every `else` belongs to the nearest
branch. -/
theorem parse_of_nearest {source : String} {ts : List Placed} {p : Program}
    (tokens : Tokens 1 source.toList ts) (form : ProgramForm ts p) (near : NearestElseProgram p) :
    parse source = .ok p := by
  obtain ⟨parts, forms, rfl, rfl⟩ := form
  have reads : ∀ part ∈ parts, ReadsStmt .declaration part.tokens part.stmt :=
    fun part member => (forms part member).readsStmt (near _ (List.mem_map_of_mem member))
  obtain ⟨final, runs, ready⟩ := runs_parts reads (.declaration ⟨[], []⟩)
  rw [foldl_add_program, List.append_nil] at ready
  have complete := ready.program?
  rw [List.reverse_reverse] at complete
  exact parseFrom_of_runs tokens runs complete

/-- A text whose plain reading has a form is read. The tree that the parser gives is a tree of the
text in which every `else` belongs to the nearest branch, and it is the only one. -/
theorem parse_of_programForm {source : String} {ts : List Placed} {q : Program}
    (tokens : Tokens 1 source.toList ts) (form : ProgramForm ts q) :
    ∃ p, parse source = .ok p ∧ ProgramForm ts p ∧ NearestElseProgram p ∧
      ∀ p', ProgramForm ts p' → NearestElseProgram p' → p' = p := by
  obtain ⟨p, nearForm, near⟩ := exists_nearest_program form
  have read := parse_of_nearest tokens nearForm near
  refine ⟨p, read, nearForm, near, ?_⟩
  intro p' form' near'
  have again := parse_of_nearest tokens form' near'
  rw [read] at again
  cases again
  rfl

/-- Two branches and one `else`, with names that begin like words. -/
def nestedBranches : List Lexeme :=
  [Keyword.branch.lexeme, Mark.openParen.lexeme, ⟨.name, ['a']⟩, Mark.closeParen.lexeme,
    Keyword.branch.lexeme, Mark.openParen.lexeme, ⟨.name, ['o', 'r', 'a']⟩,
    Mark.closeParen.lexeme, ⟨.name, ['x']⟩, Mark.assign.lexeme, ⟨.name, ['y']⟩,
    Mark.assign.lexeme, ⟨.number, ['1']⟩, signLexeme .subtract, ⟨.number, ['2']⟩,
    signLexeme .subtract, ⟨.number, ['3']⟩, Mark.semicolon.lexeme, Keyword.otherwise.lexeme,
    Keyword.print.lexeme, ⟨.name, ['i', 'f', '_']⟩, Mark.semicolon.lexeme]

/-- The `else` is the outer branch's in the form given here, and the inner one's in the tree that is
read. -/
theorem parse_of_programForm_nested : ∃ ts q,
    Tokens 1 "if ( a ) if ( ora ) x = y = 1 - 2 - 3 ; else print if_ ; ".toList ts ∧
    ProgramForm ts q ∧ ¬ NearestElseProgram q ∧
    ∃ p, parse "if ( a ) if ( ora ) x = y = 1 - 2 - 3 ; else print if_ ; " = .ok p ∧
      ProgramForm ts p ∧ NearestElseProgram p ∧
      ∀ p', ProgramForm ts p' → NearestElseProgram p' → p' = p := by
  have named {c : Char} {cs : List Char} (start : isNameStart c = true)
      (all : cs.all isNameChar = true) (free : String.ofList (c :: cs) ∉ reserved) :
      Spells .name (c :: cs) := .name start (List.all_eq_true.1 all) free
  have counted {c : Char} (digit : Text.isDigit c = true) : Spells .number [c] :=
    .whole (List.cons_ne_nil c []) (List.forall_mem_singleton.2 digit)
  have spells : ∀ l ∈ nestedBranches, Spells l.terminal l.text := by
    simp only [nestedBranches, List.forall_mem_cons, List.not_mem_nil, false_imp_iff,
      implies_true, and_true]
    exact ⟨.keyword _, .mark _, named (by decide) (by decide) (by decide), .mark _,
      .keyword _, .mark _, named (by decide) (by decide) (by decide), .mark _,
      named (by decide) (by decide) (by decide), .mark _,
      named (by decide) (by decide) (by decide), .mark _, counted (by decide),
      .operator _ (by decide), counted (by decide), .operator _ (by decide), counted (by decide),
      .mark _, .keyword _, .keyword _, named (by decide) (by decide) (by decide), .mark _⟩
  have tokens := tokens_spaced spells 1
  have text : spaced nestedBranches =
      "if ( a ) if ( ora ) x = y = 1 - 2 - 3 ; else print if_ ; ".toList := by decide
  rw [text] at tokens
  have var (cs : List Char) :
      ExprForm .assignment [⟨⟨.name, cs⟩, 1⟩] (.var (nameToken cs 1)) :=
    (ExprForm.var rfl).loosen (by decide)
  have digit (c : Char) : ExprForm .factor [⟨⟨.number, [c]⟩, 1⟩]
      (.literal (.number (numberValue [c]))) :=
    (ExprForm.constant rfl).loosen (by decide)
  have difference := @ExprForm.chain .term .factor _ _ _
    [⟨.subtract, ⟨signLexeme .subtract, 1⟩, _, _⟩, ⟨.subtract, ⟨signLexeme .subtract, 1⟩, _, _⟩]
    rfl (digit '1') (by simp [signLexeme])
    (List.forall_mem_cons.2 ⟨digit '2', List.forall_mem_singleton.2 (digit '3')⟩)
  have assigned : ExprForm .assignment _ _ :=
    @ExprForm.assign ⟨⟨.name, ['x']⟩, 1⟩ ⟨Mark.assign.lexeme, 1⟩ _ _ rfl rfl
      (@ExprForm.assign ⟨⟨.name, ['y']⟩, 1⟩ ⟨Mark.assign.lexeme, 1⟩ _ _ rfl rfl
        (difference.loosen (by decide)))
  have inner := @StmtForm.ifThen ⟨Keyword.branch.lexeme, 1⟩ ⟨Mark.openParen.lexeme, 1⟩
    ⟨Mark.closeParen.lexeme, 1⟩ _ _ _ _ rfl rfl (var ['o', 'r', 'a']) rfl
    (@StmtForm.expression ⟨Mark.semicolon.lexeme, 1⟩ _ _ assigned rfl)
  have last := @StmtForm.print ⟨Keyword.print.lexeme, 1⟩ ⟨Mark.semicolon.lexeme, 1⟩ _ _ rfl
    (var ['i', 'f', '_']) rfl
  have outer := @StmtForm.ifThenElse ⟨Keyword.branch.lexeme, 1⟩ ⟨Mark.openParen.lexeme, 1⟩
    ⟨Mark.closeParen.lexeme, 1⟩ ⟨Keyword.otherwise.lexeme, 1⟩ _ _ _ _ _ _ rfl rfl (var ['a']) rfl
    inner rfl last
  have form : ProgramForm (placed 1 nestedBranches) _ :=
    ⟨[⟨placed 1 nestedBranches, _⟩], List.forall_mem_singleton.2 (.statement outer),
      (List.append_nil _).symm, rfl⟩
  refine ⟨placed 1 nestedBranches, _, tokens, form, ?_, parse_of_programForm tokens form⟩
  intro near
  cases near _ List.mem_cons_self with
  | ifThenElse _ closed => cases closed

end TreeWalk.Source
