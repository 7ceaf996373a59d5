import TreeWalk.Proofs.Number.Decimal
import TreeWalk.Proofs.Source.Completeness
import TreeWalk.Proofs.Source.Lines

/-!
The trees of texts. Operands bind as tightly as their places ask for, operators and names are
spelled as such, declarations stand only in programs and blocks, no `else` passes over a nearer
branch, numbers have no minus and strings no quote. Every program that the parser gives is of this
form: the operands and statements that wait in its state are, and each lexeme keeps that.
-/

set_option autoImplicit false

namespace TreeWalk.Source

def logicalRank? : Kind → Option Rank
  | .or => some .or
  | .and => some .and
  | _ => none

def binaryRank? : Kind → Option Rank
  | .equal | .notEqual => some .equality
  | .greater | .greaterEqual | .less | .lessEqual => some .comparison
  | .add | .subtract => some .term
  | .multiply | .divide => some .factor
  | .and | .or | .not | .identifier => none

/-- The tightest rule that forms an expression. -/
def rankOf : Expr → Rank
  | .assign .. => .assignment
  | .logical _ operator _ => (logicalRank? operator.kind).getD .assignment
  | .binary _ operator _ => (binaryRank? operator.kind).getD .assignment
  | .unary .. => .unary
  | .literal _ | .var _ | .grouping _ => .primary

/-- A letter or an underscore, then letters, digits and underscores. -/
def NameShape (cs : List Char) : Prop :=
  ∃ c rest, cs = c :: rest ∧ isNameStart c = true ∧ ∀ d ∈ rest, isNameChar d = true

structure IsName (t : Token) : Prop where
  kind : t.kind = .identifier
  text : ∃ cs, t.text = .text (String.ofList cs) ∧ NameShape cs

def constants : List String := ["true", "false", "null"]

/-- The name of a variable that is read or assigned to. -/
structure IsVariable (t : Token) : Prop where
  name : IsName t
  free : ∀ s ∈ constants, t.text ≠ .text s

/-- An operator has the text of its kind. -/
def IsOperator (t : Token) : Prop := t.text = .text t.kind.symbol

def WellLiteral : Literal → Prop
  | .number x => Rounding.unsigned (Number.parts x) = true
  | .text s => ∃ inner : String, s = inner ∧ '"' ∉ inner.toList
  | .null | .bool _ => True

inductive WellExpr : Expr → Prop where
  | literal {value : Literal} (plain : WellLiteral value) : WellExpr (.literal value)
  | var {name : Token} (named : IsVariable name) : WellExpr (.var name)
  | assign {name : Token} {value : Expr} (named : IsVariable name) (inner : WellExpr value) :
    WellExpr (.assign name value)
  | logical {left right : Expr} {operator : Token} {rank : Rank}
    (rule : logicalRank? operator.kind = some rank) (spelled : IsOperator operator)
    (first : WellExpr left) (loose : rank.level ≤ (rankOf left).level)
    (second : WellExpr right) (tight : rank.level < (rankOf right).level) :
    WellExpr (.logical left operator right)
  | binary {left right : Expr} {operator : Token} {rank : Rank}
    (rule : binaryRank? operator.kind = some rank) (spelled : IsOperator operator)
    (first : WellExpr left) (loose : rank.level ≤ (rankOf left).level)
    (second : WellExpr right) (tight : rank.level < (rankOf right).level) :
    WellExpr (.binary left operator right)
  | unary {operator : Token} {operand : Expr}
    (either : operator.kind = .not ∨ operator.kind = .subtract) (spelled : IsOperator operator)
    (inner : WellExpr operand) (tight : Rank.unary.level ≤ (rankOf operand).level) :
    WellExpr (.unary operator operand)
  | grouping {e : Expr} (inner : WellExpr e) : WellExpr (.grouping e)

/-- Statements, and what may stand as one directly in a program or a block. -/
inductive WellStmt : Category → Stmt → Prop where
  | declare {name : Token} (named : IsName name) : WellStmt .declaration (.declare name none)
  | initial {name : Token} {e : Expr} (named : IsName name) (value : WellExpr e) :
    WellStmt .declaration (.declare name (some e))
  | statement {s : Stmt} (plain : WellStmt .statement s) : WellStmt .declaration s
  | print {e : Expr} (value : WellExpr e) : WellStmt .statement (.print e)
  | expression {e : Expr} (value : WellExpr e) : WellStmt .statement (.expression e)
  | block {body : List Stmt} (inner : ∀ s ∈ body, WellStmt .declaration s) :
    WellStmt .statement (.block body)
  | ifThen {condition : Expr} {yes : Stmt} (value : WellExpr condition)
    (inner : WellStmt .statement yes) : WellStmt .statement (.ifThen condition yes)
  | ifThenElse {condition : Expr} {yes no : Stmt} (value : WellExpr condition)
    (inner : WellStmt .statement yes) (closed : opensBranch yes = false)
    (outer : WellStmt .statement no) : WellStmt .statement (.ifThenElse condition yes no)
  | loop {condition : Expr} {body : Stmt} (value : WellExpr condition)
    (inner : WellStmt .statement body) : WellStmt .statement (.loop condition body)

def WellFormed (p : Program) : Prop := ∀ s ∈ p.statements, WellStmt .declaration s

theorem words_not_plain : ∀ entry ∈ words, entry.2 ≠ .name ∧ entry.2 ≠ .string := by
  decide

theorem signs_not_plain : ∀ entry ∈ signs, entry.2 ≠ .name ∧ entry.2 ≠ .string := by
  decide

theorem nameShape_of_lexed {accepts : Terminal → Bool} {cs : List Char} {lexeme : Lexeme}
    (lexed : Lexed accepts cs lexeme) (named : lexeme.terminal = .name) :
    NameShape lexeme.text := by
  cases lexed with
  | number => cases named
  | string => cases named
  | @word c cs start =>
    have inWord := (nameStart_apart start).2.2.2.2
    refine ⟨c, cs.takeWhile isNameChar, List.takeWhile_cons_of_pos inWord, start, ?_⟩
    intro d member
    exact List.mem_takeWhile_imp member
  | keyword listed => exact absurd named (words_not_plain _ listed).1
  | sign listed => exact absurd named (signs_not_plain _ listed).1

theorem find?_constant : ∀ s ∈ constants, ∃ k ∈ [Keyword.yes, .no, .nothing],
    words.find? (fun entry => entry.1 = s.toList) = some (s.toList, .keyword k) := by
  decide

/-- Where constants may stand, their words are no names. -/
theorem not_constant_of_lexed {accepts : Terminal → Bool} {cs : List Char} {lexeme : Lexeme}
    (lexed : Lexed accepts cs lexeme) (named : lexeme.terminal = .name)
    (constant : ∀ k ∈ [Keyword.yes, .no, .nothing], accepts (.keyword k) = true) :
    ∀ s ∈ constants, String.ofList lexeme.text ≠ s := by
  intro s member same
  cases lexed with
  | number => cases named
  | string => cases named
  | @word c cs start =>
    obtain ⟨k, one, found⟩ := find?_constant s member
    rw [← same, String.toList_ofList] at found
    have terminal := named
    simp only [wordTerminal, found, constant k one, if_true] at terminal
    cases terminal
  | keyword listed => exact absurd named (words_not_plain _ listed).1
  | sign listed => exact absurd named (signs_not_plain _ listed).1

theorem wordTerminal_ne_string (accepts : Terminal → Bool) (word : List Char) :
    wordTerminal accepts word ≠ .string := by
  unfold wordTerminal
  split
  · next entry found =>
    split
    · exact (words_not_plain entry (List.mem_of_find?_eq_some found)).2
    · decide
  · decide

theorem wellLiteral_of_lexed {accepts : Terminal → Bool} {cs : List Char} {lexeme : Lexeme}
    {value : Literal} (lexed : Lexed accepts cs lexeme) (written : constant? lexeme = some value) :
    WellLiteral value := by
  unfold constant? at written
  split at written
  · cases written
    exact Decimal.unsigned_toFloat _
  · next terminal =>
    cases written
    cases lexed with
    | number => cases terminal
    | @string inner rest plain =>
      refine ⟨stringValue ('"' :: inner ++ ['"']), rfl, ?_⟩
      simpa [stringValue] using plain
    | word => exact absurd terminal (wordTerminal_ne_string _ _)
    | keyword listed => exact absurd terminal (words_not_plain _ listed).2
    | sign listed => exact absurd terminal (signs_not_plain _ listed).2
  · cases written
    trivial
  · cases written
    trivial
  · cases written
    trivial
  · cases written

/-- The operators that wait are in order: each binds more tightly than the one below it, up to the
nearest sign, assignment or parenthesis. -/
inductive WellStack : List Pending → Prop where
  | nil : WellStack []
  | operator {pending : List Pending} {left : Expr} {operator : Token} {level : Nat}
    (below : WellStack pending) (waits : Waits level pending)
    (binds : level? operator.kind = some level) (spelled : IsOperator operator)
    (first : WellExpr left) (loose : level ≤ (rankOf left).level) :
    WellStack (.operator left operator :: pending)
  | unary {pending : List Pending} {operator : Token} (below : WellStack pending)
    (either : operator.kind = .not ∨ operator.kind = .subtract) (spelled : IsOperator operator) :
    WellStack (.unary operator :: pending)
  | assign {pending : List Pending} {name : Token} (below : WellStack pending)
    (waits : Waits 0 pending) (named : IsVariable name) : WellStack (.assign name :: pending)
  | group {pending : List Pending} (below : WellStack pending) : WellStack (.group :: pending)

theorem waits_of_startsAssignment {pending : List Pending}
    (starts : startsAssignment pending = true) : Waits 0 pending := by
  match pending, starts with
  | [], _ | .group :: _, _ | .assign _ :: _, _ => trivial

theorem level?_bounds {k : Kind} {level : Nat} (binds : level? k = some level) :
    1 ≤ level ∧ level < 7 := by
  cases k <;> cases binds <;> decide

theorem wellExpr_combine {left right : Expr} {operator : Token} {level : Nat}
    (binds : level? operator.kind = some level) (spelled : IsOperator operator)
    (first : WellExpr left) (loose : level ≤ (rankOf left).level) (second : WellExpr right)
    (tight : level < (rankOf right).level) :
    WellExpr (combine left operator right) ∧
      (rankOf (combine left operator right)).level = level := by
  unfold combine
  split
  · next logical =>
    have rule : ∃ rank, logicalRank? operator.kind = some rank ∧ rank.level = level := by
      rcases logical with same | same <;> rw [same] at binds ⊢ <;> cases binds <;>
        exact ⟨_, rfl, rfl⟩
    obtain ⟨rank, rule, rfl⟩ := rule
    refine ⟨.logical rule spelled first loose second tight, ?_⟩
    rw [rankOf, rule]
    rfl
  · next other =>
    have rule : ∃ rank, binaryRank? operator.kind = some rank ∧ rank.level = level := by
      generalize operator.kind = k at binds other
      cases k with
      | or | and => simp at other
      | not | identifier => cases binds
      | _ =>
        cases binds
        exact ⟨_, rfl, rfl⟩
    obtain ⟨rank, rule, rfl⟩ := rule
    refine ⟨.binary rule spelled first loose second tight, ?_⟩
    rw [rankOf, rule]
    rfl

theorem WellStack.waits_unary {pending : List Pending} (stack : WellStack pending) :
    Waits Rank.unary.level pending := by
  cases stack with
  | operator _ _ binds =>
    show (level? _).getD 0 < 7
    rw [binds]
    exact (level?_bounds binds).2
  | unary => exact Nat.le_refl 7
  | nil | assign | group => trivial

/-- An operand joins the operator that waits for it. -/
theorem WellStack.combined {pending : List Pending} {left e : Expr} {operator : Token}
    (stack : WellStack (.operator left operator :: pending)) (well : WellExpr e)
    (fits : Waits (rankOf e).level (.operator left operator :: pending)) :
    WellExpr (combine left operator e) ∧
      Waits (rankOf (combine left operator e)).level pending ∧
      (rankOf (combine left operator e)).level = (level? operator.kind).getD 0 := by
  cases stack with
  | @operator _ _ _ level below waits binds spelled first loose =>
    have tight : level < (rankOf e).level := by
      have inside : (level? operator.kind).getD 0 < (rankOf e).level := fits
      rwa [binds] at inside
    obtain ⟨joined, same⟩ := wellExpr_combine binds spelled first loose well tight
    rw [same, binds]
    exact ⟨joined, waits, rfl⟩

theorem WellStack.tail {pending : List Pending} {top : Pending}
    (stack : WellStack (top :: pending)) : WellStack pending := by
  cases stack with
  | operator below | unary below | assign below | group below => exact below

/-- What completing the tighter operators leaves. -/
theorem well_reduce {level : Nat} {e : Expr} {pending : List Pending} (small : level < 7)
    (stack : WellStack pending) (well : WellExpr e) (fits : Waits (rankOf e).level pending)
    (loose : level ≤ (rankOf e).level) :
    WellExpr (reduce level e pending).1 ∧ level ≤ (rankOf (reduce level e pending).1).level ∧
      WellStack (reduce level e pending).2 ∧ Waits level (reduce level e pending).2 := by
  fun_induction reduce level e pending with
  | case1 e operator pending ih =>
    cases stack with
    | unary below either spelled =>
      exact ih below (.unary either spelled well fits) below.waits_unary (Nat.le_of_lt small)
  | case2 e left operator pending binds ih =>
    obtain ⟨joined, waits, same⟩ := stack.combined well fits
    exact ih stack.tail joined waits (same ▸ binds)
  | case3 e left operator pending binds => exact ⟨well, loose, stack, Nat.not_le.1 binds⟩
  | case4 e pending noUnary noOperator =>
    refine ⟨well, loose, stack, ?_⟩
    cases stack with
    | operator => exact absurd rfl (noOperator _ _ _)
    | unary => exact absurd rfl (noUnary _ _)
    | nil | assign | group => trivial

/-- What completing all up to a parenthesis leaves. -/
theorem well_collapse {e whole : Expr} {pending rest : List Pending} (stack : WellStack pending)
    (well : WellExpr e) (fits : Waits (rankOf e).level pending)
    (collapsed : collapse e pending = (whole, rest)) : WellExpr whole ∧ WellStack rest := by
  fun_induction collapse e pending with
  | case1 e operator pending ih =>
    cases stack with
    | unary below either spelled =>
      exact ih below (.unary either spelled well fits) below.waits_unary collapsed
  | case2 e left operator pending ih =>
    obtain ⟨joined, waits, -⟩ := stack.combined well fits
    exact ih stack.tail joined waits collapsed
  | case3 e name pending ih =>
    cases stack with
    | assign below waits named => exact ih below (.assign named well) waits collapsed
  | case4 e pending =>
    cases collapsed
    exact ⟨well, stack⟩
  | case5 e =>
    cases collapsed
    exact ⟨well, stack⟩

def WellFrame : Frame → Prop
  | .block done => ∀ s ∈ done, WellStmt .declaration s
  | .yes condition => WellExpr condition
  | .no condition yes => WellExpr condition ∧ WellStmt .statement yes ∧ opensBranch yes = false
  | .body condition => WellExpr condition

structure WellOuter (o : Outer) : Prop where
  frames : ∀ f ∈ o.frames, WellFrame f
  done : ∀ s ∈ o.done, WellStmt .declaration s

/-- A declaration may stand here: directly in the program or in a block. -/
def TakesDeclarations : List Frame → Prop
  | [] | .block _ :: _ => True
  | _ => False

theorem WellOuter.push {o : Outer} {f : Frame} (outer : WellOuter o) (frame : WellFrame f) :
    WellOuter (o.push f) :=
  ⟨List.forall_mem_cons.2 ⟨frame, outer.frames⟩, outer.done⟩

theorem WellOuter.complete {s : Stmt} {frames : List Frame} {done : List Stmt}
    (outer : WellOuter ⟨frames, done⟩) (well : WellStmt .statement s) :
    WellOuter (Outer.complete s frames done) ∧
      TakesDeclarations (Outer.complete s frames done).frames := by
  fun_induction Outer.complete s frames done with
  | case1 s done =>
    exact ⟨⟨outer.frames, List.forall_mem_cons.2 ⟨.statement well, outer.done⟩⟩, trivial⟩
  | case2 s inner frames done =>
    have split := List.forall_mem_cons.1 outer.frames
    have block : WellFrame (.block (s :: inner)) :=
      List.forall_mem_cons.2 ⟨.statement well, split.1⟩
    exact ⟨⟨List.forall_mem_cons.2 ⟨block, split.2⟩, outer.done⟩, trivial⟩
  | case3 s condition frames done ih =>
    have split := List.forall_mem_cons.1 outer.frames
    exact ih ⟨split.2, outer.done⟩ (.ifThen split.1 well)
  | case4 s condition yes frames done ih =>
    have split := List.forall_mem_cons.1 outer.frames
    obtain ⟨value, inner, closed⟩ := split.1
    exact ih ⟨split.2, outer.done⟩ (.ifThenElse value inner closed well)
  | case5 s condition frames done ih =>
    have split := List.forall_mem_cons.1 outer.frames
    exact ih ⟨split.2, outer.done⟩ (.loop split.1 well)

theorem WellOuter.declare {s : Stmt} {o : Outer} (outer : WellOuter o)
    (takes : TakesDeclarations o.frames) (well : WellStmt .declaration s) :
    WellOuter (o.add s) ∧ TakesDeclarations (o.add s).frames := by
  obtain ⟨frames, done⟩ := o
  match frames, takes, outer with
  | [], _, outer => exact ⟨⟨outer.frames, List.forall_mem_cons.2 ⟨well, outer.done⟩⟩, trivial⟩
  | .block inner :: frames, _, outer =>
    have split := List.forall_mem_cons.1 outer.frames
    have block : WellFrame (.block (s :: inner)) := List.forall_mem_cons.2 ⟨well, split.1⟩
    exact ⟨⟨List.forall_mem_cons.2 ⟨block, split.2⟩, outer.done⟩, trivial⟩

/-- The branch that an `else` finds has a first part that ends in no open branch. -/
theorem well_attach? {s : Stmt} {frames after : List Frame} (all : ∀ f ∈ frames, WellFrame f)
    (well : WellStmt .statement s) (closed : opensBranch s = false)
    (attached : Outer.attach? s frames = some after) : ∀ f ∈ after, WellFrame f := by
  fun_induction Outer.attach? s frames with
  | case1 s condition frames =>
    cases attached
    rw [List.forall_mem_cons] at all
    exact List.forall_mem_cons.2 ⟨⟨all.1, well, closed⟩, all.2⟩
  | case2 s condition yes frames ih =>
    rw [List.forall_mem_cons] at all
    obtain ⟨⟨value, inner, ended⟩, later⟩ := all
    exact ih later (.ifThenElse value inner ended well) closed attached
  | case3 s condition frames ih =>
    rw [List.forall_mem_cons] at all
    exact ih all.2 (.loop all.1 well) closed attached
  | case4 => cases attached

/-- A declaration is begun only where one may stand. -/
def WellGoal (frames : List Frame) : Goal → Prop
  | .initial name => IsName name ∧ TakesDeclarations frames
  | _ => True

def WellState : State → Prop
  | .declaration outer | .declaredName outer => WellOuter outer ∧ TakesDeclarations outer.frames
  | .afterStatement outer s =>
    WellOuter outer ∧ WellStmt .statement s ∧ opensBranch s = false
  | .statement outer => WellOuter outer
  | .afterDeclaredName outer name =>
    WellOuter outer ∧ TakesDeclarations outer.frames ∧ IsName name
  | .condition outer goal => WellOuter outer ∧ WellGoal outer.frames goal
  | .operand outer goal pending => WellOuter outer ∧ WellGoal outer.frames goal ∧ WellStack pending
  | .afterOperand outer goal pending e =>
    WellOuter outer ∧ WellGoal outer.frames goal ∧ WellStack pending ∧ WellExpr e ∧
      rankOf e = .primary

/-- What is known of a lexeme where it is read. -/
structure WellLexeme (state : State) (lexeme : Lexeme) : Prop where
  literal : ∀ value, constant? lexeme = some value → WellLiteral value
  name : lexeme.terminal = .name → NameShape lexeme.text
  free : lexeme.terminal = .name → state.slot ≠ .declaredName →
    ∀ s ∈ constants, String.ofList lexeme.text ≠ s

theorem isName_nameToken {text : List Char} (shape : NameShape text) (line : Nat) :
    IsName (nameToken text line) :=
  ⟨rfl, text, rfl, shape⟩

theorem isVariable_nameToken {text : List Char} (shape : NameShape text)
    (free : ∀ s ∈ constants, String.ofList text ≠ s) (line : Nat) :
    IsVariable (nameToken text line) := by
  refine ⟨isName_nameToken shape line, ?_⟩
  intro s member same
  exact free s member (Text.ofString_inj.1 (Json.text.inj same))

theorem wellLexeme_of_lexed {state : State} {cs : List Char} {lexeme : Lexeme}
    (lexed : Lexed state.slot.accepts cs lexeme)
    (accepted : state.slot.accepts lexeme.terminal = true) : WellLexeme state lexeme := by
  refine ⟨fun _ => wellLiteral_of_lexed lexed, nameShape_of_lexed lexed, ?_⟩
  intro named other
  apply not_constant_of_lexed lexed named
  rw [named] at accepted
  generalize state.slot = slot at accepted other
  -- A name may stand only where a constant may, or in a declaration.
  cases slot with
  | declaredName => exact absurd rfl other
  | declaration | afterStatement | statement | operand => decide
  | afterDeclaredName | condition | afterOperand | afterAssignable => cases accepted

theorem WellLexeme.elsewhere {state state' : State} {lexeme : Lexeme}
    (fresh : WellLexeme state lexeme) (other : state.slot ≠ .declaredName) :
    WellLexeme state' lexeme :=
  ⟨fresh.literal, fresh.name, fun named _ => fresh.free named other⟩

/-- A primary expression fits wherever an operand is read. -/
theorem WellStack.fits {pending : List Pending} {e : Expr} (stack : WellStack pending)
    (primary : rankOf e = .primary) : Waits (rankOf e).level pending := by
  rw [primary]
  exact stack.waits_unary.mono (by decide)

theorem isVariable_of_assignable? {pending : List Pending} {e : Expr} {name : Token}
    (well : WellExpr e) (assignable : assignable? pending e = some name) :
    IsVariable name ∧ startsAssignment pending = true := by
  unfold assignable? at assignable
  split at assignable
  · split at assignable
    · next starts =>
      cases assignable
      cases well with
      | var named => exact ⟨named, starts⟩
    · cases assignable
  · cases assignable

theorem wellState_move {lexeme : Lexeme} {line : Nat} {state next : State}
    (move : Move lexeme line state next) (fresh : WellLexeme state lexeme)
    (well : WellState state) : WellState next := by
  induction move with
  | constant _ _ _ written =>
    obtain ⟨outer, goal, stack⟩ := well
    exact ⟨outer, goal, stack, .literal (fresh.literal _ written), rfl⟩
  | name _ _ _ named =>
    obtain ⟨outer, goal, stack⟩ := well
    have known := isVariable_nameToken (fresh.name named) (fresh.free named nofun) line
    exact ⟨outer, goal, stack, .var known, rfl⟩
  | openParen =>
    obtain ⟨outer, goal, stack⟩ := well
    exact ⟨outer, goal, .group stack⟩
  | unary _ _ _ _ sign =>
    obtain ⟨outer, goal, stack⟩ := well
    exact ⟨outer, goal, .unary stack sign rfl⟩
  | print => exact ⟨well, trivial, .nil⟩
  | branch | loop => exact ⟨well, trivial⟩
  | openBrace =>
    refine ⟨WellOuter.push well ?_, trivial⟩
    intro s member
    cases member
  | expression _ ih => exact ih (fresh.elsewhere nofun) ⟨well, trivial, .nil⟩
  | declare => exact well
  | closeBrace inner frames done =>
    have split := List.forall_mem_cons.1 well.1.frames
    refine ⟨⟨split.2, well.1.done⟩, .block ?_, rfl⟩
    intro s member
    exact split.1 s (List.mem_reverse.1 member)
  | statement _ ih => exact ih (fresh.elsewhere nofun) well.1
  | otherwise _ attached =>
    obtain ⟨outer, stmt, closed⟩ := well
    exact ⟨well_attach? outer.frames stmt closed attached, outer.done⟩
  | complete _ ih =>
    obtain ⟨outer, stmt, closed⟩ := well
    exact ih (fresh.elsewhere nofun) (outer.complete stmt)
  | declaredName _ named => exact ⟨well.1, well.2, isName_nameToken (fresh.name named) line⟩
  | initial =>
    obtain ⟨outer, takes, named⟩ := well
    exact ⟨outer, ⟨named, takes⟩, .nil⟩
  | noInitial =>
    obtain ⟨outer, takes, named⟩ := well
    exact outer.declare takes (.declare named)
  | condition =>
    obtain ⟨outer, goal⟩ := well
    exact ⟨outer, goal, .nil⟩
  | assign _ assignable =>
    obtain ⟨outer, goal, stack, operand, primary⟩ := well
    obtain ⟨named, starts⟩ := isVariable_of_assignable? operand assignable
    exact ⟨outer, goal, .assign stack (waits_of_startsAssignment starts) named⟩
  | @operator _ _ pending rest e left k level _ binds reduced =>
    obtain ⟨outer, goal, stack, operand, primary⟩ := well
    obtain ⟨-, small⟩ := level?_bounds binds
    have loose : level ≤ (rankOf e).level := by
      rw [primary]
      exact Nat.le_succ_of_le (Nat.le_of_lt small)
    obtain ⟨first, below, stack, waits⟩ :=
      well_reduce small stack operand (stack.fits primary) loose
    rw [reduced] at first below stack waits
    exact ⟨outer, goal, .operator stack waits binds rfl first below⟩
  | closeGroup _ collapsed =>
    obtain ⟨outer, goal, stack, operand, primary⟩ := well
    obtain ⟨whole, stack⟩ := well_collapse stack operand (stack.fits primary) collapsed
    exact ⟨outer, goal, stack.tail, .grouping whole, rfl⟩
  | closeBranch _ collapsed | closeLoop _ collapsed =>
    obtain ⟨outer, goal, stack, operand, primary⟩ := well
    exact outer.push (well_collapse stack operand (stack.fits primary) collapsed).1
  | endPrint _ collapsed =>
    obtain ⟨outer, goal, stack, operand, primary⟩ := well
    obtain ⟨whole, -⟩ := well_collapse stack operand (stack.fits primary) collapsed
    exact ⟨outer, .print whole, rfl⟩
  | endExpression _ collapsed =>
    obtain ⟨outer, goal, stack, operand, primary⟩ := well
    obtain ⟨whole, -⟩ := well_collapse stack operand (stack.fits primary) collapsed
    exact ⟨outer, .expression whole, rfl⟩
  | endInitial _ collapsed =>
    obtain ⟨outer, ⟨named, takes⟩, stack, operand, primary⟩ := well
    obtain ⟨whole, -⟩ := well_collapse stack operand (stack.fits primary) collapsed
    exact outer.declare takes (.initial named whole)

theorem wellFormed_of_program? {state : State} {p : Program} (well : WellState state)
    (complete : state.program? = some p) : WellFormed p := by
  have finished {done : List Stmt} (all : ∀ s ∈ done, WellStmt .declaration s) :
      WellFormed ⟨done.reverse⟩ :=
    fun s member => all s (List.mem_reverse.1 member)
  unfold State.program? at complete
  split at complete
  · cases complete
    exact finished well.1.done
  · obtain ⟨outer, stmt, -⟩ := well
    have added := (outer.complete stmt).1
    split at complete
    · next same =>
      cases complete
      rw [Outer.add] at same
      rw [same] at added
      exact finished added.done
    · cases complete
  · cases complete

theorem wellFormed_of_parse {source : String} {p : Program} (h : parse source = .ok p) :
    WellFormed p := by
  have kept : Kept (Text.newlines source.toList + 1) WellState := by
    intro state next lexeme line cs well lexed _ _ move
    exact wellState_move move (wellLexeme_of_lexed lexed move.accepted) well
  have start : WellState (.declaration ⟨[], []⟩) := ⟨⟨nofun, nofun⟩, trivial⟩
  obtain ⟨final, well, complete⟩ := kept.final start (Nat.le_refl 1) (by omega) h
  exact wellFormed_of_program? well complete

theorem encodable_of_wellLiteral {value : Literal} (well : WellLiteral value) :
    value.encodable = true := by
  cases value with
  | text s =>
    obtain ⟨inner, rfl, -⟩ := well
    exact Text.encodable_ofString inner
  | null | bool | number => rfl

theorem encodable_of_wellExpr {e : Expr} (well : WellExpr e) :
    ∀ c ∈ e.constants, c.encodable = true := by
  induction well with
  | literal plain => exact List.forall_mem_singleton.2 (encodable_of_wellLiteral plain)
  | var => exact nofun
  | assign _ _ ih | unary _ _ _ _ ih | grouping _ ih => exact ih
  | logical _ _ _ _ _ _ first second | binary _ _ _ _ _ _ first second =>
    rw [Expr.constants, List.forall_mem_append]
    exact ⟨first, second⟩

theorem constantsAll_eq_flatMap (body : List Stmt) :
    Stmt.constantsAll body = body.flatMap Stmt.constants := by
  induction body with
  | nil => rfl
  | cons s rest ih => rw [Stmt.constantsAll, ih, List.flatMap_cons]

theorem encodable_of_wellStmt {category : Category} {s : Stmt} (well : WellStmt category s) :
    ∀ c ∈ s.constants, c.encodable = true := by
  induction well with
  | declare => simp [Stmt.constants]
  | initial _ value | print value | expression value =>
    rw [Stmt.constants]
    exact encodable_of_wellExpr value
  | statement _ ih => exact ih
  | block _ ih =>
    rw [Stmt.constants, constantsAll_eq_flatMap]
    intro c member
    obtain ⟨s, inside, member⟩ := List.mem_flatMap.1 member
    exact ih s inside c member
  | ifThen value _ ih | loop value _ ih =>
    rw [Stmt.constants, List.forall_mem_append]
    exact ⟨encodable_of_wellExpr value, ih⟩
  | ifThenElse value _ _ _ ihInner ihOuter =>
    rw [Stmt.constants, List.forall_mem_append, List.forall_mem_append]
    exact ⟨⟨encodable_of_wellExpr value, ihInner⟩, ihOuter⟩

/-- No constant of a text holds half of a pair. -/
theorem encodable_of_parse {source : String} {p : Program} (h : parse source = .ok p) :
    ∀ c ∈ p.constants, c.encodable = true := by
  rw [Program.constants, constantsAll_eq_flatMap]
  intro c member
  obtain ⟨s, inside, member⟩ := List.mem_flatMap.1 member
  exact encodable_of_wellStmt (wellFormed_of_parse h s inside) c member

/-- The document of a program is read back, if the number of lines is no longer than an integer may
be. -/
theorem readable_of_parse {source : String} {p : Program} (h : parse source = .ok p)
    (short : Text.newlines source.toList + 1 < 10 ^ Json.digitLimit) : p.encode.Readable := by
  refine readable_program ?_ (encodable_of_parse h)
  intro t member
  obtain ⟨⟨s, text⟩, first, last⟩ := tokens_of_parse h t member
  have digits : Json.Fits (.whole t.line) := by
    apply (Nat.length_toDigits_le_iff (by decide) (by decide)).2
    omega
  refine ⟨?_, digits⟩
  rw [text]
  exact Text.encodable_ofString s

end TreeWalk.Source
