import TreeWalk.Proofs.Source.Tokens

/-!
The grammar of programs, as rules on lists of lexemes with the trees that they build:

    program     := declaration*
    declaration := "var" NAME ("=" expr)? ";" | statement
    statement   := "print" expr ";" | "if" "(" expr ")" statement ("else" statement)?
                 | "while" "(" expr ")" statement | "{" declaration* "}" | expr ";"
    expr        := NAME "=" expr | or
    or := and ("or" and)*              and  := eq ("and" eq)*
    eq := cmp (("==" | "!=") cmp)*     cmp  := term ((">" | ">=" | "<" | "<=") term)*
    term := factor (("+" | "-") factor)*    factor := unary (("*" | "/") unary)*
    unary := ("!" | "-") unary | primary
    primary := NUMBER | STRING | "true" | "false" | "null" | NAME | "(" expr ")"

The rules leave open which branch an `else` belongs to. A text with a tree has one in which every
`else` belongs to the nearest branch without one.
-/

set_option autoImplicit false

namespace TreeWalk.Source

/-- The rules for expressions, from the loosest to the tightest. -/
inductive Rank where
  | assignment
  | or
  | and
  | equality
  | comparison
  | term
  | factor
  | unary
  | primary
  deriving DecidableEq, Repr

def Rank.level : Rank → Nat
  | .assignment => 0
  | .or => 1
  | .and => 2
  | .equality => 3
  | .comparison => 4
  | .term => 5
  | .factor => 6
  | .unary => 7
  | .primary => 8

theorem Rank.level_injective {rank rank' : Rank} (same : rank.level = rank'.level) :
    rank = rank' := by
  cases rank <;> cases rank' <;> first | rfl | cases same

/-- The rules that are chains: their operators, and the rule for their operands. -/
def Rank.chain? : Rank → Option (List Kind × Rank)
  | .or => some ([.or], .and)
  | .and => some ([.and], .equality)
  | .equality => some ([.equal, .notEqual], .comparison)
  | .comparison => some ([.greater, .greaterEqual, .less, .lessEqual], .term)
  | .term => some ([.add, .subtract], .factor)
  | .factor => some ([.multiply, .divide], .unary)
  | .assignment | .unary | .primary => none

/-- The tree of an operator of a chain. -/
def Rank.node : Rank → Expr → Token → Expr → Expr
  | .or, left, operator, right | .and, left, operator, right => .logical left operator right
  | _, left, operator, right => .binary left operator right

/-- An operator of a chain with the operand to the right of it. -/
structure Link where
  kind : Kind
  sign : Placed
  tokens : List Placed
  operand : Expr

def Link.all (link : Link) : List Placed := link.sign :: link.tokens

/-- The lexemes of an expression and its tree. A chain is folded to the left, an assignment nests to
the right. -/
inductive ExprForm : Rank → List Placed → Expr → Prop where
  | assign {name equals : Placed} {ts : List Placed} {value : Expr}
    (named : name.lexeme.terminal = .name) (sign : equals.lexeme.terminal = .mark .assign)
    (form : ExprForm .assignment ts value) :
    ExprForm .assignment (name :: equals :: ts)
      (.assign (nameToken name.lexeme.text name.line) value)
  | value {ts : List Placed} {e : Expr} (form : ExprForm .or ts e) : ExprForm .assignment ts e
  | chain {rank operand : Rank} {kinds : List Kind} {ts : List Placed} {first : Expr}
    {links : List Link} (rule : rank.chain? = some (kinds, operand))
    (form : ExprForm operand ts first) (signs : ∀ link ∈ links,
      link.kind ∈ kinds ∧ link.sign.lexeme.terminal = .operator link.kind)
    (forms : ∀ link ∈ links, ExprForm operand link.tokens link.operand) :
    ExprForm rank (ts ++ links.flatMap Link.all)
      (links.foldl (fun left link =>
        rank.node left (operatorToken link.kind link.sign.line) link.operand) first)
  | unary {sign : Placed} {k : Kind} {ts : List Placed} {e : Expr}
    (either : k = .not ∨ k = .subtract) (signed : sign.lexeme.terminal = .operator k)
    (form : ExprForm .unary ts e) :
    ExprForm .unary (sign :: ts) (.unary (operatorToken k sign.line) e)
  | plain {ts : List Placed} {e : Expr} (form : ExprForm .primary ts e) : ExprForm .unary ts e
  | constant {t : Placed} {value : Literal} (written : constant? t.lexeme = some value) :
    ExprForm .primary [t] (.literal value)
  | var {t : Placed} (named : t.lexeme.terminal = .name) :
    ExprForm .primary [t] (.var (nameToken t.lexeme.text t.line))
  | grouping {first last : Placed} {ts : List Placed} {e : Expr}
    (opens : first.lexeme.terminal = .mark .openParen) (form : ExprForm .assignment ts e)
    (closes : last.lexeme.terminal = .mark .closeParen) :
    ExprForm .primary (first :: ts ++ [last]) (.grouping e)

theorem ExprForm.single {rank operand : Rank} {kinds : List Kind} {ts : List Placed} {e : Expr}
    (rule : rank.chain? = some (kinds, operand)) (form : ExprForm operand ts e) :
    ExprForm rank ts e := by
  have whole : ExprForm rank (ts ++ [].flatMap Link.all) e :=
    .chain rule form (fun _ member => nomatch member) (fun _ member => nomatch member)
  rwa [List.flatMap_nil, List.append_nil] at whole

theorem ExprForm.looser {rank : Rank} {ts : List Placed} {e : Expr} (form : ExprForm rank ts e)
    (tight : rank ≠ .assignment) :
    ∃ rank' : Rank, rank'.level + 1 = rank.level ∧ ExprForm rank' ts e := by
  cases rank with
  | assignment => exact absurd rfl tight
  | or => exact ⟨.assignment, rfl, .value form⟩
  | and => exact ⟨.or, rfl, .single rfl form⟩
  | equality => exact ⟨.and, rfl, .single rfl form⟩
  | comparison => exact ⟨.equality, rfl, .single rfl form⟩
  | term => exact ⟨.comparison, rfl, .single rfl form⟩
  | factor => exact ⟨.term, rfl, .single rfl form⟩
  | unary => exact ⟨.factor, rfl, .single rfl form⟩
  | primary => exact ⟨.unary, rfl, .plain form⟩

theorem ExprForm.loosen {rank rank' : Rank} {ts : List Placed} {e : Expr}
    (form : ExprForm rank ts e) (le : rank'.level ≤ rank.level) : ExprForm rank' ts e := by
  obtain ⟨steps, distance⟩ := Nat.exists_eq_add_of_le le
  induction steps generalizing rank with
  | zero =>
    rw [Rank.level_injective distance] at form
    exact form
  | succ steps ih =>
    have tight : rank ≠ .assignment := by
      rintro rfl
      cases distance
    obtain ⟨near, below, form⟩ := form.looser tight
    exact ih form (by omega) (by omega)

/-- The two rules for statements. -/
inductive Category where
  | declaration
  | statement

structure Part where
  tokens : List Placed
  stmt : Stmt

/-- The lexemes of a statement and its tree. -/
inductive StmtForm : Category → List Placed → Stmt → Prop where
  | declare {word name semicolon : Placed} (opens : word.lexeme.terminal = .keyword .declare)
    (named : name.lexeme.terminal = .name)
    (closes : semicolon.lexeme.terminal = .mark .semicolon) :
    StmtForm .declaration [word, name, semicolon]
      (.declare (nameToken name.lexeme.text name.line) none)
  | initial {word name equals semicolon : Placed} {ts : List Placed} {e : Expr}
    (opens : word.lexeme.terminal = .keyword .declare) (named : name.lexeme.terminal = .name)
    (sign : equals.lexeme.terminal = .mark .assign) (form : ExprForm .assignment ts e)
    (closes : semicolon.lexeme.terminal = .mark .semicolon) :
    StmtForm .declaration (word :: name :: equals :: ts ++ [semicolon])
      (.declare (nameToken name.lexeme.text name.line) (some e))
  | statement {ts : List Placed} {s : Stmt} (form : StmtForm .statement ts s) :
    StmtForm .declaration ts s
  | print {word semicolon : Placed} {ts : List Placed} {e : Expr}
    (opens : word.lexeme.terminal = .keyword .print) (form : ExprForm .assignment ts e)
    (closes : semicolon.lexeme.terminal = .mark .semicolon) :
    StmtForm .statement (word :: ts ++ [semicolon]) (.print e)
  | expression {semicolon : Placed} {ts : List Placed} {e : Expr}
    (form : ExprForm .assignment ts e)
    (closes : semicolon.lexeme.terminal = .mark .semicolon) :
    StmtForm .statement (ts ++ [semicolon]) (.expression e)
  | ifThen {word first last : Placed} {ts body : List Placed} {condition : Expr} {yes : Stmt}
    (opens : word.lexeme.terminal = .keyword .branch)
    (left : first.lexeme.terminal = .mark .openParen) (form : ExprForm .assignment ts condition)
    (right : last.lexeme.terminal = .mark .closeParen) (inner : StmtForm .statement body yes) :
    StmtForm .statement (word :: first :: ts ++ last :: body) (.ifThen condition yes)
  | ifThenElse {word first last middle : Placed} {ts body other : List Placed} {condition : Expr}
    {yes no : Stmt} (opens : word.lexeme.terminal = .keyword .branch)
    (left : first.lexeme.terminal = .mark .openParen) (form : ExprForm .assignment ts condition)
    (right : last.lexeme.terminal = .mark .closeParen) (inner : StmtForm .statement body yes)
    (otherwise : middle.lexeme.terminal = .keyword .otherwise)
    (outer : StmtForm .statement other no) :
    StmtForm .statement (word :: first :: ts ++ last :: body ++ middle :: other)
      (.ifThenElse condition yes no)
  | loop {word first last : Placed} {ts rest : List Placed} {condition : Expr} {body : Stmt}
    (opens : word.lexeme.terminal = .keyword .loop)
    (left : first.lexeme.terminal = .mark .openParen) (form : ExprForm .assignment ts condition)
    (right : last.lexeme.terminal = .mark .closeParen) (inner : StmtForm .statement rest body) :
    StmtForm .statement (word :: first :: ts ++ last :: rest) (.loop condition body)
  | block {first last : Placed} {parts : List Part}
    (opens : first.lexeme.terminal = .mark .openBrace)
    (forms : ∀ part ∈ parts, StmtForm .declaration part.tokens part.stmt)
    (closes : last.lexeme.terminal = .mark .closeBrace) :
    StmtForm .statement (first :: parts.flatMap Part.tokens ++ [last])
      (.block (parts.map Part.stmt))

def ProgramForm (ts : List Placed) (p : Program) : Prop :=
  ∃ parts : List Part, (∀ part ∈ parts, StmtForm .declaration part.tokens part.stmt) ∧
    ts = parts.flatMap Part.tokens ∧ p = ⟨parts.map Part.stmt⟩

/-- Whether a statement ends in a branch without an `else`, so that one could follow. -/
def opensBranch : Stmt → Bool
  | .ifThen .. => true
  | .ifThenElse _ _ no => opensBranch no
  | .loop _ body => opensBranch body
  | _ => false

/-- Every `else` belongs to the nearest branch without one. -/
inductive NearestElse : Stmt → Prop where
  | print (value : Expr) : NearestElse (.print value)
  | expression (value : Expr) : NearestElse (.expression value)
  | declare (name : Token) (initial : Option Expr) : NearestElse (.declare name initial)
  | block {body : List Stmt} (inner : ∀ s ∈ body, NearestElse s) : NearestElse (.block body)
  | ifThen (condition : Expr) {yes : Stmt} (inner : NearestElse yes) :
    NearestElse (.ifThen condition yes)
  | ifThenElse (condition : Expr) {yes no : Stmt} (closed : opensBranch yes = false)
    (inner : NearestElse yes) (outer : NearestElse no) :
    NearestElse (.ifThenElse condition yes no)
  | loop (condition : Expr) {body : Stmt} (inner : NearestElse body) :
    NearestElse (.loop condition body)

def NearestElseProgram (p : Program) : Prop := ∀ s ∈ p.statements, NearestElse s

/-- An `else` behind a statement that ends in an open branch belongs to that branch. -/
theorem exists_attached {category : Category} {ts other : List Placed} {s no : Stmt}
    {middle : Placed} (form : StmtForm category ts s) (near : NearestElse s)
    (opened : opensBranch s = true) (otherwise : middle.lexeme.terminal = .keyword .otherwise)
    (outer : StmtForm .statement other no) (outerNear : NearestElse no) :
    ∃ s', StmtForm category (ts ++ middle :: other) s' ∧ NearestElse s' := by
  induction form with
  | declare | initial | print | expression | block => cases opened
  | statement _ ih =>
    obtain ⟨s', form, near⟩ := ih near opened
    exact ⟨s', .statement form, near⟩
  | @ifThen word first last ts body condition yes opens left form right inner ih =>
    cases near with
    | ifThen _ innerNear =>
      cases closed : opensBranch yes with
      | true =>
        obtain ⟨yes', innerForm, near⟩ := ih innerNear closed
        refine ⟨.ifThen condition yes', ?_, .ifThen condition near⟩
        rw [List.append_assoc, List.cons_append]
        exact .ifThen opens left form right innerForm
      | false =>
        exact ⟨.ifThenElse condition yes no,
          .ifThenElse opens left form right inner otherwise outer,
          .ifThenElse condition closed innerNear outerNear⟩
  | @ifThenElse word first last between ts body rest condition yes no' opens left form right inner
      second outer' _ ih =>
    cases near with
    | ifThenElse _ closed innerNear near =>
      obtain ⟨last, lastForm, lastNear⟩ := ih near opened
      refine ⟨.ifThenElse condition yes last, ?_, .ifThenElse condition closed innerNear lastNear⟩
      rw [List.append_assoc, List.cons_append]
      exact .ifThenElse opens left form right inner second lastForm
  | @loop word first last ts rest condition body opens left form right inner ih =>
    cases near with
    | loop _ innerNear =>
      obtain ⟨body', innerForm, near⟩ := ih innerNear opened
      refine ⟨.loop condition body', ?_, .loop condition near⟩
      rw [List.append_assoc, List.cons_append]
      exact .loop opens left form right innerForm

theorem exists_nearest_parts {parts : List Part} (forms : ∀ part ∈ parts,
    ∃ s, StmtForm .declaration part.tokens s ∧ NearestElse s) :
    ∃ parts' : List Part, parts'.flatMap Part.tokens = parts.flatMap Part.tokens ∧
      (∀ part ∈ parts', StmtForm .declaration part.tokens part.stmt) ∧
      ∀ s ∈ parts'.map Part.stmt, NearestElse s := by
  induction parts with
  | nil => exact ⟨[], rfl, by simp, by simp⟩
  | cons part parts ih =>
    rw [List.forall_mem_cons] at forms
    obtain ⟨s, form, near⟩ := forms.1
    obtain ⟨parts', tokens, forms', near'⟩ := ih forms.2
    refine ⟨⟨part.tokens, s⟩ :: parts', ?_, List.forall_mem_cons.2 ⟨form, forms'⟩, ?_⟩
    · rw [List.flatMap_cons, List.flatMap_cons, tokens]
    · rw [List.map_cons, List.forall_mem_cons]
      exact ⟨near, near'⟩

/-- The lexemes of a statement have a tree in which every `else` belongs to the nearest branch. -/
theorem exists_nearest {category : Category} {ts : List Placed} {s : Stmt}
    (form : StmtForm category ts s) : ∃ s', StmtForm category ts s' ∧ NearestElse s' := by
  induction form with
  | declare opens named closes => exact ⟨_, .declare opens named closes, .declare _ _⟩
  | initial opens named sign form closes =>
    exact ⟨_, .initial opens named sign form closes, .declare _ _⟩
  | statement _ ih =>
    obtain ⟨s', form, near⟩ := ih
    exact ⟨s', .statement form, near⟩
  | print opens form closes => exact ⟨_, .print opens form closes, .print _⟩
  | expression form closes => exact ⟨_, .expression form closes, .expression _⟩
  | ifThen opens left form right _ ih =>
    obtain ⟨yes, inner, near⟩ := ih
    exact ⟨_, .ifThen opens left form right inner, .ifThen _ near⟩
  | @ifThenElse word first last middle ts body other condition _ _ opens left form right _ otherwise
      _ ihYes ihNo =>
    obtain ⟨yes, inner, near⟩ := ihYes
    obtain ⟨no, outer, outerNear⟩ := ihNo
    cases closed : opensBranch yes with
    | false =>
      exact ⟨_, .ifThenElse opens left form right inner otherwise outer,
        .ifThenElse condition closed near outerNear⟩
    | true =>
      -- The branch is left without an `else`: the statement in it takes it.
      obtain ⟨s', inner, near⟩ := exists_attached inner near closed otherwise outer outerNear
      refine ⟨.ifThen condition s', ?_, .ifThen condition near⟩
      rw [List.append_assoc, List.cons_append]
      exact .ifThen opens left form right inner
  | loop opens left form right _ ih =>
    obtain ⟨body, inner, near⟩ := ih
    exact ⟨_, .loop opens left form right inner, .loop _ near⟩
  | @block first last parts opens _ closes ih =>
    obtain ⟨parts', tokens, forms, near⟩ := exists_nearest_parts ih
    refine ⟨.block (parts'.map Part.stmt), ?_, .block near⟩
    rw [← tokens]
    exact .block opens forms closes

theorem exists_nearest_program {ts : List Placed} {p : Program} (form : ProgramForm ts p) :
    ∃ p', ProgramForm ts p' ∧ NearestElseProgram p' := by
  obtain ⟨parts, forms, rfl, rfl⟩ := form
  obtain ⟨parts', tokens, forms, near⟩ :=
    exists_nearest_parts fun part member => exists_nearest (forms part member)
  exact ⟨⟨parts'.map Part.stmt⟩, ⟨parts', forms, tokens.symm, rfl⟩, near⟩

end TreeWalk.Source
