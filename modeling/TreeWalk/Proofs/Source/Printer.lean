import TreeWalk.Proofs.Source.WellFormed
import TreeWalk.Proofs.Tree.MapTokens

/-!
Writing programs. A tree is written as its lexemes with blanks between them, and a number in full.
The text of a well-formed program without reserved words for names is read as the program, up to the
lines of the tokens. Together with the form of every tree that is read this says which trees are
trees of texts.
-/

set_option autoImplicit false

namespace TreeWalk

def Token.unplaced (t : Token) : Token := { t with line := 0 }

def Program.unplaced (p : Program) : Program := p.mapTokens .unplaced .unplaced

namespace Source

/-- A decimal in full, with a point only if it has places. -/
def numeral (d : Decimal) : List Char :=
  let places := (-d.exponent).toNat
  let digits := Number.zeroPad (places + 1)
    (Nat.toDigits 10 d.digits ++ List.replicate d.exponent.toNat '0')
  let whole := digits.length - places
  if places = 0 then digits else digits.take whole ++ '.' :: digits.drop whole

/-- The digits of a numeral: at least one in front of the places. -/
theorem exists_numeral (d : Decimal) : ∃ whole fraction : List Char, whole ≠ [] ∧
    (∀ c ∈ whole, Text.isDigit c = true) ∧ (∀ c ∈ fraction, Text.isDigit c = true) ∧
    numeral d = (if fraction = [] then whole else whole ++ '.' :: fraction) ∧
    (Decimal.ofDigits whole fraction).value = d.value := by
  obtain ⟨n, e⟩ := d
  have fullDigits : ∀ c ∈ Number.zeroPad ((-e).toNat + 1)
      (Nat.toDigits 10 n ++ List.replicate e.toNat '0'), Text.isDigit c = true := by
    intro c member
    apply Text.isDigit_of_isDigit
    exact ((Json.Digits.zeros _).append ((Json.Digits.toDigits n).append (Json.Digits.zeros _))) c
      member
  have fullValue : Text.digitsValue (Number.zeroPad ((-e).toNat + 1)
      (Nat.toDigits 10 n ++ List.replicate e.toNat '0')) = n * 10 ^ e.toNat := by
    rw [Json.digitsValue_zeroPad, Text.digitsValue_append, Text.digitsValue_zeros,
      Text.digitsValue_toDigits, List.length_replicate, Nat.add_zero]
  have long : (-e).toNat + 1 ≤ (Number.zeroPad ((-e).toNat + 1)
      (Nat.toDigits 10 n ++ List.replicate e.toNat '0')).length := by
    rw [Number.zeroPad, List.length_append, List.length_replicate]
    omega
  unfold numeral
  simp only
  generalize Number.zeroPad ((-e).toNat + 1) (Nat.toDigits 10 n ++ List.replicate e.toNat '0') =
    digits at fullDigits fullValue long ⊢
  refine ⟨digits.take (digits.length - (-e).toNat), digits.drop (digits.length - (-e).toNat),
    ?_, fun c member => fullDigits c (List.mem_of_mem_take member),
    fun c member => fullDigits c (List.mem_of_mem_drop member), ?_, ?_⟩
  · rw [ne_eq, ← List.length_eq_zero_iff, List.length_take]
    omega
  · by_cases none : (-e).toNat = 0
    · rw [if_pos none, none, Nat.sub_zero, List.drop_length, List.take_length, if_pos rfl]
    · have places : digits.drop (digits.length - (-e).toNat) ≠ [] := by
        rw [ne_eq, List.drop_eq_nil_iff]
        omega
      rw [if_neg none, if_neg places]
  · have places : digits.length - (digits.length - (-e).toNat) = (-e).toNat := by omega
    have exponent : (e.toNat : Int) + -((-e).toNat : Int) = e := by omega
    rw [Decimal.ofDigits, List.take_append_drop, fullValue, List.length_drop, places]
    simp only [Decimal.value]
    rw [Nat.cast_mul, Nat.cast_pow, Nat.cast_ofNat, mul_assoc, ← zpow_natCast,
      ← zpow_add₀ (by norm_num), exponent]

theorem spells_numeral (d : Decimal) : Spells .number (numeral d) := by
  obtain ⟨whole, fraction, nonempty, first, second, text, -⟩ := exists_numeral d
  rw [text]
  split
  · exact .whole nonempty first
  · next places => exact .fraction nonempty first places second

theorem numberValue_numeral (d : Decimal) : numberValue (numeral d) = d.toFloat := by
  obtain ⟨whole, fraction, -, first, -, text, value⟩ := exists_numeral d
  have point : Text.isDigit '.' = false := by decide
  rw [← Decimal.toFloat_congr value, text]
  unfold numberValue
  split
  · next none =>
    have all : whole.takeWhile Text.isDigit = whole := List.takeWhile_eq_self_iff.2 first
    rw [none]
    simp only [all]
    rw [List.drop_of_length_le (Nat.le_succ _)]
  · have all : (whole ++ '.' :: fraction).takeWhile Text.isDigit = whole := by
      rw [List.takeWhile_append_of_pos first, List.takeWhile_cons_of_neg (by simp [point]),
        List.append_nil]
    have rest : (whole ++ '.' :: fraction).drop (whole.length + 1) = fraction := by
      rw [← List.drop_drop, List.drop_left]
      rfl
    simp only [all, rest]

def literalLexeme : Literal → Lexeme
  | .null => Keyword.nothing.lexeme
  | .bool true => Keyword.yes.lexeme
  | .bool false => Keyword.no.lexeme
  | .number x => ⟨.number, numeral (.ofUnsigned x)⟩
  | .text s => ⟨.string, '"' :: s.escaped.toList ++ ['"']⟩

def nameLexeme (t : Token) : Lexeme :=
  match t.text with
  | .text s => ⟨.name, s.escaped.toList⟩
  | _ => ⟨.name, []⟩

def exprLexemes : Expr → List Lexeme
  | .literal value => [literalLexeme value]
  | .var name => [nameLexeme name]
  | .assign name value => nameLexeme name :: Mark.assign.lexeme :: exprLexemes value
  | .logical left operator right | .binary left operator right =>
    exprLexemes left ++ signLexeme operator.kind :: exprLexemes right
  | .unary operator operand => signLexeme operator.kind :: exprLexemes operand
  | .grouping inner => Mark.openParen.lexeme :: exprLexemes inner ++ [Mark.closeParen.lexeme]

mutual

def stmtLexemes : Stmt → List Lexeme
  | .print value => Keyword.print.lexeme :: exprLexemes value ++ [Mark.semicolon.lexeme]
  | .expression value => exprLexemes value ++ [Mark.semicolon.lexeme]
  | .declare name none => [Keyword.declare.lexeme, nameLexeme name, Mark.semicolon.lexeme]
  | .declare name (some initial) =>
    Keyword.declare.lexeme :: nameLexeme name :: Mark.assign.lexeme :: exprLexemes initial ++
      [Mark.semicolon.lexeme]
  | .block body => Mark.openBrace.lexeme :: stmtsLexemes body ++ [Mark.closeBrace.lexeme]
  | .ifThen condition yes =>
    Keyword.branch.lexeme :: Mark.openParen.lexeme :: exprLexemes condition ++
      Mark.closeParen.lexeme :: stmtLexemes yes
  | .ifThenElse condition yes no =>
    Keyword.branch.lexeme :: Mark.openParen.lexeme :: exprLexemes condition ++
      Mark.closeParen.lexeme :: stmtLexemes yes ++ Keyword.otherwise.lexeme :: stmtLexemes no
  | .loop condition body =>
    Keyword.loop.lexeme :: Mark.openParen.lexeme :: exprLexemes condition ++
      Mark.closeParen.lexeme :: stmtLexemes body

def stmtsLexemes : List Stmt → List Lexeme
  | [] => []
  | s :: rest => stmtLexemes s ++ stmtsLexemes rest

end

/-- The text of a program. -/
def sourceOf (p : Program) : String := String.ofList (spaced (stmtsLexemes p.statements))

/-- No name among the tokens is a reserved word. -/
def AvoidsReserved (ts : List Token) : Prop :=
  ∀ t ∈ ts, t.kind = .identifier → ∀ s ∈ reserved, t.text ≠ .text s

theorem spells_literalLexeme {value : Literal} (plain : WellLiteral value) :
    Spells (literalLexeme value).terminal (literalLexeme value).text := by
  cases value with
  | null => exact .keyword _
  | bool b => cases b <;> exact .keyword _
  | number x => exact spells_numeral _
  | text s =>
    obtain ⟨inner, rfl, unquoted⟩ := plain
    rw [literalLexeme, Text.escaped_ofString]
    exact .string unquoted

theorem spells_nameLexeme {name : Token} (named : IsName name)
    (free : ∀ s ∈ reserved, name.text ≠ .text s) :
    Spells (nameLexeme name).terminal (nameLexeme name).text := by
  obtain ⟨cs, text, c, rest, rfl, start, all⟩ := named.text
  simp only [nameLexeme, text, Text.escaped_ofString, String.toList_ofList]
  refine .name start all ?_
  intro member
  exact free _ member text

def Spelled (lexemes : List Lexeme) : Prop := ∀ l ∈ lexemes, Spells l.terminal l.text

theorem Spelled.append {first second : List Lexeme} (h : Spelled first) (h' : Spelled second) :
    Spelled (first ++ second) :=
  List.forall_mem_append.2 ⟨h, h'⟩

theorem Spelled.cons {l : Lexeme} {rest : List Lexeme} (h : Spells l.terminal l.text)
    (h' : Spelled rest) : Spelled (l :: rest) :=
  List.forall_mem_cons.2 ⟨h, h'⟩

theorem Spelled.mark (m : Mark) : Spelled [m.lexeme] :=
  .cons (.mark m) nofun

theorem AvoidsReserved.split {first second : List Token} (h : AvoidsReserved (first ++ second)) :
    AvoidsReserved first ∧ AvoidsReserved second :=
  List.forall_mem_append.1 h

theorem AvoidsReserved.tail {t : Token} {rest : List Token} (h : AvoidsReserved (t :: rest)) :
    AvoidsReserved rest :=
  (List.forall_mem_cons.1 h).2

theorem AvoidsReserved.spells {name : Token} {rest : List Token}
    (h : AvoidsReserved (name :: rest)) (named : IsName name) :
    Spells (nameLexeme name).terminal (nameLexeme name).text :=
  spells_nameLexeme named ((List.forall_mem_cons.1 h).1 named.kind)

theorem spells_signLexeme {k : Kind} (sign : k ≠ .identifier) :
    Spells (signLexeme k).terminal (signLexeme k).text :=
  .operator k sign

theorem spelled_expr {e : Expr} (well : WellExpr e) (free : AvoidsReserved e.tokens) :
    Spelled (exprLexemes e) := by
  induction well with
  | literal plain => exact .cons (spells_literalLexeme plain) nofun
  | var named => exact .cons (free.spells named.name) nofun
  | assign named _ ih => exact .cons (free.spells named.name) (.cons (.mark _) (ih free.tail))
  | @logical _ _ operator _ rule _ _ _ _ _ ihLeft ihRight =>
    have sign : operator.kind ≠ .identifier := by
      intro same
      rw [same] at rule
      cases rule
    obtain ⟨first, second⟩ := free.split
    exact (ihLeft first).append (.cons (spells_signLexeme sign) (ihRight second.tail))
  | @binary _ _ operator _ rule _ _ _ _ _ ihLeft ihRight =>
    have sign : operator.kind ≠ .identifier := by
      intro same
      rw [same] at rule
      cases rule
    obtain ⟨first, second⟩ := free.split
    exact (ihLeft first).append (.cons (spells_signLexeme sign) (ihRight second.tail))
  | @unary operator _ either _ _ _ ih =>
    have sign : operator.kind ≠ .identifier := by
      intro same
      rw [same] at either
      simp at either
    exact .cons (spells_signLexeme sign) (ih free.tail)
  | grouping _ ih => exact .cons (.mark _) ((ih free).append (.mark _))

theorem spelled_condition {condition : Expr} {rest : List Lexeme} (k : Keyword)
    (value : WellExpr condition) (free : AvoidsReserved condition.tokens) (inner : Spelled rest) :
    Spelled (k.lexeme :: Mark.openParen.lexeme :: exprLexemes condition ++
      Mark.closeParen.lexeme :: rest) :=
  .cons (.keyword k) (.cons (.mark _) ((spelled_expr value free).append (.cons (.mark _) inner)))

theorem spelled_stmts {body : List Stmt}
    (each : ∀ s ∈ body, AvoidsReserved s.tokens → Spelled (stmtLexemes s))
    (free : AvoidsReserved (Stmt.tokensAll body)) : Spelled (stmtsLexemes body) := by
  induction body with
  | nil => exact nofun
  | cons s body ih =>
    rw [List.forall_mem_cons] at each
    rw [Stmt.tokensAll] at free
    obtain ⟨first, rest⟩ := free.split
    rw [stmtsLexemes]
    exact (each.1 first).append (ih each.2 rest)

theorem spelled_stmt {category : Category} {s : Stmt} (well : WellStmt category s)
    (free : AvoidsReserved s.tokens) : Spelled (stmtLexemes s) := by
  induction well with
  | declare named =>
    rw [Stmt.tokens] at free
    rw [stmtLexemes]
    exact .cons (.keyword _) (.cons (free.spells named) (.mark _))
  | initial named value =>
    rw [Stmt.tokens] at free
    rw [stmtLexemes]
    exact .cons (.keyword _) (.cons (free.spells named)
      (.cons (.mark _) ((spelled_expr value free.tail).append (.mark _))))
  | statement _ ih => exact ih free
  | print value =>
    rw [Stmt.tokens] at free
    rw [stmtLexemes]
    exact .cons (.keyword _) ((spelled_expr value free).append (.mark _))
  | expression value =>
    rw [Stmt.tokens] at free
    rw [stmtLexemes]
    exact (spelled_expr value free).append (.mark _)
  | block _ ih =>
    rw [Stmt.tokens] at free
    rw [stmtLexemes]
    exact .cons (.mark _) ((spelled_stmts ih free).append (.mark _))
  | ifThen value _ ih =>
    rw [Stmt.tokens] at free
    obtain ⟨first, second⟩ := free.split
    rw [stmtLexemes]
    exact spelled_condition .branch value first (ih second)
  | ifThenElse value _ _ _ ihYes ihNo =>
    rw [Stmt.tokens] at free
    obtain ⟨before, last⟩ := free.split
    obtain ⟨first, second⟩ := before.split
    rw [stmtLexemes]
    exact (spelled_condition .branch value first (ihYes second)).append
      (.cons (.keyword _) (ihNo last))
  | loop value _ ih =>
    rw [Stmt.tokens] at free
    obtain ⟨first, second⟩ := free.split
    rw [stmtLexemes]
    exact spelled_condition .loop value first (ih second)

theorem opensBranch_mapTokens (names operators : Token → Token) (s : Stmt) :
    opensBranch (s.mapTokens names operators) = opensBranch s := by
  match s with
  | .print _ | .expression _ | .declare _ _ | .block _ | .ifThen _ _ => rfl
  | .ifThenElse _ _ no => exact opensBranch_mapTokens names operators no
  | .loop _ body => exact opensBranch_mapTokens names operators body

theorem ExprForm.link {rank operand : Rank} {kinds : List Kind} {ts ts' : List Placed}
    {left right : Expr} {sign : Placed} {k : Kind} (rule : rank.chain? = some (kinds, operand))
    (first : ExprForm rank ts left) (member : k ∈ kinds)
    (signed : sign.lexeme.terminal = .operator k) (second : ExprForm operand ts' right) :
    ExprForm rank (ts ++ sign :: ts') (rank.node left (operatorToken k sign.line) right) := by
  cases first with
  | assign | value | unary | plain | constant | var | grouping => cases rule
  | @chain _ _ _ ts e links rule' form signs forms =>
    rw [rule'] at rule
    cases rule
    have longer := @ExprForm.chain _ _ _ ts e (links ++ [⟨k, sign, ts', right⟩]) rule' form
      (List.forall_mem_append.2 ⟨signs, List.forall_mem_singleton.2 ⟨member, signed⟩⟩)
      (List.forall_mem_append.2 ⟨forms, List.forall_mem_singleton.2 second⟩)
    simpa [Link.all] using longer

theorem chain?_of_logicalRank? {k : Kind} {rank : Rank} (rule : logicalRank? k = some rank) :
    ∃ kinds operand, rank.chain? = some (kinds, operand) ∧ k ∈ kinds ∧
      ∀ left t right, rank.node left t right = .logical left t right := by
  cases k <;> cases rule <;> exact ⟨_, _, rfl, by decide, fun _ _ _ => rfl⟩

theorem chain?_of_binaryRank? {k : Kind} {rank : Rank} (rule : binaryRank? k = some rank) :
    ∃ kinds operand, rank.chain? = some (kinds, operand) ∧ k ∈ kinds ∧
      ∀ left t right, rank.node left t right = .binary left t right := by
  cases k <;> cases rule <;> exact ⟨_, _, rfl, by decide, fun _ _ _ => rfl⟩

theorem constant?_literalLexeme {value : Literal} (plain : WellLiteral value) :
    constant? (literalLexeme value) = some value := by
  cases value with
  | null => rfl
  | bool b => cases b <;> rfl
  | number x =>
    simp only [literalLexeme, constant?, numberValue_numeral, Decimal.toFloat_ofUnsigned plain]
  | text s =>
    obtain ⟨inner, rfl, -⟩ := plain
    simp [literalLexeme, constant?, stringValue]

theorem terminal_of_nameLexeme {name : Token} {t : Placed} (written : t.lexeme = nameLexeme name) :
    t.lexeme.terminal = .name := by
  rw [written, nameLexeme]
  split <;> rfl

theorem unplaced_nameToken {name : Token} {t : Placed} (named : IsName name)
    (written : t.lexeme = nameLexeme name) :
    (nameToken t.lexeme.text t.line).unplaced = name.unplaced := by
  obtain ⟨cs, text, -⟩ := named.text
  obtain ⟨kind, text', line⟩ := name
  cases named.kind
  cases text
  rw [written]
  simp [nameLexeme, nameToken, Token.unplaced, Token.identifier]

theorem unplaced_operatorToken {operator : Token} (spelled : IsOperator operator) (line : Nat) :
    (operatorToken operator.kind line).unplaced = operator.unplaced := by
  rw [IsOperator] at spelled
  rw [Token.unplaced, Token.unplaced, operatorToken, spelled]

/-- The lexemes of an expression have a form with its tree, up to lines. -/
def Written (rank : Rank) (e : Expr) : Prop :=
  ∀ ts : List Placed, ts.map Placed.lexeme = exprLexemes e →
    ∃ e', ExprForm rank ts e' ∧ e'.mapTokens .unplaced .unplaced = e.mapTokens .unplaced .unplaced

theorem Written.loosen {rank rank' : Rank} {e : Expr} (h : Written rank e)
    (le : rank'.level ≤ rank.level) : Written rank' e := by
  intro ts lexemes
  obtain ⟨e', form, same⟩ := h ts lexemes
  exact ⟨e', form.loosen le, same⟩

theorem Written.whole {rank : Rank} {e : Expr} (h : Written rank e) : Written .assignment e :=
  h.loosen (Nat.zero_le _)

theorem exists_link {rank operand : Rank} {kinds : List Kind} {left right : Expr}
    {operator : Token} {ts : List Placed} (rule : rank.chain? = some (kinds, operand))
    (member : operator.kind ∈ kinds) (spelled : IsOperator operator)
    (first : Written rank left) (second : Written operand right)
    (lexemes : ts.map Placed.lexeme =
      exprLexemes left ++ signLexeme operator.kind :: exprLexemes right) :
    ∃ left' t right', ExprForm rank ts (rank.node left' t right') ∧
      left'.mapTokens .unplaced .unplaced = left.mapTokens .unplaced .unplaced ∧
      t.unplaced = operator.unplaced ∧
      right'.mapTokens .unplaced .unplaced = right.mapTokens .unplaced .unplaced := by
  obtain ⟨before, after, rfl, before_lexemes, rest⟩ := List.map_eq_append_iff.1 lexemes
  obtain ⟨sign, after, rfl, signed, after_lexemes⟩ := List.map_eq_cons_iff.1 rest
  obtain ⟨left', leftForm, leftSame⟩ := first before before_lexemes
  obtain ⟨right', rightForm, rightSame⟩ := second after after_lexemes
  have terminal : sign.lexeme.terminal = .operator operator.kind := by rw [signed, signLexeme]
  exact ⟨left', _, right', leftForm.link rule member terminal rightForm, leftSame,
    unplaced_operatorToken spelled sign.line, rightSame⟩

theorem written_expr {e : Expr} (well : WellExpr e) : Written (rankOf e) e := by
  induction well with
  | @literal value plain =>
    intro ts lexemes
    obtain ⟨t, rfl, written⟩ := List.map_eq_singleton_iff.1 lexemes
    refine ⟨.literal value, .constant ?_, rfl⟩
    rw [written]
    exact constant?_literalLexeme plain
  | @var name named =>
    intro ts lexemes
    obtain ⟨t, rfl, written⟩ := List.map_eq_singleton_iff.1 lexemes
    refine ⟨_, .var (terminal_of_nameLexeme written), ?_⟩
    rw [Expr.mapTokens, Expr.mapTokens, unplaced_nameToken named.name written]
  | @assign name value named _ ih =>
    intro ts lexemes
    obtain ⟨t, rest, rfl, written, rest_lexemes⟩ := List.map_eq_cons_iff.1 lexemes
    obtain ⟨equals, rest, rfl, sign, rest_lexemes⟩ := List.map_eq_cons_iff.1 rest_lexemes
    obtain ⟨value', form, same⟩ := ih.whole rest rest_lexemes
    have named' := terminal_of_nameLexeme written
    refine ⟨_, .assign named' (by rw [sign, Mark.lexeme]) form, ?_⟩
    rw [Expr.mapTokens, Expr.mapTokens, unplaced_nameToken named.name written, same]
  | @logical left right operator rank rule spelled _ loose _ tight ihLeft ihRight =>
    obtain ⟨kinds, operand, chain, member, node⟩ := chain?_of_logicalRank? rule
    obtain ⟨above, -, -⟩ := chain?_level chain
    intro ts lexemes
    obtain ⟨left', t, right', form, leftSame, tokenSame, rightSame⟩ := exists_link chain member
      spelled (ihLeft.loosen loose) (ihRight.loosen (above ▸ tight)) lexemes
    rw [node] at form
    refine ⟨.logical left' t right', ?_, ?_⟩
    · rw [rankOf, rule]
      exact form
    · rw [Expr.mapTokens, Expr.mapTokens, leftSame, tokenSame, rightSame]
  | @binary left right operator rank rule spelled _ loose _ tight ihLeft ihRight =>
    obtain ⟨kinds, operand, chain, member, node⟩ := chain?_of_binaryRank? rule
    obtain ⟨above, -, -⟩ := chain?_level chain
    intro ts lexemes
    obtain ⟨left', t, right', form, leftSame, tokenSame, rightSame⟩ := exists_link chain member
      spelled (ihLeft.loosen loose) (ihRight.loosen (above ▸ tight)) lexemes
    rw [node] at form
    refine ⟨.binary left' t right', ?_, ?_⟩
    · rw [rankOf, rule]
      exact form
    · rw [Expr.mapTokens, Expr.mapTokens, leftSame, tokenSame, rightSame]
  | @unary operator operand either spelled _ tight ih =>
    intro ts lexemes
    obtain ⟨sign, rest, rfl, signed, rest_lexemes⟩ := List.map_eq_cons_iff.1 lexemes
    obtain ⟨operand', form, same⟩ := ih.loosen tight rest rest_lexemes
    have terminal : sign.lexeme.terminal = .operator operator.kind := by rw [signed, signLexeme]
    refine ⟨_, .unary either terminal form, ?_⟩
    rw [Expr.mapTokens, Expr.mapTokens, unplaced_operatorToken spelled, same]
  | grouping _ ih =>
    intro ts lexemes
    obtain ⟨inside, last, rfl, inside_lexemes, last_lexeme⟩ := List.map_eq_append_iff.1 lexemes
    obtain ⟨first, inside, rfl, opens, inside_lexemes⟩ := List.map_eq_cons_iff.1 inside_lexemes
    obtain ⟨last, rfl, closes⟩ := List.map_eq_singleton_iff.1 last_lexeme
    obtain ⟨e', form, same⟩ := ih.whole inside inside_lexemes
    refine ⟨.grouping e', .grouping (by rw [opens, Mark.lexeme]) form
      (by rw [closes, Mark.lexeme]), ?_⟩
    rw [Expr.mapTokens, Expr.mapTokens, same]

def WrittenStmt (category : Category) (s : Stmt) : Prop :=
  ∀ ts : List Placed, ts.map Placed.lexeme = stmtLexemes s →
    ∃ s', StmtForm category ts s' ∧ NearestElse s' ∧
      s'.mapTokens .unplaced .unplaced = s.mapTokens .unplaced .unplaced

theorem exists_condition {condition : Expr} {k : Keyword} {rest : List Lexeme} {ts : List Placed}
    (value : WellExpr condition)
    (lexemes : ts.map Placed.lexeme = k.lexeme :: Mark.openParen.lexeme ::
      exprLexemes condition ++ Mark.closeParen.lexeme :: rest) :
    ∃ word first inside last body condition', ts = word :: first :: inside ++ last :: body ∧
      word.lexeme.terminal = .keyword k ∧ first.lexeme.terminal = .mark .openParen ∧
      ExprForm .assignment inside condition' ∧ last.lexeme.terminal = .mark .closeParen ∧
      condition'.mapTokens .unplaced .unplaced = condition.mapTokens .unplaced .unplaced ∧
      body.map Placed.lexeme = rest := by
  obtain ⟨before, after, rfl, before_lexemes, after_lexemes⟩ := List.map_eq_append_iff.1 lexemes
  obtain ⟨word, before, rfl, opens, before_lexemes⟩ := List.map_eq_cons_iff.1 before_lexemes
  obtain ⟨first, inside, rfl, left, inside_lexemes⟩ := List.map_eq_cons_iff.1 before_lexemes
  obtain ⟨last, body, rfl, right, body_lexemes⟩ := List.map_eq_cons_iff.1 after_lexemes
  obtain ⟨condition', form, same⟩ := (written_expr value).whole inside inside_lexemes
  exact ⟨word, first, inside, last, body, condition', rfl, by rw [opens, Keyword.lexeme],
    by rw [left, Mark.lexeme], form, by rw [right, Mark.lexeme], same, body_lexemes⟩

theorem exists_parts {body : List Stmt} (each : ∀ s ∈ body, WrittenStmt .declaration s)
    {ts : List Placed} (lexemes : ts.map Placed.lexeme = stmtsLexemes body) :
    ∃ parts : List Part, ts = parts.flatMap Part.tokens ∧
      (∀ part ∈ parts, StmtForm .declaration part.tokens part.stmt) ∧
      (∀ s ∈ parts.map Part.stmt, NearestElse s) ∧
      Stmt.mapTokensAll .unplaced .unplaced (parts.map Part.stmt) =
        Stmt.mapTokensAll .unplaced .unplaced body := by
  induction body generalizing ts with
  | nil =>
    have none : ts = [] := List.map_eq_nil_iff.1 lexemes
    exact ⟨[], none, nofun, nofun, rfl⟩
  | cons s body ih =>
    rw [List.forall_mem_cons] at each
    rw [stmtsLexemes] at lexemes
    obtain ⟨before, after, rfl, before_lexemes, after_lexemes⟩ := List.map_eq_append_iff.1 lexemes
    obtain ⟨s', form, near, same⟩ := each.1 before before_lexemes
    obtain ⟨parts, rfl, forms, nears, sames⟩ := ih each.2 after_lexemes
    refine ⟨⟨before, s'⟩ :: parts, rfl, List.forall_mem_cons.2 ⟨form, forms⟩,
      List.forall_mem_cons.2 ⟨near, nears⟩, ?_⟩
    rw [List.map_cons, Stmt.mapTokensAll, Stmt.mapTokensAll, same, sames]

theorem written_stmt {category : Category} {s : Stmt} (well : WellStmt category s) :
    WrittenStmt category s := by
  induction well with
  | @declare name named =>
    intro ts lexemes
    rw [stmtLexemes] at lexemes
    obtain ⟨word, rest, rfl, opens, rest_lexemes⟩ := List.map_eq_cons_iff.1 lexemes
    obtain ⟨t, rest, rfl, written, rest_lexemes⟩ := List.map_eq_cons_iff.1 rest_lexemes
    obtain ⟨semicolon, rfl, closes⟩ := List.map_eq_singleton_iff.1 rest_lexemes
    refine ⟨_, .declare (by rw [opens, Keyword.lexeme]) (terminal_of_nameLexeme written)
      (by rw [closes, Mark.lexeme]), .declare _ _, ?_⟩
    rw [Stmt.mapTokens, Stmt.mapTokens, unplaced_nameToken named written]
  | @initial name e named value =>
    intro ts lexemes
    rw [stmtLexemes] at lexemes
    obtain ⟨before, last, rfl, before_lexemes, last_lexeme⟩ := List.map_eq_append_iff.1 lexemes
    obtain ⟨word, before, rfl, opens, before_lexemes⟩ := List.map_eq_cons_iff.1 before_lexemes
    obtain ⟨t, before, rfl, written, before_lexemes⟩ := List.map_eq_cons_iff.1 before_lexemes
    obtain ⟨equals, inside, rfl, sign, inside_lexemes⟩ := List.map_eq_cons_iff.1 before_lexemes
    obtain ⟨semicolon, rfl, closes⟩ := List.map_eq_singleton_iff.1 last_lexeme
    obtain ⟨e', form, same⟩ := (written_expr value).whole inside inside_lexemes
    refine ⟨_, .initial (by rw [opens, Keyword.lexeme]) (terminal_of_nameLexeme written)
      (by rw [sign, Mark.lexeme]) form (by rw [closes, Mark.lexeme]), .declare _ _, ?_⟩
    rw [Stmt.mapTokens, Stmt.mapTokens, unplaced_nameToken named written, Option.map_some,
      Option.map_some, same]
  | statement _ ih =>
    intro ts lexemes
    obtain ⟨s', form, near, same⟩ := ih ts lexemes
    exact ⟨s', .statement form, near, same⟩
  | print value =>
    intro ts lexemes
    rw [stmtLexemes] at lexemes
    obtain ⟨before, last, rfl, before_lexemes, last_lexeme⟩ := List.map_eq_append_iff.1 lexemes
    obtain ⟨word, inside, rfl, opens, inside_lexemes⟩ := List.map_eq_cons_iff.1 before_lexemes
    obtain ⟨semicolon, rfl, closes⟩ := List.map_eq_singleton_iff.1 last_lexeme
    obtain ⟨e', form, same⟩ := (written_expr value).whole inside inside_lexemes
    refine ⟨.print e', .print (by rw [opens, Keyword.lexeme]) form (by rw [closes, Mark.lexeme]),
      .print _, ?_⟩
    rw [Stmt.mapTokens, Stmt.mapTokens, same]
  | expression value =>
    intro ts lexemes
    rw [stmtLexemes] at lexemes
    obtain ⟨inside, last, rfl, inside_lexemes, last_lexeme⟩ := List.map_eq_append_iff.1 lexemes
    obtain ⟨semicolon, rfl, closes⟩ := List.map_eq_singleton_iff.1 last_lexeme
    obtain ⟨e', form, same⟩ := (written_expr value).whole inside inside_lexemes
    refine ⟨.expression e', .expression form (by rw [closes, Mark.lexeme]), .expression _, ?_⟩
    rw [Stmt.mapTokens, Stmt.mapTokens, same]
  | block _ ih =>
    intro ts lexemes
    rw [stmtLexemes] at lexemes
    obtain ⟨before, last, rfl, before_lexemes, last_lexeme⟩ := List.map_eq_append_iff.1 lexemes
    obtain ⟨first, inside, rfl, opens, inside_lexemes⟩ := List.map_eq_cons_iff.1 before_lexemes
    obtain ⟨last, rfl, closes⟩ := List.map_eq_singleton_iff.1 last_lexeme
    obtain ⟨parts, rfl, forms, near, same⟩ := exists_parts ih inside_lexemes
    refine ⟨_, .block (by rw [opens, Mark.lexeme]) forms (by rw [closes, Mark.lexeme]),
      .block near, ?_⟩
    rw [Stmt.mapTokens, Stmt.mapTokens, same]
  | ifThen value _ ih =>
    intro ts lexemes
    rw [stmtLexemes] at lexemes
    obtain ⟨word, first, inside, last, body, condition', rfl, opens, left, form, right, same,
      body_lexemes⟩ := exists_condition value lexemes
    obtain ⟨yes', innerForm, near, innerSame⟩ := ih body body_lexemes
    refine ⟨_, .ifThen opens left form right innerForm, .ifThen _ near, ?_⟩
    rw [Stmt.mapTokens, Stmt.mapTokens, same, innerSame]
  | @ifThenElse condition yes no value _ closed _ ihYes ihNo =>
    intro ts lexemes
    rw [stmtLexemes] at lexemes
    obtain ⟨before, after, rfl, before_lexemes, after_lexemes⟩ := List.map_eq_append_iff.1 lexemes
    obtain ⟨word, first, inside, last, body, condition', rfl, opens, left, form, right, same,
      body_lexemes⟩ := exists_condition value before_lexemes
    obtain ⟨middle, other, rfl, otherwise, other_lexemes⟩ := List.map_eq_cons_iff.1 after_lexemes
    obtain ⟨yes', innerForm, near, innerSame⟩ := ihYes body body_lexemes
    obtain ⟨no', outerForm, outerNear, outerSame⟩ := ihNo other other_lexemes
    have closed' : opensBranch yes' = false := by
      rw [← opensBranch_mapTokens .unplaced .unplaced, innerSame, opensBranch_mapTokens, closed]
    refine ⟨_, .ifThenElse opens left form right innerForm (by rw [otherwise, Keyword.lexeme])
      outerForm, .ifThenElse _ closed' near outerNear, ?_⟩
    rw [Stmt.mapTokens, Stmt.mapTokens, same, innerSame, outerSame]
  | loop value _ ih =>
    intro ts lexemes
    rw [stmtLexemes] at lexemes
    obtain ⟨word, first, inside, last, rest, condition', rfl, opens, left, form, right, same,
      rest_lexemes⟩ := exists_condition value lexemes
    obtain ⟨body', innerForm, near, innerSame⟩ := ih rest rest_lexemes
    refine ⟨_, .loop opens left form right innerForm, .loop _ near, ?_⟩
    rw [Stmt.mapTokens, Stmt.mapTokens, same, innerSame]

theorem map_lexeme_placed (line : Nat) (lexemes : List Lexeme) :
    (placed line lexemes).map Placed.lexeme = lexemes := by
  induction lexemes generalizing line with
  | nil => rfl
  | cons l lexemes ih => rw [placed, List.map_cons, ih]

/-- The text of a well-formed program is read as the program, up to lines. -/
theorem parse_sourceOf {p : Program} (well : WellFormed p) (free : AvoidsReserved p.tokens) :
    ∃ p', parse (sourceOf p) = .ok p' ∧ p'.unplaced = p.unplaced := by
  have spelled : Spelled (stmtsLexemes p.statements) :=
    spelled_stmts (fun s member => spelled_stmt (well s member)) free
  obtain ⟨parts, tokens, forms, near, same⟩ :=
    exists_parts (fun s member => written_stmt (well s member))
      (map_lexeme_placed 1 (stmtsLexemes p.statements))
  have reading : Tokens 1 (sourceOf p).toList (parts.flatMap Part.tokens) := by
    rw [sourceOf, String.toList_ofList, ← tokens]
    exact tokens_spaced spelled 1
  refine ⟨⟨parts.map Part.stmt⟩, parse_of_nearest reading ⟨parts, forms, rfl, rfl⟩ near, ?_⟩
  rw [Program.unplaced, Program.unplaced, Program.mapTokens, Program.mapTokens, same]

/-- The trees of texts. What the parser gives is well formed, and a well-formed program whose names
avoid the reserved words is given by the parser, up to lines, for the text that writes it. -/
theorem trees_of_texts :
    (∀ (source : String) (p : Program), parse source = .ok p → WellFormed p) ∧
    ∀ p : Program, WellFormed p → AvoidsReserved p.tokens →
      ∃ p', parse (sourceOf p) = .ok p' ∧ p'.unplaced = p.unplaced :=
  ⟨fun _ _ h => wellFormed_of_parse h, fun _ well free => parse_sourceOf well free⟩

/-- A declaration, a branch with a loop in its first part and a block in its second, and a chain. -/
def sampleTree : Program :=
  let order : Token := nameToken ['o', 'r', 'd', 'e', 'r'] 7
  let x : Token := nameToken ['_', 'x'] 7
  let half : Expr := .literal (.number (Decimal.mk 5 (-1)).toFloat)
  ⟨[.declare order (some (.binary (.binary half (operatorToken .subtract 7) half)
      (operatorToken .subtract 7) (.unary (operatorToken .subtract 7) half))),
    .ifThenElse (.logical (.var order) (operatorToken .or 7) (.literal (.bool true)))
      (.loop (.var x) (.expression (.assign x (.literal (.text "a\nb")))))
      (.block [.ifThen (.grouping (.assign x (.var order))) (.print (.literal .null))])]⟩

theorem trees_of_texts_sample : ∃ p, parse (sourceOf sampleTree) = .ok p ∧ WellFormed p ∧
    p.unplaced = sampleTree.unplaced := by
  have order := isVariable_nameToken
    ⟨'o', ['r', 'd', 'e', 'r'], rfl, rfl, List.all_eq_true.1 (by decide)⟩ (by decide) 7
  have x := isVariable_nameToken ⟨'_', ['x'], rfl, rfl, List.all_eq_true.1 (by decide)⟩
    (by decide) 7
  have half : WellExpr (.literal (.number (Decimal.mk 5 (-1)).toFloat)) :=
    .literal (Decimal.unsigned_toFloat _)
  have minus : WellExpr (.unary (operatorToken .subtract 7) _) :=
    .unary (.inr rfl) rfl half (by decide)
  have well : WellFormed sampleTree := by
    rw [WellFormed, sampleTree, List.forall_mem_cons, List.forall_mem_singleton]
    constructor
    · refine .initial order.name (.binary rfl rfl (.binary rfl rfl half ?_ half ?_) ?_ minus ?_)
      all_goals decide
    · refine .statement (.ifThenElse (.logical rfl rfl (.var order) ?_ (.literal trivial) ?_)
        (.loop (.var x) (.expression (.assign x (.literal ?_)))) rfl (.block ?_))
      · decide
      · decide
      · exact ⟨"a\nb", rfl, by decide⟩
      · rw [List.forall_mem_singleton]
        exact .statement (.ifThen (.grouping (.assign x (.var order))) (.print (.literal trivial)))
  have free : AvoidsReserved sampleTree.tokens := by
    have named {cs : List Char} (other : String.ofList cs ∉ reserved) :
        ∀ s ∈ reserved, (nameToken cs 7).text ≠ .text s := by
      intro s member same
      rw [← Text.ofString_inj.1 (Json.text.inj same)] at member
      exact other member
    have each : ∀ t ∈ sampleTree.tokens, t = nameToken ['o', 'r', 'd', 'e', 'r'] 7 ∨
        t = nameToken ['_', 'x'] 7 ∨ t.kind ≠ .identifier := by
      simp [sampleTree, Program.tokens, Stmt.tokensAll, Stmt.tokens, Expr.tokens, operatorToken]
    intro t member kind
    rcases each t member with rfl | rfl | other
    · exact named (by decide)
    · exact named (by decide)
    · exact absurd kind other
  obtain ⟨p, read, same⟩ := trees_of_texts.2 sampleTree well free
  exact ⟨p, read, trees_of_texts.1 _ p read, same⟩

end Source

end TreeWalk
