import TreeWalk.Proofs.Source.Places
import TreeWalk.Proofs.Source.Tokens
import TreeWalk.Report

/-!
Lines are accurate. The tokens of a program, in the order of its tree, stand one behind the other in
its text, each with its own characters and on its own line. A text that is no program is refused on
the line of what cannot follow there, or on that of its last lexeme where it ends too early.
-/

set_option autoImplicit false

namespace TreeWalk

section

variable (f : Token → Token)

theorem Expr.tokens_mapTokens (e : Expr) : (e.mapTokens f f).tokens = e.tokens.map f := by
  induction e with
  | literal value => rfl
  | var name => rfl
  | assign name value ih => simp [Expr.mapTokens, Expr.tokens, ih]
  | logical left operator right ihLeft ihRight | binary left operator right ihLeft ihRight =>
    simp [Expr.mapTokens, Expr.tokens, ihLeft, ihRight]
  | unary operator operand ih => simp [Expr.mapTokens, Expr.tokens, ih]
  | grouping inner ih => simp [Expr.mapTokens, Expr.tokens, ih]

mutual

theorem Stmt.tokens_mapTokens : ∀ s : Stmt, (s.mapTokens f f).tokens = s.tokens.map f
  | .print value | .expression value => by
    simp [Stmt.mapTokens, Stmt.tokens, value.tokens_mapTokens f]
  | .declare name none => by simp [Stmt.mapTokens, Stmt.tokens]
  | .declare name (some initial) => by
    simp [Stmt.mapTokens, Stmt.tokens, initial.tokens_mapTokens f]
  | .block body => by simp [Stmt.mapTokens, Stmt.tokens, Stmt.tokensAll_mapTokensAll body]
  | .ifThen condition yes => by
    simp [Stmt.mapTokens, Stmt.tokens, condition.tokens_mapTokens f, yes.tokens_mapTokens]
  | .ifThenElse condition yes no => by
    simp [Stmt.mapTokens, Stmt.tokens, condition.tokens_mapTokens f, yes.tokens_mapTokens,
      no.tokens_mapTokens]
  | .loop condition body => by
    simp [Stmt.mapTokens, Stmt.tokens, condition.tokens_mapTokens f, body.tokens_mapTokens]

theorem Stmt.tokensAll_mapTokensAll :
    ∀ body : List Stmt, Stmt.tokensAll (Stmt.mapTokensAll f f body) = (Stmt.tokensAll body).map f
  | [] => rfl
  | s :: rest => by
    simp [Stmt.mapTokensAll, Stmt.tokensAll, s.tokens_mapTokens,
      Stmt.tokensAll_mapTokensAll rest]

end

end

theorem Program.tokens_lined (lineOf : Nat → Nat) (p : Program) :
    (p.lined lineOf).tokens = p.tokens.map (.lined lineOf) :=
  Stmt.tokensAll_mapTokensAll (.lined lineOf) p.statements

namespace Source

theorem text_of_operator {accepts : Terminal → Bool} {cs : List Char} {lexeme : Lexeme} {k : Kind}
    (found : lexeme? accepts cs = some lexeme) (operator : lexeme.terminal = .operator k) :
    lexeme.text = k.symbol.toList := by
  have listed {text : List Char} (entry : (text, Terminal.operator k) ∈ words ∨
      (text, Terminal.operator k) ∈ signs) : text = k.symbol.toList := by
    have spells : Spells (.operator k) text :=
      entry.elim (spells_of_mem_words _) (spells_of_mem_signs _)
    cases spells
    rfl
  cases lexed_of_lexeme? found with
  | number => cases operator
  | string => cases operator
  | keyword member =>
    cases operator
    exact listed (.inl member)
  | sign member =>
    cases operator
    exact listed (.inr member)
  | word =>
    unfold wordTerminal at operator
    dsimp only at operator ⊢
    split at operator
    · next entry first =>
      have same := List.find?_some first
      rw [decide_eq_true_eq] at same
      split at operator
      · have member := List.mem_of_find?_eq_some first
        obtain ⟨text, terminal⟩ := entry
        cases operator
        rw [← same]
        exact listed (.inl member)
      · cases operator
    · cases operator

def Located.token? (l : Located) : Option Token := l.lexeme.token? l.place

/-- The token of a lexeme has its characters, and its place for a line. -/
theorem token_of_lexeme? {accepts : Terminal → Bool} {cs : List Char} {lexeme : Lexeme}
    {line : Nat} {t : Token} (found : lexeme? accepts cs = some lexeme)
    (made : lexeme.token? line = some t) :
    t.text = .text (String.ofList lexeme.text) ∧ t.line = line := by
  unfold Lexeme.token? at made
  split at made
  · cases made
    exact ⟨rfl, rfl⟩
  · next k operator =>
    cases made
    rw [text_of_operator found operator, String.ofList_toList]
    exact ⟨rfl, rfl⟩
  · cases made

namespace Locating

variable {state final : State} {place : Nat} {cs : List Char} {lexemes : List Located}

theorem found (locating : Locating state place cs lexemes final) :
    ∀ l ∈ lexemes, ∃ accepts cs, lexeme? accepts cs = some l.lexeme := by
  induction locating with
  | done => exact nofun
  | step _ found _ _ ih => exact List.forall_mem_cons.2 ⟨⟨_, _, found⟩, ih⟩

/-- The tokens that the parser keeps at the end are those of the lexemes, in their order. -/
theorem tokens (locating : Locating state place cs lexemes final) :
    final.tokens = state.tokens ++ lexemes.filterMap Located.token? := by
  induction locating with
  | done => simp
  | @step _ _ _ place front text _ t lexemes _ _ stepped _ ih =>
    have head : (Located.mk ⟨t, text⟩ (place + front.length) :: lexemes).filterMap
        Located.token? = (Lexeme.token? ⟨t, text⟩ (place + front.length)).toList ++
          lexemes.filterMap Located.token? := by
      rw [List.filterMap_cons, Located.token?]
      cases Lexeme.token? ⟨t, text⟩ (place + front.length) <;> rfl
    rw [ih, (move_of_step stepped).tokens, head, List.append_assoc]

theorem apart (locating : Locating state place cs lexemes final) :
    lexemes.Pairwise fun a b => a.place + a.lexeme.text.length ≤ b.place := by
  induction locating with
  | done => exact .nil
  | step _ _ _ tail ih =>
    refine .cons ?_ ih
    intro l member
    obtain ⟨n, at_place, -⟩ := tail.lexeme_at l member
    dsimp only
    omega

end Locating

/-- The token is a text that is not empty, begins at a place of the text, and has the line of that
place. -/
structure StandsAt (cs : List Char) (t : Token) (place : Nat) : Prop where
  text : t.text = .text t.display
  nonempty : t.display ≠ []
  here : t.display <+: Text.ofChars (cs.drop place)
  line : t.line = lineAt cs place

theorem standsAt_of_token? {accepts : Terminal → Bool} {cs rest : List Char} {l : Located}
    {t : Token} (found : lexeme? accepts rest = some l.lexeme)
    (here : l.lexeme.text <+: cs.drop l.place) (made : l.token? = some t) :
    StandsAt cs (t.lined (lineAt cs)) l.place ∧
      (t.lined (lineAt cs)).display.length = l.lexeme.text.length := by
  obtain ⟨text, line⟩ := token_of_lexeme? found made
  rw [Text.ofString, String.toList_ofList] at text
  have shown : (t.lined (lineAt cs)).display = Text.ofChars l.lexeme.text := by
    rw [Token.display, Token.lined, text]
    rfl
  refine ⟨⟨?_, ?_, ?_, ?_⟩, ?_⟩
  · rw [shown]
    exact text
  · rw [shown]
    intro empty
    exact lexeme?_text_ne_nil found (List.map_eq_nil_iff.1 empty)
  · rw [shown]
    exact here.map CodePoint.char
  · rw [Token.lined, line, Int.toNat_natCast]
  · rw [shown]
    exact List.length_map _

/-- The tokens of a program stand one behind the other in its text. -/
theorem exists_places {source : String} {p : Program} (parsed : parse source = .ok p) :
    ∃ placed : List (Token × Nat), placed.map Prod.fst = p.tokens ∧
      (∀ entry ∈ placed, StandsAt source.toList entry.1 entry.2) ∧
      placed.Pairwise fun a b => a.2 + a.1.display.length ≤ b.2 := by
  obtain ⟨⟨lexemes, tree⟩, located, rfl⟩ := exists_placement parsed
  obtain ⟨final, locating, complete⟩ := locate?_eq_some located
  have tokens : tree.tokens = lexemes.filterMap Located.token? := by
    rw [tokens_of_program? complete, locating.tokens]
    rfl
  have stands : ∀ l ∈ lexemes, ∀ t, l.token? = some t →
      StandsAt source.toList (t.lined (lineAt source.toList)) l.place ∧
        (t.lined (lineAt source.toList)).display.length = l.lexeme.text.length := by
    intro l member t made
    obtain ⟨accepts, rest, found⟩ := locating.found l member
    exact standsAt_of_token? found ((placement_of_locate? located).lexemes l member) made
  refine ⟨lexemes.filterMap fun l => l.token?.map fun t =>
    (t.lined (lineAt source.toList), l.place), ?_, ?_, ?_⟩
  · rw [Program.tokens_lined, tokens, List.map_filterMap, List.map_filterMap]
    simp only [Option.map_map, Function.comp_def]
  · intro entry member
    obtain ⟨l, inside, made⟩ := List.mem_filterMap.1 member
    obtain ⟨t, token, rfl⟩ := Option.map_eq_some_iff.1 made
    exact (stands l inside t token).1
  · rw [List.pairwise_filterMap]
    apply locating.apart.imp_of_mem
    intro a b first _ le entry made entry' made'
    obtain ⟨t, token, rfl⟩ := Option.map_eq_some_iff.1 made
    obtain ⟨t', -, rfl⟩ := Option.map_eq_some_iff.1 made'
    dsimp only
    rw [(stands a first t token).2]
    exact le

theorem parseFrom_take {state next : State} {last line here : Nat} {cs text rest : List Char}
    {t : Terminal} (skipped : skip false line cs = (here, text ++ rest))
    (found : lexeme? state.slot.accepts (text ++ rest) = some ⟨t, text⟩)
    (stepped : step state ⟨t, text⟩ here = some next) :
    parseFrom state last line cs = parseFrom next here (here + Text.newlines text) rest := by
  obtain ⟨c, more, whole, behind⟩ := exists_cons_of_lexeme? found
  rw [whole] at skipped found
  rw [parseFrom_step skipped found stepped, behind]

/-- A text that ends too early is refused on the line of its last lexeme, or on that of the lexeme
before it if it has none. -/
theorem Locating.line_of_end {lineOf : Nat → Nat} {state final : State} {place line last n : Nat}
    {cs : List Char} {lexemes : List Located} (locating : Locating state place cs lexemes final)
    (lines : LinesOf lineOf place line cs)
    (ended : parseFrom (state.lined lineOf) last line cs = .error (.unexpectedEnd n)) :
    n = lexemes.getLast?.elim last fun l => lineOf l.place := by
  induction locating generalizing line last with
  | done skipped =>
    rw [parseFrom] at ended
    split at ended
    · split at ended
      · cases ended
      · cases ended
        rfl
    · next same =>
      rw [skipped] at same
      cases same
  | @step state next final place front text rest t lexemes skipped found stepped tail ih =>
    have here := lines front _ rfl
    have skips : skip false line (front ++ (text ++ rest)) =
        (lineOf (place + front.length), text ++ rest) := by rw [skipped, here]
    have takes : lexeme? (state.lined lineOf).slot.accepts (text ++ rest) = some ⟨t, text⟩ := by
      rwa [slot_lined]
    have moves : Source.step (state.lined lineOf) ⟨t, text⟩ (lineOf (place + front.length)) =
        some (next.lined lineOf) := by
      rw [step_lined, stepped]
      rfl
    rw [parseFrom_take skips takes moves] at ended
    have later := ih (by rw [here]; exact lines.behind.behind) ended
    rw [later, List.getLast?_cons]
    cases lexemes.getLast? <;> rfl

/-- A text that is no program is refused behind some lexemes, on the line of what stands there, or
on the line of the last of them if nothing does. -/
theorem exists_refusal {source : String} {e : SyntaxError} (rejected : parse source = .error e) :
    ∃ before rest lexemes mid, source.toList = before ++ rest ∧
      Refusal (.declaration ⟨[], []⟩) 1 1 source.toList rest e ∧
      locateFrom (.declaration ⟨[], []⟩) 0 before = some (lexemes, mid) ∧
      e.StandsAt (lineAt source.toList before.length) rest ∧
      e.line = if rest = [] then lexemes.getLast?.elim 1 fun l => lineAt source.toList l.place
        else lineAt source.toList before.length := by
  obtain ⟨rest, refusal⟩ := refusal_of_parseFrom rejected
  obtain ⟨before, mid, split, reading, stands⟩ := refusal.reading
  have lines := linesOf_lineAt source.toList
  have here := lines before rest split
  rw [Nat.zero_add] at here
  rw [← here] at stands
  have front : LinesOf (lineAt source.toList) 0 1 before := by
    rintro first second rfl
    exact lines first (second ++ rest) (by rw [split, List.append_assoc])
  obtain ⟨lexemes, mid', located, -⟩ :=
    @exists_locateFrom _ (.declaration ⟨[], []⟩) _ _ _ _ front reading
  refine ⟨before, rest, lexemes, mid', split, refusal, located, stands, ?_⟩
  cases e with
  | unexpectedEnd n =>
    obtain rfl : rest = [] := stands
    rw [List.append_nil] at split
    rw [← split] at located
    rw [if_pos rfl]
    exact (locating_of_locateFrom located).line_of_end lines rejected
  | unexpectedToken text n =>
    obtain ⟨nonempty, head, line⟩ := stands
    have more : rest ≠ [] := by
      rintro rfl
      exact nonempty (String.toList_eq_nil_iff.1 (List.prefix_nil.1 head))
    rw [if_neg more]
    exact line
  | unexpectedCharacter c n =>
    obtain ⟨head, line⟩ := stands
    have more : rest ≠ [] := by
      rintro rfl
      cases head
    rw [if_neg more]
    exact line

/-- The tokens of a program, from left to right, stand in its text at places that follow each other
and do not overlap, each with its text and on its line. The error of a text that is no program
always has a line: that of the lexeme or the character where the parser cannot go on, and at the end
of the text that of the last lexeme, or the first line if there is none. -/
theorem lines_are_accurate (source : String) :
    (∀ p, parse source = .ok p → ∃ placed : List (Token × Nat), placed.map Prod.fst = p.tokens ∧
      (∀ entry ∈ placed, StandsAt source.toList entry.1 entry.2) ∧
      placed.Pairwise fun a b => a.2 + a.1.display.length ≤ b.2) ∧
    ∀ e, parse source = .error e → ∃ before rest lexemes mid,
      source.toList = before ++ rest ∧
      Refusal (.declaration ⟨[], []⟩) 1 1 source.toList rest e ∧
      locateFrom (.declaration ⟨[], []⟩) 0 before = some (lexemes, mid) ∧
      e.StandsAt (lineAt source.toList before.length) rest ∧
      (Report.ofSyntax e).line = some (if rest = [] then
          (lexemes.getLast?.elim 1 fun l => lineAt source.toList l.place : Nat)
        else (lineAt source.toList before.length : Nat)) := by
  refine ⟨fun p parsed => exists_places parsed, ?_⟩
  intro e rejected
  obtain ⟨before, rest, lexemes, mid, split, refusal, located, stands, line⟩ :=
    exists_refusal rejected
  refine ⟨before, rest, lexemes, mid, split, refusal, located, stands, ?_⟩
  rw [Report.ofSyntax, line]
  split <;> rfl

/-- A program over three lines, with a name that starts as an operator does; and a text that ends in
a comment behind an operator. -/
theorem lines_are_accurate_sample :
    let p : Program := ⟨[.declare (.identifier "orx" 1) (some (.literal (.bool true))),
      .print (.logical (.var (.identifier "orx" 2)) (operatorToken .and 2)
        (.unary (operatorToken .not 3) (.var (.identifier "orx" 3))))]⟩
    parse "var orx = true;\nprint orx and\n!orx;" = .ok p ∧
    (∃ placed : List (Token × Nat), placed.map Prod.fst = p.tokens ∧
      (∀ entry ∈ placed, StandsAt "var orx = true;\nprint orx and\n!orx;".toList entry.1 entry.2) ∧
      placed.Pairwise fun a b => a.2 + a.1.display.length ≤ b.2) ∧
    parse "print\nx +\n// y;" = .error (.unexpectedEnd 2) ∧
    ∃ before rest lexemes mid, "print\nx +\n// y;".toList = before ++ rest ∧
      locateFrom (.declaration ⟨[], []⟩) 0 before = some (lexemes, mid) ∧
      (SyntaxError.unexpectedEnd 2).StandsAt
        (lineAt "print\nx +\n// y;".toList before.length) rest := by
  intro p
  have parsed : parse "var orx = true;\nprint orx and\n!orx;" = .ok p := by cbv
  have rejected : parse "print\nx +\n// y;" = .error (.unexpectedEnd 2) := by cbv
  obtain ⟨before, rest, lexemes, mid, split, -, located, stands, -⟩ :=
    (lines_are_accurate "print\nx +\n// y;").2 _ rejected
  exact ⟨parsed, (lines_are_accurate _).1 p parsed, rejected, before, rest, lexemes, mid, split,
    located, stands⟩

end Source

end TreeWalk
