import TreeWalk.Proofs.Source.Moves
import TreeWalk.Proofs.Tree.Codec

/-!
The order of tokens. A state of the parser keeps the tokens of the text so far, and read from the
oldest part to the newest one they are in the order of the text. A lexeme that is a name or an
operator adds one token at the end; the others add none, and completing a part of the tree moves no
token past another one.
-/

set_option autoImplicit false

namespace TreeWalk.Source

def Lexeme.token? (lexeme : Lexeme) (line : Nat) : Option Token :=
  match lexeme.terminal with
  | .name => some (nameToken lexeme.text line)
  | .operator k => some (operatorToken k line)
  | _ => none

def Pending.tokens : Pending → List Token
  | .operator left sign => left.tokens ++ [sign]
  | .unary sign => [sign]
  | .assign name => [name]
  | .group => []

def Goal.tokens : Goal → List Token
  | .initial name => [name]
  | .print | .expression | .branch | .loop => []

def Frame.tokens : Frame → List Token
  | .block done => done.reverse.flatMap Stmt.tokens
  | .yes condition => condition.tokens
  | .no condition first => condition.tokens ++ first.tokens
  | .body condition => condition.tokens

/-- The tokens of what waits for operands, from left to right. -/
def pendingTokens (pending : List Pending) : List Token := pending.reverse.flatMap Pending.tokens

def Outer.tokens (o : Outer) : List Token :=
  o.done.reverse.flatMap Stmt.tokens ++ o.frames.reverse.flatMap Frame.tokens

/-- The tokens that a state of the parser keeps, in the order of the text. -/
def State.tokens : State → List Token
  | .declaration outer | .statement outer | .declaredName outer => outer.tokens
  | .afterStatement outer s => outer.tokens ++ s.tokens
  | .afterDeclaredName outer name => outer.tokens ++ [name]
  | .condition outer goal => outer.tokens ++ goal.tokens
  | .operand outer goal pending => outer.tokens ++ goal.tokens ++ pendingTokens pending
  | .afterOperand outer goal pending e =>
    outer.tokens ++ goal.tokens ++ pendingTokens pending ++ e.tokens

theorem tokensAll_eq_flatMap (body : List Stmt) :
    Stmt.tokensAll body = body.flatMap Stmt.tokens := by
  induction body with
  | nil => rfl
  | cons s rest ih => rw [Stmt.tokensAll, ih, List.flatMap_cons]

@[simp] theorem pendingTokens_nil : pendingTokens [] = [] := rfl

@[simp] theorem pendingTokens_cons (q : Pending) (pending : List Pending) :
    pendingTokens (q :: pending) = pendingTokens pending ++ q.tokens := by
  simp [pendingTokens]

@[simp] theorem tokens_combine (left : Expr) (operator : Token) (right : Expr) :
    (combine left operator right).tokens = left.tokens ++ operator :: right.tokens := by
  unfold combine
  split
  · rfl
  · rfl

theorem tokens_reduce (level : Nat) (e : Expr) (pending : List Pending) :
    pendingTokens (reduce level e pending).2 ++ (reduce level e pending).1.tokens =
      pendingTokens pending ++ e.tokens := by
  fun_induction reduce level e pending with
  | case1 e operator pending ih => simp [ih, Pending.tokens, Expr.tokens]
  | case2 e left operator pending binds ih =>
    simp [ih, Pending.tokens]
  | case3 => rfl
  | case4 => rfl

theorem tokens_collapse (e : Expr) (pending : List Pending) :
    pendingTokens (collapse e pending).2 ++ (collapse e pending).1.tokens =
      pendingTokens pending ++ e.tokens := by
  fun_induction collapse e pending with
  | case1 e operator pending ih => simp [ih, Pending.tokens, Expr.tokens]
  | case2 e left operator pending ih =>
    simp [ih, Pending.tokens]
  | case3 e name pending ih => simp [ih, Pending.tokens, Expr.tokens]
  | case4 => rfl
  | case5 => rfl

theorem tokens_of_collapsed {e whole : Expr} {pending rest : List Pending}
    (collapsed : collapse e pending = (whole, rest)) :
    pendingTokens rest ++ whole.tokens = pendingTokens pending ++ e.tokens := by
  have order := tokens_collapse e pending
  rw [collapsed] at order
  exact order

theorem tokens_complete (s : Stmt) (frames : List Frame) (done : List Stmt) :
    (Outer.complete s frames done).tokens = (Outer.mk frames done).tokens ++ s.tokens := by
  fun_induction Outer.complete s frames done with
  | case1 s done => simp [Outer.tokens]
  | case2 s inner frames done => simp [Outer.tokens, Frame.tokens]
  | case3 s condition frames done ih =>
    rw [ih]
    simp [Outer.tokens, Frame.tokens, Stmt.tokens]
  | case4 s condition yes frames done ih =>
    rw [ih]
    simp [Outer.tokens, Frame.tokens, Stmt.tokens]
  | case5 s condition frames done ih =>
    rw [ih]
    simp [Outer.tokens, Frame.tokens, Stmt.tokens]

@[simp] theorem tokens_add (o : Outer) (s : Stmt) : (o.add s).tokens = o.tokens ++ s.tokens :=
  tokens_complete s o.frames o.done

@[simp] theorem tokens_push (o : Outer) (frame : Frame) :
    (o.push frame).tokens = o.tokens ++ frame.tokens := by
  simp [Outer.push, Outer.tokens]

theorem tokens_attach? {s : Stmt} {frames after : List Frame}
    (attached : Outer.attach? s frames = some after) :
    after.reverse.flatMap Frame.tokens = frames.reverse.flatMap Frame.tokens ++ s.tokens := by
  fun_induction Outer.attach? s frames with
  | case1 s condition frames =>
    cases attached
    simp [Frame.tokens]
  | case2 s condition yes frames ih => simp [ih attached, Frame.tokens, Stmt.tokens]
  | case3 s condition frames ih => simp [ih attached, Frame.tokens, Stmt.tokens]
  | case4 => cases attached

theorem eq_var_of_assignable? {pending : List Pending} {e : Expr} {name : Token}
    (assignable : assignable? pending e = some name) : e = .var name := by
  unfold assignable? at assignable
  split at assignable
  · split at assignable
    · cases assignable
      rfl
    · cases assignable
  · cases assignable

theorem token?_of_constant? {lexeme : Lexeme} {value : Literal}
    (constant : constant? lexeme = some value) (line : Nat) : lexeme.token? line = none := by
  unfold constant? at constant
  unfold Lexeme.token?
  split at constant
  all_goals simp_all

/-- A move adds the token of its lexeme behind the others. -/
theorem Move.tokens {lexeme : Lexeme} {line : Nat} {state next : State}
    (move : Move lexeme line state next) :
    next.tokens = state.tokens ++ (lexeme.token? line).toList := by
  induction move with
  | constant outer goal pending h =>
    simp [State.tokens, token?_of_constant? h, Expr.tokens]
  | name outer goal pending h => simp [State.tokens, Lexeme.token?, h, Expr.tokens]
  | openParen outer goal pending h =>
    simp [State.tokens, Lexeme.token?, h, Pending.tokens]
  | unary outer goal pending h sign =>
    simp [State.tokens, Lexeme.token?, h, Pending.tokens]
  | print outer h => simp [State.tokens, Lexeme.token?, h, Goal.tokens]
  | branch outer h => simp [State.tokens, Lexeme.token?, h, Goal.tokens]
  | loop outer h => simp [State.tokens, Lexeme.token?, h, Goal.tokens]
  | openBrace outer h => simp [State.tokens, Lexeme.token?, h, Frame.tokens]
  | expression move ih => simpa [State.tokens, Goal.tokens] using ih
  | declare outer h => simp [State.tokens, Lexeme.token?, h]
  | closeBrace inner frames done h =>
    simp [State.tokens, Lexeme.token?, h, Outer.tokens, Frame.tokens, Stmt.tokens,
      tokensAll_eq_flatMap]
  | statement move ih => exact ih
  | otherwise h attached =>
    simp [State.tokens, Lexeme.token?, h, Outer.tokens, tokens_attach? attached]
  | complete move ih => simpa [State.tokens] using ih
  | declaredName outer h => simp [State.tokens, Lexeme.token?, h]
  | initial outer name h => simp [State.tokens, Lexeme.token?, h, Goal.tokens]
  | noInitial outer name h => simp [State.tokens, Lexeme.token?, h, Stmt.tokens]
  | condition outer goal h => simp [State.tokens, Lexeme.token?, h]
  | assign h assignable =>
    simp [State.tokens, Lexeme.token?, h, Pending.tokens,
      eq_var_of_assignable? assignable, Expr.tokens]
  | @operator outer goal pending rest e left k level h binds reduced =>
    have order := tokens_reduce level e pending
    rw [reduced] at order
    simp [State.tokens, Lexeme.token?, h, Pending.tokens, ← order]
  | closeGroup h collapsed =>
    have order := tokens_of_collapsed collapsed
    simp [State.tokens, Lexeme.token?, h, Expr.tokens, ← order,
      Pending.tokens]
  | closeBranch h collapsed | closeLoop h collapsed =>
    have order := tokens_of_collapsed collapsed
    simp [State.tokens, Lexeme.token?, h, Frame.tokens, Goal.tokens, ← order]
  | endPrint h collapsed | endExpression h collapsed =>
    have order := tokens_of_collapsed collapsed
    simp [State.tokens, Lexeme.token?, h, Stmt.tokens, Goal.tokens, ← order]
  | endInitial h collapsed =>
    have order := tokens_of_collapsed collapsed
    simp [State.tokens, Lexeme.token?, h, Stmt.tokens, Goal.tokens, ← order]

theorem tokens_of_program? {state : State} {p : Program} (complete : state.program? = some p) :
    p.tokens = state.tokens := by
  have whole (done : List Stmt) :
      (Program.mk done.reverse).tokens = (Outer.mk [] done).tokens := by
    simp [Program.tokens, tokensAll_eq_flatMap, Outer.tokens]
  unfold State.program? at complete
  split at complete
  · cases complete
    exact whole _
  · split at complete
    · next done same =>
      cases complete
      rw [State.tokens, ← tokens_add, same]
      exact whole done
    · cases complete
  · cases complete

end TreeWalk.Source
