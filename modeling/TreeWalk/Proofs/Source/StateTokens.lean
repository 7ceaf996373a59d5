import TreeWalk.Proofs.Source.Lines
import TreeWalk.Proofs.Tree.MapTokens

/-!
States with other tokens. Of the tokens that it keeps the parser looks at the kinds of operators
alone. So it takes the same steps where these tokens are changed in any other way, and behind
complete statements as well.
-/

set_option autoImplicit false

namespace TreeWalk.Source

section

variable (before : List Stmt) (change : Token → Token)

def Pending.mapTokens : Pending → Pending
  | .operator left sign => .operator (left.mapTokens change change) (change sign)
  | .unary sign => .unary (change sign)
  | .assign name => .assign (change name)
  | .group => .group

def Goal.mapTokens : Goal → Goal
  | .initial name => .initial (change name)
  | .print => .print
  | .expression => .expression
  | .branch => .branch
  | .loop => .loop

def Frame.mapTokens : Frame → Frame
  | .block done => .block (done.map (Stmt.mapTokens change change))
  | .yes condition => .yes (condition.mapTokens change change)
  | .no condition first =>
    .no (condition.mapTokens change change) (first.mapTokens change change)
  | .body condition => .body (condition.mapTokens change change)

/-- The statements around a place with other tokens, behind complete statements of the program. -/
def Outer.mapTokens (o : Outer) : Outer :=
  ⟨o.frames.map (Frame.mapTokens change), o.done.map (Stmt.mapTokens change change) ++ before⟩

def State.mapTokens : State → State
  | .declaration outer => .declaration (outer.mapTokens before change)
  | .afterStatement outer s =>
    .afterStatement (outer.mapTokens before change) (s.mapTokens change change)
  | .statement outer => .statement (outer.mapTokens before change)
  | .declaredName outer => .declaredName (outer.mapTokens before change)
  | .afterDeclaredName outer name =>
    .afterDeclaredName (outer.mapTokens before change) (change name)
  | .condition outer goal => .condition (outer.mapTokens before change) (goal.mapTokens change)
  | .operand outer goal pending =>
    .operand (outer.mapTokens before change) (goal.mapTokens change)
      (pending.map (Pending.mapTokens change))
  | .afterOperand outer goal pending e =>
    .afterOperand (outer.mapTokens before change) (goal.mapTokens change)
      (pending.map (Pending.mapTokens change)) (e.mapTokens change change)

end

/-- A change of tokens that keeps their kinds and puts those of one line on another one. -/
structure Relines (change : Token → Token) (line line' : Nat) : Prop where
  kind : ∀ t : Token, (change t).kind = t.kind
  name : ∀ text : List Char, change (nameToken text line) = nameToken text line'
  operator : ∀ k : Kind, change (operatorToken k line) = operatorToken k line'

section

variable {before : List Stmt} {change : Token → Token}

theorem mapTokens_combine (kind : ∀ t : Token, (change t).kind = t.kind) (left : Expr)
    (operator : Token) (right : Expr) :
    (combine left operator right).mapTokens change change =
      combine (left.mapTokens change change) (change operator)
        (right.mapTokens change change) := by
  unfold combine
  rw [kind]
  split
  · rfl
  · rfl

theorem mapTokens_reduce (kind : ∀ t : Token, (change t).kind = t.kind) (level : Nat) (e : Expr)
    (pending : List Pending) :
    reduce level (e.mapTokens change change) (pending.map (Pending.mapTokens change)) =
      ((reduce level e pending).1.mapTokens change change,
        (reduce level e pending).2.map (Pending.mapTokens change)) := by
  fun_induction reduce level e pending with
  | case1 e operator pending ih => exact ih
  | case2 e left operator pending binds ih =>
    rw [List.map_cons, Pending.mapTokens, reduce, kind, if_pos binds, ← mapTokens_combine kind]
    exact ih
  | case3 e left operator pending binds =>
    rw [List.map_cons, Pending.mapTokens, reduce, kind, if_neg binds]
  | case4 e pending noUnary noOperator =>
    cases pending with
    | nil => rfl
    | cons top pending =>
      cases top with
      | unary operator => exact absurd rfl (noUnary operator pending)
      | operator left operator => exact absurd rfl (noOperator left operator pending)
      | assign | group => rfl

theorem mapTokens_collapse (kind : ∀ t : Token, (change t).kind = t.kind) (e : Expr)
    (pending : List Pending) :
    collapse (e.mapTokens change change) (pending.map (Pending.mapTokens change)) =
      ((collapse e pending).1.mapTokens change change,
        (collapse e pending).2.map (Pending.mapTokens change)) := by
  fun_induction collapse e pending with
  | case1 e operator pending ih => exact ih
  | case2 e left operator pending ih =>
    rw [List.map_cons, Pending.mapTokens, collapse, ← mapTokens_combine kind]
    exact ih
  | case3 e name pending ih => exact ih
  | case4 e pending => rfl
  | case5 e => rfl

theorem mapTokens_assignable? (pending : List Pending) (e : Expr) :
    assignable? (pending.map (Pending.mapTokens change)) (e.mapTokens change change) =
      (assignable? pending e).map change := by
  have starts : startsAssignment (pending.map (Pending.mapTokens change)) =
      startsAssignment pending := by
    match pending with
    | [] | .group :: _ | .assign _ :: _ | .operator _ _ :: _ | .unary _ :: _ => rfl
  cases e with
  | var name =>
    show (if _ then some (change name) else none) = Option.map _ (if _ then some name else none)
    rw [starts]
    split <;> rfl
  | _ => rfl

theorem slot_mapTokens (before : List Stmt) (change : Token → Token) (state : State) :
    (state.mapTokens before change).slot = state.slot := by
  cases state with
  | afterOperand outer goal pending e =>
    rw [State.mapTokens, State.slot, State.slot, mapTokens_assignable?, Option.isSome_map]
  | _ => rfl

theorem mapTokens_complete (s : Stmt) (frames : List Frame) (done : List Stmt) :
    Outer.complete (s.mapTokens change change) (frames.map (Frame.mapTokens change))
        (done.map (Stmt.mapTokens change change) ++ before) =
      (Outer.complete s frames done).mapTokens before change := by
  fun_induction Outer.complete s frames done with
  | case1 s done => rfl
  | case2 s inner frames done => rfl
  | case3 s condition frames done ih => exact ih
  | case4 s condition yes frames done ih => exact ih
  | case5 s condition frames done ih => exact ih

theorem mapTokens_add (o : Outer) (s : Stmt) :
    (o.mapTokens before change).add (s.mapTokens change change) =
      (o.add s).mapTokens before change :=
  mapTokens_complete s o.frames o.done

theorem mapTokens_attach? (s : Stmt) (frames : List Frame) :
    Outer.attach? (s.mapTokens change change) (frames.map (Frame.mapTokens change)) =
      (Outer.attach? s frames).map (List.map (Frame.mapTokens change)) := by
  fun_induction Outer.attach? s frames with
  | case1 s condition frames => rfl
  | case2 s condition yes frames ih => exact ih
  | case3 s condition frames ih => exact ih
  | case4 frames s noYes noNo noBody =>
    cases frames with
    | nil => rfl
    | cons frame frames =>
      cases frame with
      | block => rfl
      | yes condition => exact absurd rfl (noYes condition frames)
      | no condition yes => exact absurd rfl (noNo condition yes frames)
      | body condition => exact absurd rfl (noBody condition frames)

variable {line line' : Nat}

theorem startOperand_mapTokens (relines : Relines change line line') (outer : Outer) (goal : Goal)
    (pending : List Pending) (lexeme : Lexeme) :
    startOperand (outer.mapTokens before change) (goal.mapTokens change)
        (pending.map (Pending.mapTokens change)) lexeme line' =
      (startOperand outer goal pending lexeme line).map (State.mapTokens before change) := by
  unfold startOperand
  rw [← relines.name, ← relines.operator, ← relines.operator]
  split <;> rfl

theorem startStatement_mapTokens (relines : Relines change line line') (outer : Outer)
    (lexeme : Lexeme) :
    startStatement (outer.mapTokens before change) lexeme line' =
      (startStatement outer lexeme line).map (State.mapTokens before change) := by
  unfold startStatement
  split
  · rfl
  · rfl
  · rfl
  · rfl
  · exact startOperand_mapTokens relines outer .expression [] lexeme

theorem startDeclaration_mapTokens (relines : Relines change line line') (outer : Outer)
    (lexeme : Lexeme) :
    startDeclaration (outer.mapTokens before change) lexeme line' =
      (startDeclaration outer lexeme line).map (State.mapTokens before change) := by
  unfold startDeclaration
  split
  · rfl
  · obtain ⟨frames, done⟩ := outer
    match frames with
    | [] | .yes _ :: _ | .no _ _ :: _ | .body _ :: _ => rfl
    | .block inner :: frames =>
      have closed : (Stmt.block inner.reverse).mapTokens change change =
          .block (inner.map (Stmt.mapTokens change change)).reverse := by
        rw [Stmt.mapTokens, Stmt.mapTokensAll_eq_map, List.map_reverse]
      show _ = some (State.afterStatement _ ((Stmt.block inner.reverse).mapTokens change change))
      rw [closed]
      rfl
  · exact startStatement_mapTokens relines outer lexeme

theorem closeParen_mapTokens (kind : ∀ t : Token, (change t).kind = t.kind) (outer : Outer)
    (goal : Goal) (pending : List Pending) (e : Expr) :
    closeParen (outer.mapTokens before change) (goal.mapTokens change)
        (pending.map (Pending.mapTokens change)) (e.mapTokens change change) =
      (closeParen outer goal pending e).map (State.mapTokens before change) := by
  unfold closeParen
  rw [mapTokens_collapse kind]
  obtain ⟨whole, rest⟩ := collapse e pending
  match rest with
  | [] => cases goal <;> rfl
  | .group :: _ | .operator _ _ :: _ | .unary _ :: _ | .assign _ :: _ => cases goal <;> rfl

theorem closeStatement_mapTokens (kind : ∀ t : Token, (change t).kind = t.kind) (outer : Outer)
    (goal : Goal) (pending : List Pending) (e : Expr) :
    closeStatement (outer.mapTokens before change) (goal.mapTokens change)
        (pending.map (Pending.mapTokens change)) (e.mapTokens change change) =
      (closeStatement outer goal pending e).map (State.mapTokens before change) := by
  unfold closeStatement
  rw [mapTokens_collapse kind]
  obtain ⟨whole, rest⟩ := collapse e pending
  match rest with
  | [] =>
    cases goal with
    | initial name =>
      rw [Option.map_some, State.mapTokens, ← mapTokens_add]
      rfl
    | _ => rfl
  | _ :: _ => cases goal <;> rfl

theorem continueOperand_mapTokens (relines : Relines change line line') (outer : Outer)
    (goal : Goal) (pending : List Pending) (e : Expr) (lexeme : Lexeme) :
    continueOperand (outer.mapTokens before change) (goal.mapTokens change)
        (pending.map (Pending.mapTokens change)) (e.mapTokens change change) lexeme line' =
      (continueOperand outer goal pending e lexeme line).map (State.mapTokens before change) := by
  unfold continueOperand
  split
  · rw [mapTokens_assignable?, Option.map_map, Option.map_map]
    rfl
  · exact closeParen_mapTokens relines.kind outer goal pending e
  · exact closeStatement_mapTokens relines.kind outer goal pending e
  · next k _ =>
    rw [Option.map_map, ← relines.operator]
    congr 1
    funext level
    rw [mapTokens_reduce relines.kind]
    rfl
  · rfl

/-- The parser takes the same steps where its tokens are changed. -/
theorem step_mapTokens (relines : Relines change line line') (state : State) (lexeme : Lexeme) :
    step (state.mapTokens before change) lexeme line' =
      (step state lexeme line).map (State.mapTokens before change) := by
  cases state with
  | declaration outer => exact startDeclaration_mapTokens relines outer lexeme
  | afterStatement outer s =>
    simp only [step, State.mapTokens]
    split
    · rw [Outer.mapTokens, mapTokens_attach?, Option.map_map, Option.map_map]
      rfl
    · rw [mapTokens_add]
      exact startDeclaration_mapTokens relines (outer.add s) lexeme
  | statement outer => exact startStatement_mapTokens relines outer lexeme
  | declaredName outer =>
    simp only [step, State.mapTokens, ← relines.name]
    split <;> rfl
  | afterDeclaredName outer name =>
    simp only [step, State.mapTokens]
    split
    · rfl
    · rw [Option.map_some, State.mapTokens, ← mapTokens_add]
      rfl
    · rfl
  | condition outer goal =>
    simp only [step, State.mapTokens]
    split <;> rfl
  | operand outer goal pending => exact startOperand_mapTokens relines outer goal pending lexeme
  | afterOperand outer goal pending e =>
    exact continueOperand_mapTokens relines outer goal pending e lexeme

/-- The program is the one with the changed tokens, where nothing is before it. -/
theorem program?_mapTokens (state : State) :
    (state.mapTokens [] change).program? =
      state.program?.map (Program.mapTokens change change) := by
  have finished (done : List Stmt) :
      some (Program.mk (done.map (Stmt.mapTokens change change) ++ []).reverse) =
        (some (Program.mk done.reverse)).map (Program.mapTokens change change) := by
    rw [List.append_nil, Option.map_some, Program.mapTokens, Stmt.mapTokensAll_eq_map,
      List.map_reverse]
  cases state with
  | declaration outer =>
    obtain ⟨frames, done⟩ := outer
    cases frames with
    | nil => exact finished done
    | cons => rfl
  | afterStatement outer s =>
    rw [State.mapTokens, State.program?, State.program?, mapTokens_add]
    generalize outer.add s = whole
    obtain ⟨frames, done⟩ := whole
    cases frames with
    | nil => exact finished done
    | cons => rfl
  | _ => rfl

end

end TreeWalk.Source
