import TreeWalk.Proofs.Run.Safety
import TreeWalk.Proofs.Scope.Names

/-!
What a run does to the variables of scopes. However it ends, an expression adds no name to any scope
there is, and a statement adds to its own scope alone, and no names but those of its declarations
that are in no block of it. Only names that the tree assigns to or declares get other values. The
active scope is the same one afterwards.
-/

set_option autoImplicit false

namespace TreeWalk

/-- The name that a token stands for, if it stands for one. -/
def Token.key? (t : Token) : Option Name := (Name.ofJson t.text).toOption

theorem Token.key?_of_ofJson {name : Token} {key : Name}
    (named : Name.ofJson name.text = .ok key) : name.key? = some key := by
  rw [Token.key?, named]
  rfl

/-- The names of the declarations in a statement that are in no block of it. -/
def Stmt.declared : Stmt → List Name
  | .declare name _ => name.key?.toList
  | .ifThen _ yes => yes.declared
  | .ifThenElse _ yes no => yes.declared ++ no.declared
  | .loop _ body => body.declared
  | .print _ | .expression _ | .block _ => []

def Expr.targets : Expr → List Name
  | .literal _ | .var _ => []
  | .assign name value => name.key?.toList ++ value.targets
  | .logical left _ right | .binary left _ right => left.targets ++ right.targets
  | .unary _ operand => operand.targets
  | .grouping inner => inner.targets

mutual

/-- The names that a statement assigns to or declares, in its blocks too. -/
def Stmt.targets : Stmt → List Name
  | .print value | .expression value => value.targets
  | .declare name none => name.key?.toList
  | .declare name (some initial) => name.key?.toList ++ initial.targets
  | .block body => Stmt.targetsAll body
  | .ifThen condition yes => condition.targets ++ yes.targets
  | .ifThenElse condition yes no => condition.targets ++ yes.targets ++ no.targets
  | .loop condition body => condition.targets ++ body.targets

def Stmt.targetsAll : List Stmt → List Name
  | [] => []
  | s :: rest => s.targets ++ Stmt.targetsAll rest

end

namespace Run

open TreeWalk.Run.Action

/-- From a machine, an action adds names to one scope alone, only these, and leaves the active scope
as it is. -/
structure Framed {α : Type} (env : ScopeId) (gained : List Name) (x : Action α) (m : Machine) :
    Prop where
  grows : m.scopes.Grows env gained (x m).2.scopes
  cursor : (x m).2.cursor = m.cursor

/-- Beside that, it gives other values to no names but the targets. -/
structure Confined {α : Type} (env : ScopeId) (gained targets : List Name) (x : Action α)
    (m : Machine) : Prop where
  writes : m.scopes.Writes env gained targets (x m).2.scopes
  cursor : (x m).2.cursor = m.cursor

section

variable {α β : Type} {env : ScopeId} {gained targets : List Name} {m : Machine}

theorem Confined.framed {x : Action α} (confined : Confined env gained targets x m) :
    Framed env gained x m :=
  ⟨confined.writes.toGrows, confined.cursor⟩

theorem Confined.same {x : Action α} (scopes : (x m).2.scopes = m.scopes)
    (cursor : (x m).2.cursor = m.cursor) : Confined env gained targets x m :=
  ⟨by rw [scopes]; exact .refl _ _ _ _, cursor⟩

theorem Confined.mono {gained' : List Name} {x : Action α}
    (confined : Confined env gained targets x m) (subset : gained ⊆ gained') :
    Confined env gained' targets x m :=
  ⟨confined.writes.mono subset, confined.cursor⟩

theorem Confined.pure (a : α) : Confined env gained targets (Pure.pure a : Action α) m :=
  .same rfl rfl

theorem Confined.stop (s : Stop) : Confined env gained targets (Action.stop s : Action α) m :=
  .same rfl rfl

theorem Confined.lift (r : Except Fault α) : Confined env gained targets (Action.lift r) m := by
  cases r with
  | ok a => exact .pure a
  | error f => exact .stop _

theorem Confined.bind {x : Action α} {f : α → Action β} (first : Confined env gained targets x m)
    (second : ∀ a m', x m = (.ok a, m') → Confined env gained targets (f a) m') :
    Confined env gained targets (x >>= f) m := by
  obtain ⟨writes, cursor⟩ := first
  generalize ran : x m = after at writes cursor
  obtain ⟨result, m'⟩ := after
  cases result with
  | ok a =>
    obtain ⟨writes', cursor'⟩ := second a m' ran
    constructor
    · rw [bind_apply, ran]
      exact writes.trans writes'
    · rw [bind_apply, ran]
      exact cursor'.trans cursor
  | error s =>
    constructor
    · rw [bind_apply, ran]
      exact writes
    · rw [bind_apply, ran]
      exact cursor

theorem Confined.repeatWhile {test : Action Bool} {body : Action Unit}
    (tests : ∀ m, Confined env gained targets test m)
    (bodies : ∀ m, Confined env gained targets body m) (limit rounds : Nat) (m : Machine) :
    Confined env gained targets (Action.repeatWhile test body limit rounds) m := by
  induction limit generalizing rounds m with
  | zero => exact .stop _
  | succ limit ih =>
    rw [Action.repeatWhile]
    refine (tests m).bind fun holds m' _ => ?_
    cases holds with
    | true => exact (bodies m').bind fun _ m'' _ => ih (rounds + 1) m''
    | false => exact .pure _

theorem confined_send (streams : Streams) (e : Event) :
    Confined env gained targets (send streams e) m := by
  unfold send
  split
  · exact .same rfl rfl
  · exact .stop _

theorem confined_trace (settings : Settings) (message : Message) :
    Confined env gained targets (trace settings message) m := by
  unfold trace
  split
  · exact confined_send _ _
  · exact .pure ()

theorem confined_traceValue (settings : Settings) (level : Nat) (v : Value)
    (message : Text → Message) :
    Confined env gained targets (traceValue settings level v message) m := by
  unfold traceValue
  split
  · exact (Confined.lift _).bind fun _ _ _ => confined_trace settings _
  · exact .pure ()

theorem nameOf_eq_ok {name : Token} {key : Name} {m m' : Machine}
    (h : nameOf name m = (.ok key, m')) : name.key? = some key ∧ m' = m := by
  unfold nameOf at h
  rw [Token.key?]
  cases found : Name.ofJson name.text with
  | ok k =>
    rw [found] at h
    cases h
    exact ⟨rfl, rfl⟩
  | error kind =>
    rw [found] at h
    cases h

/-- The name of a token is in every list that holds those it stands for. -/
theorem mem_of_nameOf {name : Token} {key : Name} {m m' : Machine} {names : List Name}
    (named : nameOf name m = (.ok key, m')) (known : name.key?.toList ⊆ names) : key ∈ names := by
  apply known
  rw [(nameOf_eq_ok named).1]
  exact List.mem_singleton_self key

theorem confined_nameOf (name : Token) : Confined env gained targets (nameOf name) m := by
  unfold nameOf
  split
  · exact .pure _
  · exact .stop _

theorem readVariable_eq {name : Token} {key : Name} (named : Name.ofJson name.text = .ok key)
    (settings : Settings) (env : ScopeId) (m : Machine) :
    readVariable settings env name m =
      match m.scopes.get? env key with
      | some v => (.ok v, m)
      | none =>
        (if settings.strict then
          .error (.fault (.report (.undefinedVariable name.display (some name.line))))
        else .ok .null, m) := by
  unfold readVariable nameOf
  rw [named]
  change (match m.scopes.get? env key with
    | some v => pure v
    | none =>
      if settings.strict then fail (.report (.undefinedVariable name.display (some name.line)))
      else pure Value.null : Action Value) m = _
  cases m.scopes.get? env key with
  | some v => rfl
  | none =>
    dsimp only
    split <;> rfl

theorem confined_define {scope : ScopeId} {key : Name} {v : Value}
    (known : (m.scopes.bindings scope).binds key = true ∨ scope = env ∧ key ∈ gained)
    (target : key ∈ targets) :
    Confined env gained targets (update fun m => { m with scopes := m.scopes.define scope key v })
      m :=
  ⟨Forest.writes_define known target v, rfl⟩

theorem confined_readVariable (settings : Settings) (scope : ScopeId) (name : Token) :
    Confined env gained targets (readVariable settings scope name) m := by
  unfold readVariable
  refine (confined_nameOf name).bind fun key m' _ => (Confined.same rfl rfl).bind fun v? m'' _ => ?_
  cases v? with
  | some v => exact .pure v
  | none =>
    dsimp only
    split
    · exact .stop _
    · exact .pure _

theorem confined_assignVariable (settings : Settings) (scope : ScopeId) {name : Token} (v : Value)
    (target : name.key?.toList ⊆ targets) :
    Confined env gained targets (assignVariable settings scope name v) m := by
  unfold assignVariable
  refine (confined_nameOf name).bind fun key m' named => ?_
  refine (Confined.same rfl rfl).bind fun owner? m'' read => ?_
  obtain ⟨found, rfl⟩ := Prod.mk.inj read
  cases owner? with
  | some owner =>
    -- The owner is the first scope outward that binds the name.
    have binds := List.find?_some (Except.ok.inj found)
    exact (confined_define (.inl binds) (mem_of_nameOf named target)).bind fun _ _ _ =>
      confined_traceValue settings _ _ _
  | none => exact (Confined.stop _).bind fun _ _ _ => confined_traceValue settings _ _ _

theorem confined_declareVariable (settings : Settings) {name : Token} (v : Value)
    (known : name.key?.toList ⊆ gained) (target : name.key?.toList ⊆ targets) :
    Confined env gained targets (declareVariable settings env name v) m := by
  unfold declareVariable
  refine (confined_nameOf name).bind fun key m' named => ?_
  exact (confined_define (.inr ⟨rfl, mem_of_nameOf named known⟩) (mem_of_nameOf named target)).bind
    fun _ _ _ => confined_traceValue settings _ _ _

theorem confined_reveal (settings : Settings) (type : NodeType) (v : Value) :
    Confined env gained targets (reveal settings type v) m :=
  (confined_traceValue settings _ _ _).bind fun _ _ _ => .pure v

theorem confined_evaluate (settings : Settings) (scope : ScopeId) {e : Expr}
    (target : e.targets ⊆ targets) (m : Machine) :
    Confined env gained targets (evaluate settings scope e) m := by
  induction e generalizing m with
  | literal value => exact confined_reveal settings _ _
  | grouping inner ih => exact (ih target m).bind fun _ _ _ => confined_reveal settings _ _
  | var name =>
    exact (confined_readVariable settings scope name).bind fun _ _ _ => confined_reveal settings _ _
  | assign name value ih =>
    obtain ⟨assigned, target⟩ := List.append_subset.1 target
    refine (ih target m).bind fun v _ _ => ?_
    exact (confined_assignVariable settings scope v assigned).bind fun _ _ _ =>
      confined_reveal settings _ _
  | logical left operator right ihLeft ihRight =>
    obtain ⟨first, second⟩ := List.append_subset.1 target
    refine (ihLeft first m).bind fun l m' _ => ?_
    split
    · exact confined_reveal settings _ _
    · exact (ihRight second m').bind fun _ _ _ => confined_reveal settings _ _
  | unary operator operand ih =>
    refine (ih target m).bind fun v _ _ => ?_
    exact (Confined.lift _).bind fun _ _ _ => confined_reveal settings _ _
  | binary left operator right ihLeft ihRight =>
    obtain ⟨first, second⟩ := List.append_subset.1 target
    refine (ihLeft first m).bind fun l m' _ => (ihRight second m').bind fun r m'' _ => ?_
    exact (Confined.lift _).bind fun _ _ _ => confined_reveal settings _ _

theorem confined_testCondition (settings : Settings) (scope : ScopeId) {condition : Expr}
    (target : condition.targets ⊆ targets) (m : Machine) :
    Confined env gained targets (testCondition settings scope condition) m :=
  (confined_evaluate settings scope target m).bind fun _ _ _ =>
    (confined_traceValue settings _ _ _).bind fun _ _ _ => .pure _

theorem confined_loopTest (settings : Settings) (scope : ScopeId) {condition : Expr}
    (target : condition.targets ⊆ targets) (m : Machine) :
    Confined env gained targets (loopTest settings scope condition) m :=
  (confined_evaluate settings scope target m).bind fun _ _ _ => .pure _

/-- What a block declares is in a scope of its own. -/
theorem confined_within (settings : Settings) {gained' : List Name} {body : ScopeId → Action α}
    (h : ∀ m, Confined m.scopes.size gained' targets (body m.scopes.size) (entered settings env m))
    (m : Machine) : Confined env gained targets (within settings env body) m := by
  have inner := (h m).writes
  rw [scopes_entered] at inner
  constructor
  · rw [within_apply, scopes_left]
    exact inner.of_push.mono (List.nil_subset _)
  · rw [within_apply, cursor_left]

end

mutual

/-- Executing a statement adds names only to its own scope, and only those that it declares outside
of its blocks. -/
theorem confined_execute (settings : Settings) (limit : Nat) (env : ScopeId)
    {targets : List Name} : ∀ (s : Stmt), s.targets ⊆ targets → ∀ m : Machine,
      Confined env s.declared targets (execute settings limit env s) m
  | .print value, target, m => by
    rw [execute]
    rw [Stmt.targets] at target
    refine (confined_evaluate settings env target m).bind fun v _ _ => ?_
    exact (Confined.lift _).bind fun _ _ _ => confined_send _ _
  | .expression value, target, m => by
    rw [execute]
    rw [Stmt.targets] at target
    exact (confined_evaluate settings env target m).bind fun _ _ _ => .pure _
  | .declare name none, target, m => by
    rw [execute, Stmt.declared]
    rw [Stmt.targets] at target
    exact confined_declareVariable settings _ (List.Subset.refl _) target
  | .declare name (some initial), target, m => by
    rw [execute, Stmt.declared]
    rw [Stmt.targets, List.append_subset] at target
    exact (confined_evaluate settings env target.2 m).bind fun v _ _ =>
      confined_declareVariable settings v (List.Subset.refl _) target.1
  | .block body, target, m => by
    rw [execute]
    rw [Stmt.targets] at target
    exact confined_within settings (fun m => confined_executeAll settings limit _ body target _) m
  | .ifThen condition yes, target, m => by
    rw [execute, Stmt.declared]
    rw [Stmt.targets, List.append_subset] at target
    refine (confined_testCondition settings env target.1 m).bind fun taken m' _ => ?_
    cases taken with
    | true => exact confined_execute settings limit env yes target.2 m'
    | false => exact .pure _
  | .ifThenElse condition yes no, target, m => by
    rw [execute, Stmt.declared]
    rw [Stmt.targets, List.append_subset, List.append_subset] at target
    refine (confined_testCondition settings env target.1.1 m).bind fun taken m' _ => ?_
    cases taken with
    | true =>
      exact (confined_execute settings limit env yes target.1.2 m').mono
        (List.subset_append_left _ _)
    | false =>
      exact (confined_execute settings limit env no target.2 m').mono
        (List.subset_append_right _ _)
  | .loop condition body, target, m => by
    rw [execute, Stmt.declared]
    rw [Stmt.targets, List.append_subset] at target
    refine Confined.bind ?_ fun _ _ _ => confined_trace settings _
    exact .repeatWhile (confined_loopTest settings env target.1)
      (confined_execute settings limit env body target.2) limit 0 m

theorem confined_executeAll (settings : Settings) (limit : Nat) (env : ScopeId)
    {targets : List Name} : ∀ (body : List Stmt), Stmt.targetsAll body ⊆ targets → ∀ m : Machine,
      Confined env (body.flatMap Stmt.declared) targets (executeAll settings limit env body) m
  | [], _, m => by
    rw [executeAll]
    exact .pure ()
  | s :: rest, target, m => by
    rw [executeAll, List.flatMap_cons]
    rw [Stmt.targetsAll, List.append_subset] at target
    have first := (confined_execute settings limit env s target.1 m).mono
      (List.subset_append_left s.declared (rest.flatMap Stmt.declared))
    refine first.bind fun _ m' _ => ?_
    exact (confined_executeAll settings limit env rest target.2 m').mono
      (List.subset_append_right _ _)

end

theorem scopes_running (settings : Settings) (body : Action Unit) (m : Machine) :
    (running settings body m).2.scopes = (body (m.trace settings .started)).2.scopes := by
  unfold running
  split
  · next ran => rw [scopes_trace, ran]
  · next ran => rw [scopes_trace, ran]
  · next ran => rw [ran]

theorem cursor_running (settings : Settings) (body : Action Unit) (m : Machine) :
    (running settings body m).2.cursor = (body (m.trace settings .started)).2.cursor := by
  unfold running
  split
  · next ran => rw [cursor_trace, ran]
  · next ran => rw [cursor_trace, ran]
  · next ran => rw [ran]

/-- A program changes the variables that it assigns to or declares, and no others. -/
theorem confined_runProgram (settings : Settings) (limit : Nat) (p : Program) (m : Machine) :
    Confined globalScope (p.statements.flatMap Stmt.declared) (Stmt.targetsAll p.statements)
      (runProgram settings limit p) m := by
  have body := confined_executeAll settings limit globalScope p.statements (List.Subset.refl _)
    (m.trace settings .started)
  have writes := body.writes
  have cursor := body.cursor
  rw [scopes_trace] at writes
  rw [cursor_trace] at cursor
  constructor
  · rwa [runProgram, scopes_running]
  · rwa [runProgram, cursor_running]

section

variable {env : ScopeId} {gained : List Name} {m : Machine}

theorem framed_traceValue (settings : Settings) (level : Nat) (v : Value)
    (message : Text → Message) : Framed env gained (traceValue settings level v message) m :=
  (@confined_traceValue env gained [] m settings level v message).framed

theorem framed_evaluate (settings : Settings) (scope : ScopeId) (e : Expr) (m : Machine) :
    Framed env gained (evaluate settings scope e) m :=
  (confined_evaluate settings scope (List.Subset.refl e.targets) m).framed

theorem framed_testCondition (settings : Settings) (scope : ScopeId) (condition : Expr)
    (m : Machine) : Framed env gained (testCondition settings scope condition) m :=
  (confined_testCondition settings scope (List.Subset.refl condition.targets) m).framed

theorem framed_loopTest (settings : Settings) (scope : ScopeId) (condition : Expr) (m : Machine) :
    Framed env gained (loopTest settings scope condition) m :=
  (confined_loopTest settings scope (List.Subset.refl condition.targets) m).framed

end

theorem framed_execute (settings : Settings) (limit : Nat) (env : ScopeId) (s : Stmt)
    (m : Machine) : Framed env s.declared (execute settings limit env s) m :=
  (confined_execute settings limit env s (List.Subset.refl s.targets) m).framed

/-- Scope discipline. However the execution of a statement ends, the scopes that there were stand
where they stood and bind the names that they bound, but for its own scope, which may have gained
names of declarations in no block of the statement. A block adds no names to the scopes that there
were, nor does an expression. -/
theorem scopes_keep_their_names (settings : Settings) (limit : Nat) {env : ScopeId} {m : Machine}
    (inside : env < m.scopes.size) :
    (∀ s : Stmt,
      let after := (execute settings limit env s m).2.scopes
      (∀ id < m.scopes.size, id ≠ env → m.scopes.Keeps after id) ∧
      after.chain env = m.scopes.chain env ∧
      ∀ name, ((m.scopes.bindings env).binds name = true → (after.bindings env).binds name = true) ∧
        ((after.bindings env).binds name = true →
          (m.scopes.bindings env).binds name = true ∨ name ∈ s.declared)) ∧
    (∀ body : List Stmt, ∀ id < m.scopes.size,
      m.scopes.Keeps (execute settings limit env (.block body) m).2.scopes id) ∧
    ∀ e : Expr, ∀ id < m.scopes.size,
      m.scopes.Keeps (evaluate settings env e m).2.scopes id := by
  refine ⟨?_, ?_, ?_⟩
  · intro s
    have grows := (framed_execute settings limit env s m).grows
    refine ⟨fun id old other => grows.scope old fun _ _ => other, grows.chain inside, ?_⟩
    intro name
    refine ⟨grows.keeps env inside name, fun bound => ?_⟩
    exact (grows.gains env inside name bound).imp_right And.right
  · intro body id old
    have grows := (framed_execute settings limit env (.block body) m).grows
    exact grows.scope old nofun
  · intro e id old
    have framed : Framed env [] (evaluate settings env e) m := framed_evaluate settings env e m
    exact framed.grows.scope old nofun

/-- In a scope inside of the outermost one, a block is left by an undefined variable after a
declaration, and the branch of an `if` is a declaration. -/
theorem scopes_keep_their_names_branch :
    let m : Machine := ⟨(Forest.single [(.text "x", .null)]).push (some globalScope), 1, #[]⟩
    let fails : Stmt := .block [.declare (.identifier "y" 1) none,
      .expression (.assign (.identifier "z" 2) (.literal .null))]
    let branch : Stmt := .ifThen (.literal (.bool true)) (.declare (.identifier "y" 1) none)
    (execute ⟨false, 0, ⟨.utf8, .utf8⟩⟩ 0 1 fails m).1 =
      .error (.fault (.report (.undefinedVariable "z" (some 2)))) ∧
    m.scopes.Keeps (execute ⟨false, 0, ⟨.utf8, .utf8⟩⟩ 0 1 fails m).2.scopes 1 ∧
    m.scopes.Keeps (execute ⟨false, 0, ⟨.utf8, .utf8⟩⟩ 0 1 branch m).2.scopes globalScope ∧
    ((execute ⟨false, 0, ⟨.utf8, .utf8⟩⟩ 0 1 branch m).2.scopes.bindings 1).binds (.text "y") =
      true ∧
    m.scopes.Keeps
      (evaluate ⟨false, 0, ⟨.utf8, .utf8⟩⟩ 1
        (.assign (.identifier "x" 1) (.literal (.bool true))) m).2.scopes
      globalScope := by
  intro m fails branch
  have inside : 1 < m.scopes.size := by decide
  obtain ⟨statements, blocks, expressions⟩ :=
    scopes_keep_their_names ⟨false, 0, ⟨.utf8, .utf8⟩⟩ 0 inside
  refine ⟨by cbv, blocks _ 1 inside, ?_, by cbv, expressions _ globalScope (by decide)⟩
  exact (statements branch).1 globalScope (by decide) (by decide)

end Run

end TreeWalk
