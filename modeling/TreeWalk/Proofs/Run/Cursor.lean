import TreeWalk.Proofs.Run.Frames
import TreeWalk.Proofs.Run.Watched

/-!
The active scope. A scope is handed down from call to call, and the machine keeps the active one.
The two agree at every call that a request to a session leads to, in whatever blocks, branches and
loops; and between requests the active scope is the outermost one, however the requests before
ended.
-/

set_option autoImplicit false

namespace TreeWalk.Run

open TreeWalk.Run.Action

theorem Task.scope_of_call? {task : Task} {call : Call} (starts : task.call? = some call) :
    call.scope = task.scope := by
  cases task with
  | statement | expression =>
    cases starts
    rfl
  | _ => cases starts

theorem Framed.cursor_eq {α : Type} {env : ScopeId} {gained : List Name} {x : Action α}
    {m m' : Machine} {result : Except Stop α} (framed : Framed env gained x m)
    (ran : x m = (result, m')) : m'.cursor = m.cursor := by
  have same := framed.cursor
  rwa [ran] at same

section

variable {settings : Settings} {limit : Nat} {m m' : Machine}

theorem cursor_of_evaluate {env : ScopeId} {e : Expr} {result : Except Stop Value}
    (ran : evaluate settings env e m = (result, m')) : m'.cursor = m.cursor :=
  (@framed_evaluate env [] settings env e m).cursor_eq ran

theorem cursor_of_testCondition {env : ScopeId} {e : Expr} {result : Except Stop Bool}
    (ran : testCondition settings env e m = (result, m')) : m'.cursor = m.cursor :=
  (@framed_testCondition env [] settings env e m).cursor_eq ran

theorem cursor_of_loopTest {env : ScopeId} {e : Expr} {result : Except Stop Bool}
    (ran : loopTest settings env e m = (result, m')) : m'.cursor = m.cursor :=
  (@framed_loopTest env [] settings env e m).cursor_eq ran

theorem cursor_of_execute {env : ScopeId} {s : Stmt} {result : Except Stop Unit}
    (ran : execute settings limit env s m = (result, m')) : m'.cursor = m.cursor :=
  (framed_execute settings limit env s m).cursor_eq ran

/-- A call is handed the active scope if its caller was. -/
theorem cursor_of_calls {task inner : Task} {part : List Nat}
    (call : Calls settings limit task m part inner m')
    (active : m.cursor = task.scope) : m'.cursor = inner.scope := by
  cases call with
  | program p => exact (cursor_trace settings .started m).trans active
  | first | value | loop | test | operand => exact active
  | next ran => exact (cursor_of_execute ran).trans active
  | block env body =>
    -- The one call that is handed another scope: entering the block makes it active first.
    exact cursor_entered settings env m
  | alone tested | yes tested | no tested => exact (cursor_of_testCondition tested).trans active
  | round tested => exact (cursor_of_loopTest tested).trans active
  | again tested ran =>
    exact (cursor_of_execute ran).trans ((cursor_of_loopTest tested).trans active)
  | logical evaluated | binary evaluated => exact (cursor_of_evaluate evaluated).trans active

theorem cursor_of_reaches {task last : Task} {place : List Nat}
    (reaches : Reaches settings limit task m place last m') (active : m.cursor = task.scope) :
    m'.cursor = last.scope := by
  induction reaches with
  | here => exact active
  | inside call _ ih => exact ih (cursor_of_calls call active)

/-- Each call that a task logs is handed the active scope if the task is. -/
theorem cursor_of_mem_log {task : Task} (active : m.cursor = task.scope) {moment : Moment}
    (member : moment ∈ task.log settings limit m) :
    moment.machine.cursor = moment.call.scope := by
  obtain ⟨place, call, n⟩ := moment
  obtain ⟨last, starts, reaches⟩ := Watched.mem_log_iff_reaches.1 member
  exact (cursor_of_reaches reaches active).trans (Task.scope_of_call? starts).symm

end

/-- The outermost scope is active, and there is none around it. -/
structure AtRest (m : Machine) : Prop where
  cursor : m.cursor = globalScope
  outermost : m.scopes.chain globalScope = [globalScope]

theorem atRest_start (globals : Bindings) : AtRest (.start globals) where
  cursor := rfl
  outermost := @Forest.chain_eq (.single globals) globalScope Nat.zero_lt_one

theorem AtRest.inside {m : Machine} (rest : AtRest m) : globalScope < m.scopes.size := by
  by_contra outside
  have none := Forest.chain_of_le (Nat.le_of_not_lt outside)
  rw [rest.outermost] at none
  cases none

theorem AtRest.depth {m : Machine} (rest : AtRest m) : m.scopes.depth m.cursor = 0 := by
  rw [rest.cursor, Forest.depth, rest.outermost]
  rfl

theorem AtRest.ready {s : Session} (rest : AtRest s.machine) : AtRest s.ready :=
  ⟨rest.cursor, rest.outermost⟩

theorem AtRest.trace {m : Machine} (rest : AtRest m) (settings : Settings) (message : Message) :
    AtRest (m.trace settings message) where
  cursor := by rw [cursor_trace, rest.cursor]
  outermost := by rw [scopes_trace, rest.outermost]

theorem Framed.atRest {α : Type} {env : ScopeId} {gained : List Name} {x : Action α} {m : Machine}
    (framed : Framed env gained x m) (rest : AtRest m) : AtRest (x m).2 where
  cursor := framed.cursor.trans rest.cursor
  outermost := (framed.grows.chain rest.inside).trans rest.outermost

section

variable {m : Machine} (settings : Settings) (limit : Nat) (rest : AtRest m)

include rest

theorem atRest_runProgram (p : Program) : AtRest (runProgram settings limit p m).2 :=
  (confined_runProgram settings limit p m).framed.atRest rest

theorem atRest_executeNode (node : Node) : AtRest (executeNode settings limit node m).2 := by
  cases node with
  | statement s => exact (framed_execute settings limit globalScope s m).atRest rest
  | _ => exact rest

theorem atRest_executeNodes (nodes : List Node) :
    AtRest (executeNodes settings limit nodes m).2 := by
  induction nodes generalizing m with
  | nil => exact rest
  | cons node nodes ih =>
    have first := atRest_executeNode settings limit rest node
    rw [executeNodes, bind_apply]
    generalize executeNode settings limit node m = after at first
    obtain ⟨result, m'⟩ := after
    cases result with
    | ok _ => exact ih first
    | error stop => exact first

theorem atRest_running {body : Action Unit} (ran : ∀ m, AtRest m → AtRest (body m).2) :
    AtRest (running settings body m).2 := by
  have after := ran _ (rest.trace settings .started)
  constructor
  · rw [cursor_running, after.cursor]
  · rw [scopes_running, after.outermost]

theorem atRest_runNodes (nodes : List Node) : AtRest (runNodes settings limit nodes m).2 :=
  atRest_running settings rest fun _ rest => atRest_executeNodes settings limit rest nodes

theorem atRest_runNode (node : Node) : AtRest (runNode settings limit node m).2 := by
  cases node with
  | program p => exact atRest_runProgram settings limit rest p
  | _ => exact atRest_running settings rest fun _ rest => rest

theorem atRest_evaluateNode (node : Node) : AtRest (evaluateNode settings node m).2 := by
  cases node with
  | expression e => exact (@framed_evaluate globalScope [] settings globalScope e m).atRest rest
  | _ => exact rest

end

namespace Watched

def executeNode (settings : Settings) (limit : Nat) : Node → Watched Unit
  | .statement s => execute settings limit globalScope s
  | node => called (.execute globalScope node) (quietly (fail (.notExecutable node.typeName)))

def executeNodes (settings : Settings) (limit : Nat) : List Node → Watched Unit
  | [] => pure ()
  | node :: rest => do
    under 0 (executeNode settings limit node)
    under 1 (executeNodes settings limit rest)

def runNodes (settings : Settings) (limit : Nat) (nodes : List Node) : Watched Unit :=
  running settings (executeNodes settings limit nodes)

def runNode (settings : Settings) (limit : Nat) : Node → Watched Unit
  | .program p => runProgram settings limit p
  | node => running settings (quietly (fail (.notIterable node.typeName)))

def evaluateNode (settings : Settings) : Node → Watched Value
  | .expression e => evaluate settings globalScope e
  | node => called (.evaluate globalScope node) (quietly (fail (.notEvaluable node.typeName)))

section

variable (settings : Settings) (limit : Nat)

theorem erase_executeNode (node : Node) :
    (executeNode settings limit node).erase = Run.executeNode settings limit node := by
  cases node with
  | statement s => exact erase_execute settings limit globalScope s
  | _ => rfl

theorem erase_executeNodes (nodes : List Node) :
    (executeNodes settings limit nodes).erase = Run.executeNodes settings limit nodes := by
  induction nodes with
  | nil => rfl
  | cons node nodes ih =>
    rw [executeNodes, Run.executeNodes, erase_bind, erase_under, erase_executeNode]
    simp only [erase_under, ih]

theorem erase_runNodes (nodes : List Node) :
    (runNodes settings limit nodes).erase = Run.runNodes settings limit nodes := by
  rw [runNodes, erase_running, erase_executeNodes, Run.runNodes]

theorem erase_runNode (node : Node) :
    (runNode settings limit node).erase = Run.runNode settings limit node := by
  cases node with
  | program p => exact erase_runProgram settings limit p
  | _ => rfl

theorem erase_evaluateNode (node : Node) :
    (evaluateNode settings node).erase = Run.evaluateNode settings node := by
  cases node with
  | expression e => exact erase_evaluate settings globalScope e
  | _ => rfl

variable {settings limit} {m : Machine} (rest : AtRest m) {moment : Moment}

include rest

theorem cursor_of_executeNode {node : Node}
    (member : moment ∈ (executeNode settings limit node).log m) :
    moment.machine.cursor = moment.call.scope := by
  cases node with
  | statement s => exact @cursor_of_mem_log _ _ _ (.statement globalScope s) rest.cursor _ member
  | _ =>
    cases List.mem_singleton.1 member
    exact rest.cursor

theorem cursor_of_executeNodes {nodes : List Node}
    (member : moment ∈ (executeNodes settings limit nodes).log m) :
    moment.machine.cursor = moment.call.scope := by
  obtain ⟨place, call, n⟩ := moment
  induction nodes generalizing m place with
  | nil => cases member
  | cons node nodes ih =>
    rcases mem_log_bind.1 member with first | ⟨_, m', ran, later⟩
    · obtain ⟨inner, -, inside⟩ := mem_log_under.1 first
      exact @cursor_of_executeNode _ _ _ rest ⟨inner, call, n⟩ _ inside
    · obtain ⟨inner, rfl, inside⟩ := mem_log_under.1 later
      rw [erase_under, erase_executeNode] at ran
      have after := atRest_executeNode settings limit rest node
      rw [ran] at after
      exact ih after inner inside

theorem cursor_of_runNode {node : Node} (member : moment ∈ (runNode settings limit node).log m) :
    moment.machine.cursor = moment.call.scope := by
  cases node with
  | program p => exact @cursor_of_mem_log _ _ _ (.program p) rest.cursor _ member
  | _ => cases member

theorem cursor_of_evaluateNode {node : Node}
    (member : moment ∈ (evaluateNode settings node).log m) :
    moment.machine.cursor = moment.call.scope := by
  cases node with
  | expression e =>
    exact @cursor_of_mem_log _ 0 _ (.expression globalScope e) rest.cursor _ member
  | _ =>
    cases List.mem_singleton.1 member
    exact rest.cursor

end

end Watched

inductive Request where
  | source (text : String)
  | run (node : Node)
  | runAll (nodes : List Node)
  | evaluate (node : Node)
  | close

/-- What is done for a request; nothing for a text that is no program. -/
def Request.action (settings : Settings) (limit : Nat) : Request → Action Unit
  | .source text =>
    match Source.parse text with
    | .ok p => runProgram settings limit p
    | .error _ => pure ()
  | .run node => runNode settings limit node
  | .runAll nodes => runNodes settings limit nodes
  | .evaluate node => do
    let _ ← evaluateNode settings node
  | .close => pure ()

def Request.watch (settings : Settings) (limit : Nat) : Request → Watched Unit
  | .source text =>
    match Source.parse text with
    | .ok p => Watched.runProgram settings limit p
    | .error _ => pure ()
  | .run node => Watched.runNode settings limit node
  | .runAll nodes => Watched.runNodes settings limit nodes
  | .evaluate node => do
    let _ ← Watched.evaluateNode settings node
  | .close => pure ()

def Session.after (s : Session) (limit : Nat) (request : Request) : Session :=
  let session := (s.act (request.action s.settings limit)).2.2
  match request with
  | .close => session.close
  | _ => session

/-- The session after requests, each with the most tests that a loop in it may make. -/
def Session.afterAll (s : Session) (requests : List (Nat × Request)) : Session :=
  requests.foldl (fun s request => s.after request.1 request.2) s

theorem erase_watch (settings : Settings) (limit : Nat) (request : Request) :
    (request.watch settings limit).erase = request.action settings limit := by
  cases request with
  | source text =>
    rw [Request.watch, Request.action]
    split
    · exact Watched.erase_runProgram settings limit _
    · rfl
  | run node => exact Watched.erase_runNode settings limit node
  | runAll nodes => exact Watched.erase_runNodes settings limit nodes
  | evaluate node =>
    rw [Request.watch, Request.action, Watched.erase_bind, Watched.erase_evaluateNode]
    rfl
  | close => rfl

section

variable {settings : Settings} {limit : Nat} {request : Request} {m : Machine}

theorem atRest_action (rest : AtRest m) : AtRest (request.action settings limit m).2 := by
  cases request with
  | source text =>
    rw [Request.action]
    cases Source.parse text with
    | ok p => exact atRest_runProgram settings limit rest p
    | error e => exact rest
  | run node => exact atRest_runNode settings limit rest node
  | runAll nodes => exact atRest_runNodes settings limit rest nodes
  | evaluate node =>
    have after := atRest_evaluateNode settings rest node
    rw [Request.action, bind_apply]
    generalize evaluateNode settings node m = outcome at after
    obtain ⟨result, m'⟩ := outcome
    cases result with
    | ok _ => exact after
    | error stop => exact after
  | close => exact rest

theorem cursor_of_watch (rest : AtRest m) {moment : Moment}
    (member : moment ∈ (request.watch settings limit).log m) :
    moment.machine.cursor = moment.call.scope := by
  cases request with
  | source text =>
    rw [Request.watch] at member
    split at member
    · next p _ => exact @cursor_of_mem_log _ _ _ (.program p) rest.cursor _ member
    · cases member
  | run node => exact Watched.cursor_of_runNode rest member
  | runAll nodes =>
    exact Watched.cursor_of_executeNodes (rest.trace settings .started) member
  | evaluate node =>
    rcases Watched.mem_log_bind.1 member with first | ⟨_, _, _, ⟨⟩⟩
    exact Watched.cursor_of_evaluateNode rest first
  | close => cases member

end

theorem atRest_after {s : Session} (rest : AtRest s.machine) (limit : Nat) (request : Request) :
    AtRest (s.after limit request).machine := by
  have after : AtRest (s.act (request.action s.settings limit)).2.2.machine :=
    atRest_action rest.ready
  cases request with
  | close => exact after
  | _ => exact after

theorem atRest_afterAll {s : Session} (rest : AtRest s.machine)
    (requests : List (Nat × Request)) : AtRest (s.afterAll requests).machine := by
  induction requests generalizing s with
  | nil => exact rest
  | cons request requests ih => exact ih (atRest_after rest request.1 request.2)

/-- After any requests to a session, the outermost scope is active; and whatever a further request
asks for, at each call that is made for it the active scope is the one that the call is handed. -/
theorem cursor_mirrors_scope (settings : Settings) (requests : List (Nat × Request)) :
    let session := (Session.start settings).afterAll requests
    session.machine.cursor = globalScope ∧ session.depth = 0 ∧
      ∀ (limit : Nat) (request : Request),
        let watched := request.watch session.settings limit
        watched.erase = request.action session.settings limit ∧
          ∀ moment ∈ watched.log session.ready, moment.machine.cursor = moment.call.scope := by
  intro session
  have rest : AtRest session.machine := atRest_afterAll (atRest_start []) requests
  refine ⟨rest.cursor, rest.depth, fun limit request => ?_⟩
  exact ⟨erase_watch _ limit request, fun moment member => cursor_of_watch rest.ready member⟩

/-- Two requests fail, one of them inside of two blocks and one because it is no statement. In the
block of a third one a variable is evaluated. -/
theorem cursor_mirrors_scope_failing :
    let failing : Stmt :=
      .block [.block [.expression (.assign (.identifier "z" 1) (.literal .null))]]
    let x : Expr := .var (.identifier "x" 1)
    let session := (Session.start ⟨true, 0, ⟨.utf8, .utf8⟩⟩).afterAll
      [(1, .runAll [.statement failing]), (1, .runAll [.expression x])]
    let log := (Request.run (.program ⟨[.block [.print x]]⟩) |>.watch session.settings 1).log
      session.ready
    session.machine.scopes.size = 3 ∧ session.depth = 0 ∧
      log.map (fun moment => (moment.place, moment.call.scope)) =
        [([0], 0), ([0, 0, 0], 3), ([0, 0, 0, 0], 3)] ∧
      ∀ moment ∈ log, moment.machine.cursor = moment.call.scope := by
  intro failing x session log
  obtain ⟨-, top, calls⟩ := cursor_mirrors_scope ⟨true, 0, ⟨.utf8, .utf8⟩⟩
    [(1, .runAll [.statement failing]), (1, .runAll [.expression x])]
  have logged : log.map (fun moment => (moment.place, moment.call.scope)) =
      [([0], 0), ([0, 0, 0], 3), ([0, 0, 0, 0], 3)] := by
    unfold log session
    cbv
  exact ⟨by cbv, top, logged, (calls 1 (.run (.program ⟨[.block [.print x]]⟩))).2⟩

end TreeWalk.Run
