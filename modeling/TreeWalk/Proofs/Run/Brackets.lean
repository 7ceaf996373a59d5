import TreeWalk.Proofs.Run.Strictness

/-!
The trace is well bracketed. A run tells that it enters a scope and that it leaves it, with how deep
the scope is, and it leaves each scope that it enters, even where an error ends it. So what a trace
tells between its first and its last message are pairs of brackets inside of each other, and the
depth of a pair is one more than the number of pairs around it.
-/

set_option autoImplicit false

namespace TreeWalk

/-- So many scopes are around a scope that there is. -/
def Forest.Nests (f : Forest) (id : ScopeId) (depth : Nat) : Prop :=
  (f.chain id).length = depth + 1

namespace Forest

variable {f f' : Forest} {id : ScopeId} {depth : Nat}

theorem Nests.inside (nests : f.Nests id depth) : id < f.size := by
  by_contra outside
  rw [Nests, chain_of_le (Nat.le_of_not_lt outside), List.length_nil] at nests
  omega

theorem Nests.depth_eq (nests : f.Nests id depth) : f.depth id = depth := by
  rw [Forest.depth, nests, Nat.add_sub_cancel]

theorem Nests.grows {env : ScopeId} {gained : List Name} (nests : f.Nests id depth)
    (grows : f.Grows env gained f') : f'.Nests id depth := by
  rw [Nests, grows.chain nests.inside]
  exact nests

theorem Nests.push (nests : f.Nests id depth) : (f.push (some id)).Nests f.size (depth + 1) := by
  have new : f.size < (f.push (some id)).size := by
    rw [size_push]
    omega
  have outer := (grows_push f (some id) id []).chain nests.inside
  rw [Nests, chain_eq new, parent?_push_self nests.inside, Option.elim_some, outer,
    List.length_cons, nests]

end Forest

namespace Run

open TreeWalk.Run.Action

/-- A message about a step of a run: not about a scope, nor about the run as a whole. -/
def Message.step : Message → Bool
  | .declared .. | .assigned .. | .tested .. | .looped _ | .valued .. => true
  | .started | .finished | .failed _ | .entered _ | .left _ => false

/-- Messages at some depth: those about steps, and scopes one deeper, which are entered and left
with their depth and have messages of their own in between. -/
inductive Bracketed : Nat → List Message → Prop where
  | nil (depth : Nat) : Bracketed depth []
  | step {depth : Nat} {message : Message} {rest : List Message} (step : message.step = true)
    (after : Bracketed depth rest) : Bracketed depth (message :: rest)
  | scope {depth : Nat} {inner rest : List Message} (inside : Bracketed (depth + 1) inner)
    (after : Bracketed depth rest) :
    Bracketed depth (.entered (depth + 1) :: (inner ++ .left (depth + 1) :: rest))

theorem Bracketed.append {depth : Nat} {first second : List Message}
    (left : Bracketed depth first) (right : Bracketed depth second) :
    Bracketed depth (first ++ second) := by
  induction left with
  | nil => exact right
  | step step _ ih => exact .step step (ih right)
  | scope inside _ _ ih =>
    rw [List.cons_append, List.append_assoc, List.cons_append]
    exact .scope inside (ih right)

/-- None of them is about the run as a whole. -/
theorem Bracketed.two_le_level {depth : Nat} {all : List Message}
    (bracketed : Bracketed depth all) : ∀ message ∈ all, 2 ≤ message.level := by
  induction bracketed with
  | nil => simp
  | @step _ message _ step _ ih =>
    rw [List.forall_mem_cons]
    refine ⟨?_, ih⟩
    cases message <;> simp_all [Message.step, Message.level]
  | scope _ _ ihInside ihAfter =>
    rw [List.forall_mem_cons, List.forall_mem_append, List.forall_mem_cons]
    exact ⟨by simp [Message.level], ihInside, by simp [Message.level], ihAfter⟩

theorem messages_append (events events' : List Event) :
    messages (events ++ events') = messages events ++ messages events' :=
  List.filterMap_append

/-- From a machine, the messages that an action adds are bracketed at a depth. -/
def Tells {α : Type} (depth : Nat) (x : Action α) (m : Machine) : Prop :=
  ∃ added, (x m).2.events.toList = m.events.toList ++ added ∧ Bracketed depth (messages added)

section

variable {α β : Type} {depth : Nat} {m : Machine}

theorem Tells.silent {x : Action α} (same : (x m).2.events = m.events) : Tells depth x m :=
  ⟨[], by rw [same, List.append_nil], .nil depth⟩

theorem Tells.lift (r : Except Fault α) : Tells depth (Action.lift r) m := by
  cases r with
  | ok a => exact .silent rfl
  | error f => exact .silent rfl

theorem Tells.bind {x : Action α} {f : α → Action β} (first : Tells depth x m)
    (second : ∀ a, Tells depth (f a) (x m).2) : Tells depth (x >>= f) m := by
  obtain ⟨added, events, bracketed⟩ := first
  unfold Tells
  rw [bind_apply]
  generalize x m = after at events second
  obtain ⟨result, m'⟩ := after
  cases result with
  | error s => exact ⟨added, events, bracketed⟩
  | ok a =>
    obtain ⟨more, events', bracketed'⟩ := second a
    refine ⟨added ++ more, ?_, ?_⟩
    · rw [← List.append_assoc, ← events]
      exact events'
    · rw [messages_append]
      exact bracketed.append bracketed'

/-- A loop tells brackets if its rounds do, where something holds at the start of each round. -/
theorem Tells.repeatWhile {holds : Machine → Prop} {test : Action Bool} {body : Action Unit}
    (tests : ∀ m, Tells depth test m) (bodies : ∀ m, holds m → Tells depth body m)
    (tested : ∀ m, holds m → holds (test m).2) (done : ∀ m, holds m → holds (body m).2)
    (limit rounds : Nat) (start : holds m) :
    Tells depth (Action.repeatWhile test body limit rounds) m := by
  induction limit generalizing rounds m with
  | zero => exact .silent rfl
  | succ limit ih =>
    rw [Action.repeatWhile]
    refine (tests m).bind fun goesOn => ?_
    have between := tested m start
    cases goesOn with
    | false => exact .silent rfl
    | true => exact (bodies _ between).bind fun _ => ih (rounds + 1) (done _ between)

theorem tells_send (streams : Streams) {e : Event} (step : Bracketed depth (messages [e])) :
    Tells depth (send streams e) m := by
  unfold send
  split
  · exact ⟨[e], Array.toList_push, step⟩
  · exact .silent rfl

theorem tells_trace (settings : Settings) {message : Message} (step : message.step = true) :
    Tells depth (trace settings message) m := by
  unfold trace
  split
  · exact tells_send _ (.step step (.nil depth))
  · exact .silent rfl

theorem tells_traceValue (settings : Settings) (level : Nat) (v : Value)
    {message : Text → Message} (step : ∀ shown, (message shown).step = true) :
    Tells depth (traceValue settings level v message) m := by
  unfold traceValue
  split
  · exact (Tells.lift _).bind fun shown => tells_trace settings (step shown)
  · exact .silent rfl

theorem tells_nameOf (name : Token) : Tells depth (nameOf name) m := by
  unfold nameOf
  split
  · exact .silent rfl
  · exact .silent rfl

theorem tells_readVariable (settings : Settings) (env : ScopeId) (name : Token) :
    Tells depth (readVariable settings env name) m := by
  refine (tells_nameOf name).bind fun key => Tells.bind (.silent rfl) fun v? => ?_
  cases v? with
  | some v => exact .silent rfl
  | none =>
    dsimp only
    split
    · exact .silent rfl
    · exact .silent rfl

theorem tells_assignVariable (settings : Settings) (env : ScopeId) (name : Token) (v : Value) :
    Tells depth (assignVariable settings env name v) m := by
  refine (tells_nameOf name).bind fun key => Tells.bind (.silent rfl) fun scope? => ?_
  cases scope? with
  | some scope => exact Tells.bind (.silent rfl) fun _ => tells_traceValue settings 2 v fun _ => rfl
  | none => exact Tells.bind (.silent rfl) fun _ => tells_traceValue settings 2 v fun _ => rfl

theorem tells_declareVariable (settings : Settings) (env : ScopeId) (name : Token) (v : Value) :
    Tells depth (declareVariable settings env name v) m :=
  (tells_nameOf name).bind fun _ => Tells.bind (.silent rfl) fun _ =>
    tells_traceValue settings 2 v fun _ => rfl

theorem tells_reveal (settings : Settings) (type : NodeType) (v : Value) :
    Tells depth (reveal settings type v) m :=
  (tells_traceValue settings 4 v fun _ => rfl).bind fun _ => .silent rfl

theorem tells_evaluate (settings : Settings) (env : ScopeId) (e : Expr) (m : Machine) :
    Tells depth (evaluate settings env e) m := by
  induction e generalizing m with
  | literal value => exact tells_reveal settings _ _
  | grouping inner ih => exact (ih m).bind fun v => tells_reveal settings _ v
  | var name => exact (tells_readVariable settings env name).bind fun v => tells_reveal settings _ v
  | assign name value ih =>
    refine (ih m).bind fun v => ?_
    exact (tells_assignVariable settings env name v).bind fun _ => tells_reveal settings _ v
  | logical left operator right ihLeft ihRight =>
    refine (ihLeft m).bind fun l => ?_
    split
    · exact tells_reveal settings _ l
    · exact (ihRight _).bind fun r => tells_reveal settings _ r
  | unary operator operand ih =>
    refine (ih m).bind fun v => ?_
    exact (Tells.lift _).bind fun result => tells_reveal settings _ result
  | binary left operator right ihLeft ihRight =>
    refine (ihLeft m).bind fun l => (ihRight _).bind fun r => ?_
    exact (Tells.lift _).bind fun result => tells_reveal settings _ result

theorem tells_testCondition (settings : Settings) (env : ScopeId) (condition : Expr) (m : Machine) :
    Tells depth (testCondition settings env condition) m :=
  (tells_evaluate settings env condition m).bind fun v =>
    (tells_traceValue settings 3 v fun _ => rfl).bind fun _ => .silent rfl

theorem tells_loopTest (settings : Settings) (env : ScopeId) (condition : Expr) (m : Machine) :
    Tells depth (loopTest settings env condition) m :=
  (tells_evaluate settings env condition m).bind fun _ => .silent rfl

theorem nests_testCondition (settings : Settings) {env : ScopeId} (condition : Expr)
    (nests : m.scopes.Nests env depth) :
    (testCondition settings env condition m).2.scopes.Nests env depth :=
  nests.grows (@framed_testCondition env [] settings env condition m).grows

theorem nests_loopTest (settings : Settings) {env : ScopeId} (condition : Expr)
    (nests : m.scopes.Nests env depth) :
    (loopTest settings env condition m).2.scopes.Nests env depth :=
  nests.grows (@framed_loopTest env [] settings env condition m).grows

theorem nests_execute {settings : Settings} (limit : Nat) {env : ScopeId} (s : Stmt)
    (nests : m.scopes.Nests env depth) :
    (execute settings limit env s m).2.scopes.Nests env depth :=
  nests.grows (framed_execute settings limit env s m).grows

theorem nests_entered {settings : Settings} {env : ScopeId} (nests : m.scopes.Nests env depth) :
    (entered settings env m).scopes.Nests m.scopes.size (depth + 1) := by
  rw [scopes_entered]
  exact nests.push

/-- However what is in a scope ends, the scope is left behind it. -/
theorem tells_within {settings : Settings} (reached : 3 ≤ settings.verbosity) {env : ScopeId}
    (nests : m.scopes.Nests env depth) {body : ScopeId → Action α}
    (inner : Tells (depth + 1) (body m.scopes.size) (entered settings env m)) :
    Tells depth (within settings env body) m := by
  have deeper := nests.push.depth_eq
  have opens (events : List Event) :
      traced settings (.entered (depth + 1)) events = events ++ [.traced (.entered (depth + 1))] :=
    if_pos reached
  have closes (events : List Event) :
      traced settings (.left (depth + 1)) events = events ++ [.traced (.left (depth + 1))] :=
    if_pos reached
  obtain ⟨added, events, bracketed⟩ := inner
  refine ⟨.traced (.entered (depth + 1)) :: (added ++ [.traced (.left (depth + 1))]), ?_, ?_⟩
  · rw [events_entered, deeper, opens] at events
    rw [within_apply, events_left, deeper, closes, events]
    simp
  · have all : messages (.traced (.entered (depth + 1)) ::
        (added ++ [.traced (.left (depth + 1))])) =
          .entered (depth + 1) :: (messages added ++ [.left (depth + 1)]) :=
      congrArg (List.cons _) (messages_append added _)
    rw [all]
    exact .scope bracketed (.nil depth)

end

mutual

theorem tells_execute {settings : Settings} (reached : 3 ≤ settings.verbosity) (limit : Nat)
    {env : ScopeId} {depth : Nat} : ∀ (s : Stmt) (m : Machine), m.scopes.Nests env depth →
      Tells depth (execute settings limit env s) m
  | .print value, m, _ => by
    rw [execute]
    refine (tells_evaluate settings env value m).bind fun v => ?_
    exact (Tells.lift _).bind fun shown => tells_send _ (.nil depth)
  | .expression value, m, _ => by
    rw [execute]
    exact (tells_evaluate settings env value m).bind fun _ => .silent rfl
  | .declare name none, m, _ => by
    rw [execute]
    exact tells_declareVariable settings env name .null
  | .declare name (some initial), m, _ => by
    rw [execute]
    exact (tells_evaluate settings env initial m).bind fun v =>
      tells_declareVariable settings env name v
  | .block body, m, nests => by
    rw [execute]
    apply tells_within reached nests
    exact tells_executeAll reached limit body _ (nests_entered nests)
  | .ifThen condition yes, m, nests => by
    rw [execute]
    refine (tells_testCondition settings env condition m).bind fun taken => ?_
    have after := nests_testCondition settings condition nests
    cases taken with
    | true => exact tells_execute reached limit yes _ after
    | false => exact .silent rfl
  | .ifThenElse condition yes no, m, nests => by
    rw [execute]
    refine (tells_testCondition settings env condition m).bind fun taken => ?_
    have after := nests_testCondition settings condition nests
    cases taken with
    | true => exact tells_execute reached limit yes _ after
    | false => exact tells_execute reached limit no _ after
  | .loop condition body, m, nests => by
    rw [execute]
    refine Tells.bind ?_ fun rounds => tells_trace settings rfl
    exact Tells.repeatWhile (tells_loopTest settings env condition)
      (tells_execute reached limit body)
      (fun _ => nests_loopTest settings condition) (fun _ => nests_execute limit body) limit 0 nests

theorem tells_executeAll {settings : Settings} (reached : 3 ≤ settings.verbosity) (limit : Nat)
    {env : ScopeId} {depth : Nat} : ∀ (body : List Stmt) (m : Machine),
      m.scopes.Nests env depth → Tells depth (executeAll settings limit env body) m
  | [], m, _ => by
    rw [executeAll]
    exact .silent rfl
  | s :: rest, m, nests => by
    rw [executeAll]
    refine (tells_execute reached limit s m nests).bind fun _ => ?_
    exact tells_executeAll reached limit rest _ (nests_execute limit s nests)

end

theorem nests_start (settings : Settings) (globals : Bindings) :
    (Machine.trace settings .started (.start globals)).scopes.Nests globalScope 0 := by
  have inside : globalScope < (Forest.single globals).size := Nat.zero_lt_one
  rw [scopes_trace, Forest.Nests]
  show ((Forest.single globals).chain globalScope).length = 1
  rw [Forest.chain_eq inside]
  rfl

theorem lastWord?_eq_finished_iff {result : Except Stop Unit} :
    lastWord? result = some .finished ↔ result = .ok () := by
  unfold lastWord?
  split <;> simp_all

theorem lastWord?_eq_failed_iff {result : Except Stop Unit} {r : Report} :
    lastWord? result = some (.failed r) ↔ result = .error (.fault (.report r)) := by
  unfold lastWord?
  split <;> simp_all

theorem level_of_lastWord? {result : Except Stop Unit} {message : Message}
    (last : lastWord? result = some message) : message.level = 1 := by
  unfold lastWord? at last
  split at last <;> cases last <;> rfl

theorem messages_traced {settings : Settings} {message : Message}
    (reached : message.level ≤ settings.verbosity) :
    messages (traced settings message []) = [message] := by
  rw [traced, if_pos reached]
  rfl

theorem messages_closing {settings : Settings} (reached : 1 ≤ settings.verbosity)
    (result : Except Stop Unit) :
    messages (closing settings result) = (lastWord? result).toList := by
  unfold closing
  cases last : lastWord? result with
  | none => rfl
  | some message =>
    apply messages_traced
    rwa [level_of_lastWord? last]

/-- The last of some messages is the one that may come after the others, if it is not among them. -/
theorem getLast?_append_toList {earlier : List Message} {last : Option Message} {message : Message}
    (absent : message ∉ earlier) :
    (earlier ++ last.toList).getLast? = some message ↔ last = some message := by
  cases last with
  | some other => simp
  | none =>
    rw [Option.toList_none, List.append_nil]
    constructor
    · intro found
      exact absurd (List.mem_of_getLast? found) absent
    · nofun

/-- At a verbosity that reaches scopes, whatever program is run from whatever variables, the trace
starts with the message about the start. The messages behind it are bracketed, and none of them is
about the run as a whole, up to the message about the end. That one tells how the run ended. -/
theorem trace_is_well_bracketed {settings : Settings} (reached : 3 ≤ settings.verbosity)
    (limit : Nat) (p : Program) (globals : Bindings) {result : Except Stop Unit}
    {events : List Event} {session : Session}
    (ran : (Session.holding settings globals).act (runProgram settings limit p) =
      (result, events, session)) :
    (∃ inner, messages events = .started :: (inner ++ (lastWord? result).toList) ∧
      Bracketed 0 inner ∧ ∀ message ∈ inner, 2 ≤ message.level) ∧
    ((messages events).getLast? = some .finished ↔ result = .ok ()) ∧
    ∀ r, (messages events).getLast? = some (.failed r) ↔
      result = .error (.fault (.report r)) := by
  obtain ⟨rfl, -, -, rfl⟩ := Session.act_runProgram ran
  generalize after : executeAll settings limit globalScope p.statements
    (Machine.trace settings .started (.start globals)) = outcome
  obtain ⟨inner, told, bracketed⟩ := tells_executeAll reached limit p.statements _
    (nests_start settings globals)
  rw [after, events_trace] at told
  have started : messages (traced settings .started []) = [.started] :=
    messages_traced (Nat.le_trans (by decide) reached)
  have all : messages (outcome.2.events.toList ++ closing settings outcome.1) =
      .started :: messages inner ++ (lastWord? outcome.1).toList := by
    rw [told, messages_append, messages_append, messages_closing (by omega)]
    exact congrArg (· ++ messages inner ++ (lastWord? outcome.1).toList) started
  have levels := bracketed.two_le_level
  have absent (message : Message) (last : message.level = 1) (other : message ≠ .started) :
      message ∉ .started :: messages inner := by
    rw [List.mem_cons, not_or]
    refine ⟨other, ?_⟩
    intro member
    have := levels message member
    omega
  refine ⟨⟨messages inner, all, bracketed, levels⟩, ?_, ?_⟩
  · rw [all, getLast?_append_toList (absent .finished rfl nofun), lastWord?_eq_finished_iff]
  · intro r
    rw [all, getLast?_append_toList (absent (.failed r) rfl nofun), lastWord?_eq_failed_iff]

/-- A loop goes round once and is stopped by a variable that is not bound, two blocks deep. -/
theorem trace_is_well_bracketed_failing :
    let p : Program := ⟨[.block [.print (.literal (.text "a"))],
      .loop (.literal (.bool true)) (.block [.declare (.identifier "x" 2) none,
        .block [.print (.var (.identifier "y" 3))]])]⟩
    let fault : Report := .undefinedVariable "y" (some 3)
    ∃ result events session,
      (Session.holding ⟨true, 3, ⟨.utf8, .utf8⟩⟩ []).act
        (runProgram ⟨true, 3, ⟨.utf8, .utf8⟩⟩ 2 p) = (result, events, session) ∧
      result = .error (.fault (.report fault)) ∧
      messages events = [.started, .entered 1, .left 1, .entered 1, .declared "x" "null",
        .entered 2, .left 2, .left 1, .failed fault] ∧
      (∃ inner, messages events = .started :: (inner ++ [.failed fault]) ∧ Bracketed 0 inner) ∧
      (messages events).getLast? = some (.failed fault) := by
  intro p fault
  obtain ⟨⟨inner, told, bracketed, -⟩, -, failed⟩ :=
    trace_is_well_bracketed (show 3 ≤ Settings.verbosity ⟨true, 3, ⟨.utf8, .utf8⟩⟩ by decide)
      2 p [] rfl
  have stopped : (runProgram ⟨true, 3, ⟨.utf8, .utf8⟩⟩ 2 p (.start [])).1 =
      .error (.fault (.report fault)) := by
    cbv
  refine ⟨_, _, _, rfl, stopped, by cbv, ⟨inner, ?_, bracketed⟩, (failed fault).2 stopped⟩
  rw [told]
  exact congrArg (fun result => Message.started :: (inner ++ (lastWord? result).toList)) stopped

end Run

end TreeWalk
