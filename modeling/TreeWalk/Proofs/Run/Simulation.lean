import TreeWalk.Proofs.Run.Safety
import TreeWalk.Proofs.Tree.MapTokens

/-!
Two runs side by side. The machines of the runs go together in some way, and so do the stops with
which they may end; the values are the same. If this is so for each thing that a run does to its
machine, it is so for the runs of any tree, though the settings of the runs may differ and so may
the tokens of the trees. Of variables it has to be so only for those that occur in the tree. It is
so for each of these things if it is for what is done to scopes and to events. Runs whose machines
have the same scopes at all times, but for their events, are the simplest case.
-/

set_option autoImplicit false

namespace TreeWalk.Run

open TreeWalk.Run.Action

/-- How two actions end together: with one value, of which something is known, or with two stops. -/
def EndsAlike {α : Type} (E : Stop → Stop → Prop) (P : α → Prop) :
    Except Stop α → Except Stop α → Prop
  | .ok a, .ok b => a = b ∧ P a
  | .error s, .error s' => E s s'
  | _, _ => False

/-- From machines that go together two actions end together and leave such machines, unless the
first one is halted early. -/
def InStep {α : Type} (R : Machine → Machine → Prop) (E : Stop → Stop → Prop) (N : Stop → Prop)
    (P : α → Prop) (x y : Action α) : Prop :=
  ∀ m m', R m m' → EndsAlike E P (x m).1 (y m').1 ∧ R (x m).2 (y m').2 ∨
    ∃ s, N s ∧ (x m).1 = .error s

/-- No stop halts a run early. -/
def Never (_ : Stop) : Prop := False

theorem result_running (settings : Settings) (body : Action Unit) (m : Machine) :
    (running settings body m).1 = (body (m.trace settings .started)).1 := by
  unfold running
  split
  · next ran => rw [ran]
  · next ran => rw [ran]
  · next ran => rw [ran]

section

variable {α β : Type} {R : Machine → Machine → Prop} {E : Stop → Stop → Prop} {N : Stop → Prop}
  {P : α → Prop} {Q : β → Prop}

theorem InStep.ends {x y : Action α} (steps : InStep R E Never P x y) (m m' : Machine)
    (together : R m m') : EndsAlike E P (x m).1 (y m').1 := by
  rcases steps m m' together with ⟨alike, -⟩ | ⟨_, never, -⟩
  · exact alike
  · exact never.elim

theorem InStep.keeps {x y : Action α} (steps : InStep R E Never P x y) (m m' : Machine)
    (together : R m m') : R (x m).2 (y m').2 := by
  rcases steps m m' together with ⟨-, keeps⟩ | ⟨_, never, -⟩
  · exact keeps
  · exact never.elim

theorem InStep.of {x y : Action α}
    (h : ∀ m m', R m m' → EndsAlike E P (x m).1 (y m').1 ∧ R (x m).2 (y m').2) :
    InStep R E N P x y :=
  fun m m' together => .inl (h m m' together)

theorem InStep.pure {a : α} (h : P a) :
    InStep R E N P (Pure.pure a : Action α) (Pure.pure a : Action α) :=
  fun _ _ together => .inl ⟨⟨rfl, h⟩, together⟩

theorem InStep.stop {s s' : Stop} (h : E s s') :
    InStep R E N P (Action.stop s : Action α) (Action.stop s' : Action α) :=
  fun _ _ together => .inl ⟨h, together⟩

theorem InStep.bind {x y : Action α} {f g : α → Action β} (first : InStep R E N P x y)
    (second : ∀ a, P a → InStep R E N Q (f a) (g a)) :
    InStep R E N Q (x >>= f) (y >>= g) := by
  intro m m' together
  have goes := first m m' together
  rw [bind_apply, bind_apply]
  generalize x m = after at goes
  generalize y m' = after' at goes
  obtain ⟨result, n⟩ := after
  obtain ⟨result', n'⟩ := after'
  rcases goes with ⟨ends, keeps⟩ | ⟨s, early, rfl⟩
  · match result, result', ends with
    | .ok a, .ok _, ⟨rfl, known⟩ => exact second a known n n' keeps
    | .error s, .error s', stops => exact .inl ⟨stops, keeps⟩
  · exact .inr ⟨s, early, rfl⟩

theorem InStep.update {f g : Machine → Machine} (h : ∀ m m', R m m' → R (f m) (g m')) :
    InStep R E N (fun _ => True) (Action.update f) (Action.update g) :=
  fun m m' together => .inl ⟨⟨rfl, trivial⟩, h m m' together⟩

theorem InStep.read {f g : Machine → α} (h : ∀ m m', R m m' → f m = g m' ∧ P (f m)) :
    InStep R E N P (Action.read f) (Action.read g) :=
  fun m m' together => .inl ⟨h m m' together, together⟩

theorem InStep.lift {r r' : Except Fault α}
    (h : EndsAlike E P (r.mapError Stop.fault) (r'.mapError Stop.fault)) :
    InStep R E N P (Action.lift r) (Action.lift r') := by
  match r, r', h with
  | .ok a, .ok _, ⟨rfl, known⟩ => exact .pure known
  | .error f, .error f', stops => exact .stop stops

theorem InStep.toText {v : Value} (unsaid : ∀ f, v.toText = .error f → E (.fault f) (.fault f)) :
    InStep R E N (fun _ => True) (Action.lift v.toText) (Action.lift v.toText) := by
  apply InStep.lift
  cases shown : v.toText with
  | ok text => exact ⟨rfl, trivial⟩
  | error f => exact unsaid f shown

theorem InStep.repeatWhile {test test' : Action Bool} {body body' : Action Unit}
    (unfinished : E .unfinished .unfinished)
    (tests : InStep R E N (fun _ => True) test test')
    (bodies : InStep R E N (fun _ => True) body body') (limit rounds : Nat) :
    InStep R E N (fun _ => True) (Action.repeatWhile test body limit rounds)
      (Action.repeatWhile test' body' limit rounds) := by
  induction limit generalizing rounds with
  | zero => exact .stop unfinished
  | succ limit ih =>
    rw [Action.repeatWhile, Action.repeatWhile]
    refine tests.bind fun holds _ => ?_
    cases holds with
    | true => exact bodies.bind fun _ _ => ih (rounds + 1)
    | false => exact .pure trivial

/-- Whole runs go in step if what is run does, and if they end with the same stop. -/
theorem InStep.running {settings settings' : Settings} {body body' : Action Unit}
    (bodies : InStep R E N (fun _ => True) body body') (stops : ∀ s s', E s s' → s = s')
    (trace : ∀ (message : Message) (m m' : Machine), R m m' →
      R (m.trace settings message) (m'.trace settings' message)) :
    InStep R E N (fun _ => True) (Run.running settings body) (Run.running settings' body') := by
  intro m m' together
  have goes := bodies _ _ (trace .started m m' together)
  rcases goes with ⟨ends, keeps⟩ | ⟨s, early, halted⟩
  · left
    unfold Run.running
    generalize body (m.trace settings .started) = after at ends keeps
    generalize body' (m'.trace settings' .started) = after' at ends keeps
    obtain ⟨result, n⟩ := after
    obtain ⟨result', n'⟩ := after'
    match result, result', ends with
    | .ok _, .ok _, _ => exact ⟨⟨rfl, trivial⟩, trace .finished n n' keeps⟩
    | .error s, .error s', alike =>
      obtain rfl := stops s s' alike
      cases s with
      | unfinished => exact ⟨alike, keeps⟩
      | fault f =>
        cases f with
        | report r => exact ⟨alike, trace (.failed r) n n' keeps⟩
        | _ => exact ⟨alike, keeps⟩
  · exact .inr ⟨s, early, (result_running settings body m).trans halted⟩

end

/-- What a run does to its machine, but for its variables, done by two runs in step. The values that
occur have the property `P`. -/
structure Steps (settings settings' : Settings) (operators : Token → Token)
    (R : Machine → Machine → Prop) (E : Stop → Stop → Prop) (N : Stop → Prop) (P : Value → Prop) :
    Prop where
  literal : ∀ value : Literal, P (.ofLiteral value)
  kind : ∀ operator : Token, (operators operator).kind = operator.kind
  unfinished : E .unfinished .unfinished
  unary : ∀ (operator : Token) (v : Value), P v →
    InStep R E N P (lift (Value.applyUnary operator v))
      (lift (Value.applyUnary (operators operator) v))
  binary : ∀ (operator : Token) (a b : Value), P a → P b →
    InStep R E N P (lift (Value.applyBinary operator a b))
      (lift (Value.applyBinary (operators operator) a b))
  reveals : ∀ (level : Nat) (v : Value) (message : Text → Message), P v →
    (∀ shown, (message shown).level = level) →
      InStep R E N (fun _ => True) (traceValue settings level v message)
        (traceValue settings' level v message)
  print : ∀ v : Value, P v → InStep R E N (fun _ => True)
    (lift v.toText >>= fun shown => send settings.streams (.printed shown))
    (lift v.toText >>= fun shown => send settings'.streams (.printed shown))
  looped : ∀ rounds : Nat,
    InStep R E N (fun _ => True) (trace settings (.looped rounds))
      (trace settings' (.looped rounds))
  within : ∀ (env : ScopeId) (body body' : ScopeId → Action Unit),
    (∀ inner, InStep R E N (fun _ => True) (body inner) (body' inner)) →
      InStep R E N (fun _ => True) (within settings env body) (within settings' env body')

/-- What a run does to its machine, done by two runs in step, where the variables are such as may
occur. -/
structure SimulationOn (occurs : Token → Prop) (settings settings' : Settings)
    (names operators : Token → Token) (R : Machine → Machine → Prop) (E : Stop → Stop → Prop)
    (N : Stop → Prop) (P : Value → Prop) : Prop
    extends Steps settings settings' operators R E N P where
  read : ∀ (env : ScopeId) (name : Token), occurs name →
    InStep R E N P (readVariable settings env name) (readVariable settings' env (names name))
  assign : ∀ (env : ScopeId) (name : Token) (v : Value), occurs name → P v →
    InStep R E N (fun _ => True) (assignVariable settings env name v)
      (assignVariable settings' env (names name) v)
  declare : ∀ (env : ScopeId) (name : Token) (v : Value), occurs name → P v →
    InStep R E N (fun _ => True) (declareVariable settings env name v)
      (declareVariable settings' env (names name) v)

/-- The same for all variables. -/
structure Simulation (settings settings' : Settings) (names operators : Token → Token)
    (R : Machine → Machine → Prop) (E : Stop → Stop → Prop) (N : Stop → Prop) (P : Value → Prop) :
    Prop extends Steps settings settings' operators R E N P where
  read : ∀ (env : ScopeId) (name : Token),
    InStep R E N P (readVariable settings env name) (readVariable settings' env (names name))
  assign : ∀ (env : ScopeId) (name : Token) (v : Value), P v →
    InStep R E N (fun _ => True) (assignVariable settings env name v)
      (assignVariable settings' env (names name) v)
  declare : ∀ (env : ScopeId) (name : Token) (v : Value), P v →
    InStep R E N (fun _ => True) (declareVariable settings env name v)
      (declareVariable settings' env (names name) v)

theorem Steps.reveal {settings settings' : Settings} {operators : Token → Token}
    {R : Machine → Machine → Prop} {E : Stop → Stop → Prop} {N : Stop → Prop} {P : Value → Prop}
    (steps : Steps settings settings' operators R E N P) (type : NodeType) {v : Value}
    (known : P v) : InStep R E N P (reveal settings type v) (reveal settings' type v) :=
  (steps.reveals 4 v (.valued type) known fun _ => rfl).bind fun _ _ => .pure known

namespace SimulationOn

variable {occurs : Token → Prop} {settings settings' : Settings} {names operators : Token → Token}
  {R : Machine → Machine → Prop} {E : Stop → Stop → Prop} {N : Stop → Prop} {P : Value → Prop}

theorem evaluate (sim : SimulationOn occurs settings settings' names operators R E N P)
    (env : ScopeId) {e : Expr} (occur : ∀ t ∈ e.names, occurs t) :
    InStep R E N P (evaluate settings env e)
      (evaluate settings' env (e.mapTokens names operators)) := by
  induction e with
  | literal value => exact sim.reveal _ (sim.literal value)
  | grouping inner ih => exact (ih occur).bind fun v known => sim.reveal _ known
  | var name =>
    have named := occur name List.mem_cons_self
    exact (sim.read env name named).bind fun v known => sim.reveal _ known
  | assign name value ih =>
    obtain ⟨named, occur⟩ := List.forall_mem_cons.1 occur
    refine (ih occur).bind fun v known => ?_
    exact (sim.assign env name v named known).bind fun _ _ => sim.reveal _ known
  | logical left operator right ihLeft ihRight =>
    obtain ⟨inLeft, inRight⟩ := List.forall_mem_append.1 occur
    refine (ihLeft inLeft).bind fun l known => ?_
    rw [sim.kind]
    split
    · exact sim.reveal _ known
    · exact (ihRight inRight).bind fun r known => sim.reveal _ known
  | unary operator operand ih =>
    refine (ih occur).bind fun v known => ?_
    exact (sim.unary operator v known).bind fun result known => sim.reveal _ known
  | binary left operator right ihLeft ihRight =>
    obtain ⟨inLeft, inRight⟩ := List.forall_mem_append.1 occur
    refine (ihLeft inLeft).bind fun l first => (ihRight inRight).bind fun r second => ?_
    exact (sim.binary operator l r first second).bind fun result known => sim.reveal _ known

theorem testCondition (sim : SimulationOn occurs settings settings' names operators R E N P)
    (env : ScopeId) {condition : Expr} (occur : ∀ t ∈ condition.names, occurs t) :
    InStep R E N (fun _ => True) (testCondition settings env condition)
      (testCondition settings' env (condition.mapTokens names operators)) := by
  refine (sim.evaluate env occur).bind fun v known => ?_
  refine (sim.reveals 3 v (.tested · v.truthy) known fun _ => rfl).bind fun _ _ => ?_
  exact .pure trivial

theorem loopTest (sim : SimulationOn occurs settings settings' names operators R E N P)
    (env : ScopeId) {condition : Expr} (occur : ∀ t ∈ condition.names, occurs t) :
    InStep R E N (fun _ => True) (loopTest settings env condition)
      (loopTest settings' env (condition.mapTokens names operators)) :=
  (sim.evaluate env occur).bind fun _ _ => .pure trivial

mutual

theorem execute (sim : SimulationOn occurs settings settings' names operators R E N P) (limit : Nat)
    (env : ScopeId) : ∀ s : Stmt, (∀ t ∈ s.names, occurs t) →
      InStep R E N (fun _ => True) (execute settings limit env s)
        (execute settings' limit env (s.mapTokens names operators))
  | .print value, occur => by
    rw [Stmt.names] at occur
    rw [Stmt.mapTokens, Run.execute, Run.execute]
    exact (sim.evaluate env occur).bind sim.print
  | .expression value, occur => by
    rw [Stmt.names] at occur
    rw [Stmt.mapTokens, Run.execute, Run.execute]
    exact (sim.evaluate env occur).bind fun _ _ => .pure trivial
  | .declare name none, occur => by
    rw [Stmt.names, List.forall_mem_singleton] at occur
    rw [Stmt.mapTokens, Option.map_none, Run.execute, Run.execute]
    exact sim.declare env name .null occur (sim.literal .null)
  | .declare name (some initial), occur => by
    rw [Stmt.names, List.forall_mem_cons] at occur
    rw [Stmt.mapTokens, Option.map_some, Run.execute, Run.execute]
    exact (sim.evaluate env occur.2).bind fun v known => sim.declare env name v occur.1 known
  | .block body, occur => by
    rw [Stmt.names] at occur
    rw [Stmt.mapTokens, Run.execute, Run.execute]
    exact sim.within env _ _ fun inner => executeAll sim limit inner body occur
  | .ifThen condition yes, occur => by
    rw [Stmt.names, List.forall_mem_append] at occur
    rw [Stmt.mapTokens, Run.execute, Run.execute]
    refine (sim.testCondition env occur.1).bind fun taken _ => ?_
    cases taken with
    | true => exact execute sim limit env yes occur.2
    | false => exact .pure trivial
  | .ifThenElse condition yes no, occur => by
    rw [Stmt.names, List.forall_mem_append, List.forall_mem_append] at occur
    rw [Stmt.mapTokens, Run.execute, Run.execute]
    refine (sim.testCondition env occur.1.1).bind fun taken _ => ?_
    cases taken with
    | true => exact execute sim limit env yes occur.1.2
    | false => exact execute sim limit env no occur.2
  | .loop condition body, occur => by
    rw [Stmt.names, List.forall_mem_append] at occur
    rw [Stmt.mapTokens, Run.execute, Run.execute]
    have rounds := InStep.repeatWhile sim.unfinished (sim.loopTest env occur.1)
      (execute sim limit env body occur.2) limit 0
    exact rounds.bind fun count _ => sim.looped count

theorem executeAll (sim : SimulationOn occurs settings settings' names operators R E N P)
    (limit : Nat) (env : ScopeId) : ∀ body : List Stmt, (∀ t ∈ Stmt.namesAll body, occurs t) →
      InStep R E N (fun _ => True) (executeAll settings limit env body)
        (executeAll settings' limit env (Stmt.mapTokensAll names operators body))
  | [], _ => by
    rw [Stmt.mapTokensAll, Run.executeAll, Run.executeAll]
    exact .pure trivial
  | s :: rest, occur => by
    rw [Stmt.namesAll, List.forall_mem_append] at occur
    rw [Stmt.mapTokensAll, Run.executeAll, Run.executeAll]
    exact (execute sim limit env s occur.1).bind fun _ _ => executeAll sim limit env rest occur.2

end

end SimulationOn

namespace Simulation

variable {settings settings' : Settings} {names operators : Token → Token}
  {R : Machine → Machine → Prop} {E : Stop → Stop → Prop} {N : Stop → Prop} {P : Value → Prop}

theorem on (sim : Simulation settings settings' names operators R E N P) :
    SimulationOn (fun _ => True) settings settings' names operators R E N P where
  toSteps := sim.toSteps
  read := fun env name _ => sim.read env name
  assign := fun env name v _ => sim.assign env name v
  declare := fun env name v _ => sim.declare env name v

theorem evaluate (sim : Simulation settings settings' names operators R E N P) (env : ScopeId)
    (e : Expr) : InStep R E N P (evaluate settings env e)
      (evaluate settings' env (e.mapTokens names operators)) :=
  sim.on.evaluate env fun _ _ => trivial

theorem testCondition (sim : Simulation settings settings' names operators R E N P) (env : ScopeId)
    (condition : Expr) : InStep R E N (fun _ => True) (testCondition settings env condition)
      (testCondition settings' env (condition.mapTokens names operators)) :=
  sim.on.testCondition env fun _ _ => trivial

theorem loopTest (sim : Simulation settings settings' names operators R E N P) (env : ScopeId)
    (condition : Expr) : InStep R E N (fun _ => True) (loopTest settings env condition)
      (loopTest settings' env (condition.mapTokens names operators)) :=
  sim.on.loopTest env fun _ _ => trivial

theorem execute (sim : Simulation settings settings' names operators R E N P) (limit : Nat)
    (env : ScopeId) (s : Stmt) : InStep R E N (fun _ => True) (execute settings limit env s)
      (execute settings' limit env (s.mapTokens names operators)) :=
  sim.on.execute limit env s fun _ _ => trivial

theorem executeAll (sim : Simulation settings settings' names operators R E N P) (limit : Nat)
    (env : ScopeId) (body : List Stmt) :
    InStep R E N (fun _ => True) (executeAll settings limit env body)
      (executeAll settings' limit env (Stmt.mapTokensAll names operators body)) :=
  sim.on.executeAll limit env body fun _ _ => trivial

end Simulation

/-- The events after a message that is traced where the verbosity reaches it. -/
def traced (settings : Settings) (message : Message) (events : List Event) : List Event :=
  if message.level ≤ settings.verbosity then events ++ [.traced message] else events

theorem events_trace (settings : Settings) (message : Message) (m : Machine) :
    (m.trace settings message).events.toList = traced settings message m.events.toList := by
  unfold Machine.trace traced
  split
  · exact Array.toList_push
  · rfl

theorem events_entered (settings : Settings) (env : ScopeId) (m : Machine) :
    (entered settings env m).events.toList =
      traced settings (.entered ((m.scopes.push (some env)).depth m.scopes.size))
        m.events.toList :=
  events_trace settings _ _

theorem events_left (settings : Settings) (env : ScopeId) (m after : Machine) :
    (left settings env m after).events.toList =
      traced settings (.left ((m.scopes.push (some env)).depth m.scopes.size))
        after.events.toList :=
  events_trace settings _ _

theorem traced_append (settings : Settings) (message : Message) (events later : List Event) :
    traced settings message (events ++ later) = events ++ traced settings message later := by
  unfold traced
  split
  · exact List.append_assoc _ _ _
  · rfl

theorem traced_eq_append (settings : Settings) (message : Message) (events : List Event) :
    traced settings message events = events ++ traced settings message [] := by
  rw [← traced_append, List.append_nil]

/-- The message of a run about its end: none if it ends with a fault that is no report. -/
def lastWord? : Except Stop Unit → Option Message
  | .ok () => some .finished
  | .error (.fault (.report r)) => some (.failed r)
  | .error _ => none

/-- What a run adds to its events where it ends. -/
def closing (settings : Settings) (result : Except Stop Unit) : List Event :=
  (lastWord? result).elim [] fun message => traced settings message []

/-- The events of a run are those of its body, and what it says where it ends. -/
theorem events_running (settings : Settings) (body : Action Unit) (m : Machine) :
    (running settings body m).2.events.toList =
      (body (m.trace settings .started)).2.events.toList ++
        closing settings (running settings body m).1 := by
  rw [result_running]
  unfold running
  split
  · next ran =>
    rw [ran, events_trace, traced_eq_append]
    rfl
  · next r _ ran =>
    rw [ran, events_trace, traced_eq_append]
    rfl
  · next stop m' noReport ran =>
    rw [ran]
    cases stop with
    | unfinished => exact (List.append_nil _).symm
    | fault f =>
      cases f with
      | report r => exact absurd rfl (noReport r)
      | _ => exact (List.append_nil _).symm

/-- Machines whose scopes go together in some way, with the same active scope. The events so far go
together in their own way. -/
structure Aligned (F : Forest → Forest → Prop) (V : List Event → List Event → Prop)
    (m m' : Machine) : Prop where
  scopes : F m.scopes m'.scopes
  cursor : m.cursor = m'.cursor
  events : V m.events.toList m'.events.toList

theorem Aligned.trace {settings settings' : Settings} {F : Forest → Forest → Prop}
    {V : List Event → List Event → Prop} {m m' : Machine} (aligned : Aligned F V m m')
    {message message' : Message} (view : ∀ l l' : List Event, V l l' →
      V (traced settings message l) (traced settings' message' l')) :
    Aligned F V (m.trace settings message) (m'.trace settings' message') where
  scopes := by
    rw [scopes_trace, scopes_trace]
    exact aligned.scopes
  cursor := by rw [cursor_trace, cursor_trace, aligned.cursor]
  events := by
    rw [events_trace, events_trace]
    exact view _ _ aligned.events

/-- Two messages that are traced alike keep machines together if they keep the events together. -/
theorem aligned_trace {settings : Settings} {F : Forest → Forest → Prop}
    {V : List Event → List Event → Prop} {E : Stop → Stop → Prop} {N : Stop → Prop}
    {message message' : Message}
    (level : message.level = message'.level)
    (taken : settings.streams.take (.traced message) = settings.streams.take (.traced message'))
    (refused : E (.fault (.unencodable message.text)) (.fault (.unencodable message'.text)))
    (view : ∀ l l' : List Event, V l l' →
      V (traced settings message l) (traced settings message' l')) :
    InStep (Aligned F V) E N (fun _ => True) (trace settings message)
      (trace settings message') := by
  apply InStep.of
  intro m m' aligned
  by_cases takes : settings.streams.take (.traced message) = true
  · rw [trace_of_taken takes, trace_of_taken (taken ▸ takes)]
    exact ⟨⟨rfl, trivial⟩, aligned.trace view⟩
  · by_cases reached : message.level ≤ settings.verbosity
    · rw [trace_of_refused reached takes, trace_of_refused (level ▸ reached) (taken ▸ takes)]
      exact ⟨refused, aligned⟩
    · rw [trace_of_unreached reached, trace_of_unreached (level ▸ reached)]
      exact ⟨⟨rfl, trivial⟩, aligned⟩

theorem aligned_traceValue {settings : Settings} {F : Forest → Forest → Prop}
    {V : List Event → List Event → Prop} {E : Stop → Stop → Prop} {N : Stop → Prop} {v : Value}
    {message message' : Text → Message}
    (unsaid : ∀ f, v.toText = .error f → E (.fault f) (.fault f))
    (levels : ∀ shown, (message shown).level = (message' shown).level)
    (taken : ∀ shown, settings.streams.take (.traced (message shown)) =
      settings.streams.take (.traced (message' shown)))
    (refused : ∀ shown, E (.fault (.unencodable (message shown).text))
      (.fault (.unencodable (message' shown).text)))
    (view : ∀ (shown : Text) (l l' : List Event), V l l' →
      V (traced settings (message shown) l) (traced settings (message' shown) l'))
    (level : Nat) :
    InStep (Aligned F V) E N (fun _ => True) (traceValue settings level v message)
      (traceValue settings level v message') := by
  unfold traceValue
  split
  · exact (InStep.toText unsaid).bind fun shown _ =>
      aligned_trace (levels shown) (taken shown) (refused shown) (view shown)
  · exact .pure trivial

/-- What is asked of two settings, of the tokens of two trees and of the ways in which scopes,
events and stops go together, so that the scopes of the runs stay together. The names of variables
in the second run are those of the first one, changed by `rename`. -/
structure Alignment (occurs : Token → Prop) (settings settings' : Settings)
    (names operators : Token → Token) (rename : Name → Name) (F : Forest → Forest → Prop)
    (V : List Event → List Event → Prop) (E : Stop → Stop → Prop) (N : Stop → Prop)
    (P : Value → Prop) : Prop where
  strict : settings.strict = settings'.strict
  output : settings.streams.output = settings'.streams.output
  kind : ∀ operator : Token, (operators operator).kind = operator.kind
  named : ∀ name : Token, occurs name →
    Name.ofJson (names name).text = (Name.ofJson name.text).map rename
  unfinished : E .unfinished .unfinished
  unhashable : ∀ kind : String, E (.fault (.unhashable kind)) (.fault (.unhashable kind))
  unsaid : ∀ (v : Value) (f : Fault), P v → v.toText = .error f → E (.fault f) (.fault f)
  unencodable : ∀ shown : Text, E (.fault (.unencodable shown)) (.fault (.unencodable shown))
  undefined : ∀ name : Token, occurs name →
    E (.fault (.report (.undefinedVariable name.display (some name.line))))
      (.fault (.report (.undefinedVariable (names name).display (some (names name).line))))
  unary : ∀ (operator : Token) (v : Value), P v →
    EndsAlike E P ((Value.applyUnary operator v).mapError Stop.fault)
      ((Value.applyUnary (operators operator) v).mapError Stop.fault)
  binary : ∀ (operator : Token) (a b : Value), P a → P b →
    EndsAlike E P ((Value.applyBinary operator a b).mapError Stop.fault)
      ((Value.applyBinary (operators operator) a b).mapError Stop.fault)
  literal : ∀ value : Literal, P (.ofLiteral value)
  size : ∀ f f' : Forest, F f f' → f.size = f'.size
  depth : ∀ (f f' : Forest) (env : ScopeId), F f f' → f.depth env = f'.depth env
  resolve : ∀ (f f' : Forest) (env : ScopeId) (name : Token) (key : Name), F f f' → occurs name →
    Name.ofJson name.text = .ok key → f.resolve env key = f'.resolve env (rename key)
  get? : ∀ (f f' : Forest) (env : ScopeId) (name : Token) (key : Name), F f f' → occurs name →
    Name.ofJson name.text = .ok key → f.get? env key = f'.get? env (rename key)
  bound : ∀ (f f' : Forest) (env : ScopeId) (key : Name) (v : Value), F f f' →
    f.get? env key = some v → P v
  define : ∀ (f f' : Forest) (env : ScopeId) (key : Name) (v : Value), F f f' → P v →
    F (f.define env key v) (f'.define env (rename key) v)
  push : ∀ (f f' : Forest) (env : ScopeId), F f f' → F (f.push (some env)) (f'.push (some env))
  printed : ∀ (shown : Text) (l l' : List Event), V l l' →
    V (l ++ [.printed shown]) (l' ++ [.printed shown])
  trace : ∀ (message : Message) (l l' : List Event), V l l' →
    V (traced settings message l) (traced settings' message l')
  reveals : ∀ (level : Nat) (v : Value) (message : Text → Message), P v →
    (∀ shown, (message shown).level = level) →
      InStep (Aligned F V) E N (fun _ => True) (traceValue settings level v message)
        (traceValue settings' level v message)
  assigned : ∀ (name : Token) (v : Value), occurs name → P v →
    InStep (Aligned F V) E N (fun _ => True) (traceValue settings 2 v (.assigned name.display))
      (traceValue settings' 2 v (.assigned (names name).display))
  declared : ∀ (name : Token) (v : Value), occurs name → P v →
    InStep (Aligned F V) E N (fun _ => True) (traceValue settings 2 v (.declared name.display))
      (traceValue settings' 2 v (.declared (names name).display))

namespace Alignment

variable {occurs : Token → Prop} {settings settings' : Settings} {names operators : Token → Token}
  {rename : Name → Name} {F : Forest → Forest → Prop} {V : List Event → List Event → Prop}
  {E : Stop → Stop → Prop} {N : Stop → Prop} {P : Value → Prop}

theorem nameOf {α : Type} {Q : α → Prop} {f g : Name → Action α}
    (align : Alignment occurs settings settings' names operators rename F V E N P) {name : Token}
    (occur : occurs name) (h : ∀ key, Name.ofJson name.text = .ok key →
      InStep (Aligned F V) E N Q (f key) (g (rename key))) :
    InStep (Aligned F V) E N Q (nameOf name >>= f) (nameOf (names name) >>= g) := by
  unfold Action.nameOf
  rw [align.named name occur]
  cases found : Name.ofJson name.text with
  | ok key => exact h key found
  | error kind =>
    have stops := @InStep.stop Name (Aligned F V) E N (fun _ => False) _ _ (align.unhashable kind)
    exact stops.bind fun _ => False.elim

theorem readVariable (align : Alignment occurs settings settings' names operators rename F V E N P)
    (env : ScopeId) (name : Token) (occur : occurs name) :
    InStep (Aligned F V) E N P (readVariable settings env name)
      (readVariable settings' env (names name)) := by
  refine align.nameOf occur fun key named => ?_
  have found : InStep (Aligned F V) E N (fun v? => ∀ v ∈ v?, P v)
      (Action.read fun m => m.scopes.get? env key)
      (Action.read fun m => m.scopes.get? env (rename key)) := by
    apply InStep.read
    intro m m' aligned
    refine ⟨align.get? _ _ env name key aligned.scopes occur named, ?_⟩
    intro v bound
    exact align.bound _ _ env key v aligned.scopes bound
  refine found.bind fun v? known => ?_
  cases v? with
  | some v => exact .pure (known v rfl)
  | none =>
    dsimp only
    rw [align.strict]
    split
    · exact .stop (align.undefined name occur)
    · exact .pure (align.literal .null)

theorem defined (align : Alignment occurs settings settings' names operators rename F V E N P)
    (env : ScopeId) (key : Name) {v : Value} (known : P v) :
    InStep (Aligned F V) E N (fun _ => True)
      (update fun m => { m with scopes := m.scopes.define env key v })
      (update fun m => { m with scopes := m.scopes.define env (rename key) v }) := by
  apply InStep.update
  intro m m' aligned
  exact ⟨align.define _ _ env key v aligned.scopes known, aligned.cursor, aligned.events⟩

theorem assignVariable
    (align : Alignment occurs settings settings' names operators rename F V E N P)
    (env : ScopeId) (name : Token) (v : Value) (occur : occurs name) (known : P v) :
    InStep (Aligned F V) E N (fun _ => True) (assignVariable settings env name v)
      (assignVariable settings' env (names name) v) := by
  refine align.nameOf occur fun key named => ?_
  have found : InStep (Aligned F V) E N (fun _ => True)
      (Action.read fun m => m.scopes.resolve env key)
      (Action.read fun m => m.scopes.resolve env (rename key)) := by
    apply InStep.read
    intro m m' aligned
    exact ⟨align.resolve _ _ env name key aligned.scopes occur named, trivial⟩
  refine found.bind fun scope? _ => ?_
  have shown := align.assigned name v occur known
  cases scope? with
  | some scope => exact (align.defined scope key known).bind fun _ _ => shown
  | none =>
    have stops := @InStep.stop Unit (Aligned F V) E N (fun _ => True) _ _
      (align.undefined name occur)
    exact stops.bind fun _ _ => shown

theorem declareVariable
    (align : Alignment occurs settings settings' names operators rename F V E N P)
    (env : ScopeId) (name : Token) (v : Value) (occur : occurs name) (known : P v) :
    InStep (Aligned F V) E N (fun _ => True) (declareVariable settings env name v)
      (declareVariable settings' env (names name) v) :=
  align.nameOf occur fun key _ => (align.defined env key known).bind fun _ _ =>
    align.declared name v occur known

theorem print (align : Alignment occurs settings settings' names operators rename F V E N P)
    (v : Value) (known : P v) : InStep (Aligned F V) E N (fun _ => True)
      (lift v.toText >>= fun shown => send settings.streams (.printed shown))
      (lift v.toText >>= fun shown => send settings'.streams (.printed shown)) := by
  refine (InStep.toText (align.unsaid v · known)).bind fun shown _ => ?_
  have same : settings.streams.take (.printed shown) = settings'.streams.take (.printed shown) :=
    congrArg (Stream.takes · shown) align.output
  unfold send
  rw [← same]
  split
  · apply InStep.update
    intro m m' aligned
    refine ⟨aligned.scopes, aligned.cursor, ?_⟩
    rw [Machine.emit, Machine.emit, Array.toList_push, Array.toList_push]
    exact align.printed shown _ _ aligned.events
  · exact .stop (align.unencodable shown)

theorem within (align : Alignment occurs settings settings' names operators rename F V E N P)
    (env : ScopeId) {body body' : ScopeId → Action Unit}
    (h : ∀ inner, InStep (Aligned F V) E N (fun _ => True) (body inner) (body' inner)) :
    InStep (Aligned F V) E N (fun _ => True) (within settings env body)
      (within settings' env body') := by
  rintro m ⟨forest, cursor, events⟩ ⟨together, rfl, view⟩
  -- The new scope has one number in both runs, since there are as many scopes; its depth, which is
  -- traced, is the same as well.
  have pushed := align.push _ _ env together
  have size := align.size _ _ together
  have depth := align.depth _ _ m.scopes.size pushed
  unfold Action.within inScope entered left
  dsimp only at together size pushed depth ⊢
  rw [← size, ← depth]
  have inner : Aligned F V ⟨m.scopes.push (some env), m.scopes.size, m.events⟩
      ⟨forest.push (some env), m.scopes.size, events⟩ := ⟨pushed, rfl, view⟩
  have entered := inner.trace
    (align.trace (.entered ((m.scopes.push (some env)).depth m.scopes.size)))
  rcases h m.scopes.size _ _ entered with ⟨ends, after⟩ | early
  · refine .inl ⟨ends, Aligned.trace ?_ (align.trace _)⟩
    exact ⟨after.scopes, rfl, after.events⟩
  · exact .inr early

theorem simulation (align : Alignment occurs settings settings' names operators rename F V E N P) :
    SimulationOn occurs settings settings' names operators (Aligned F V) E N P where
  literal := align.literal
  kind := align.kind
  unfinished := align.unfinished
  unary := fun operator v known => .lift (align.unary operator v known)
  binary := fun operator a b first second => .lift (align.binary operator a b first second)
  read := align.readVariable
  assign := align.assignVariable
  declare := align.declareVariable
  reveals := align.reveals
  print := align.print
  looped := by
    intro rounds
    apply InStep.of
    intro m m' aligned
    rw [trace_looped, trace_looped]
    exact ⟨⟨rfl, trivial⟩, aligned.trace (align.trace _)⟩
  within := fun env _ _ h => align.within env h

end Alignment

/-- Machines with the same scopes, which have the property `Inv`, and the same active scope. The
events so far go together in their own way. -/
structure Beside (Inv : Forest → Prop) (V : List Event → List Event → Prop) (m m' : Machine) :
    Prop where
  scopes : m.scopes = m'.scopes
  known : Inv m.scopes
  cursor : m.cursor = m'.cursor
  events : V m.events.toList m'.events.toList

theorem beside_eq_aligned (Inv : Forest → Prop) (V : List Event → List Event → Prop) :
    Beside Inv V = Aligned (fun f f' => f = f' ∧ Inv f) V := by
  funext m m'
  apply propext
  constructor
  · rintro ⟨scopes, known, cursor, events⟩
    exact ⟨⟨scopes, known⟩, cursor, events⟩
  · rintro ⟨⟨scopes, known⟩, cursor, events⟩
    exact ⟨scopes, known, cursor, events⟩

theorem Beside.trace {settings settings' : Settings} {Inv : Forest → Prop}
    {V : List Event → List Event → Prop} {m m' : Machine} (beside : Beside Inv V m m')
    {message : Message} (view : ∀ l l' : List Event, V l l' →
      V (traced settings message l) (traced settings' message l')) :
    Beside Inv V (m.trace settings message) (m'.trace settings' message) := by
  rw [beside_eq_aligned] at beside ⊢
  exact beside.trace view

/-- What is asked of two settings, of the tokens of two trees and of the ways in which events and
stops go together, so that the runs of the trees have the same scopes. -/
structure SameScopes (settings settings' : Settings) (names operators : Token → Token)
    (Inv : Forest → Prop) (V : List Event → List Event → Prop) (E : Stop → Stop → Prop)
    (N : Stop → Prop) (P : Value → Prop) : Prop where
  strict : settings.strict = settings'.strict
  output : settings.streams.output = settings'.streams.output
  text : ∀ name : Token, (names name).text = name.text
  kind : ∀ operator : Token, (operators operator).kind = operator.kind
  unfinished : E .unfinished .unfinished
  unhashable : ∀ kind : String, E (.fault (.unhashable kind)) (.fault (.unhashable kind))
  unsaid : ∀ (v : Value) (f : Fault), P v → v.toText = .error f → E (.fault f) (.fault f)
  unencodable : ∀ shown : Text, E (.fault (.unencodable shown)) (.fault (.unencodable shown))
  undefined : ∀ name : Token,
    E (.fault (.report (.undefinedVariable name.display (some name.line))))
      (.fault (.report (.undefinedVariable name.display (some (names name).line))))
  unary : ∀ (operator : Token) (v : Value), P v →
    EndsAlike E P ((Value.applyUnary operator v).mapError Stop.fault)
      ((Value.applyUnary (operators operator) v).mapError Stop.fault)
  binary : ∀ (operator : Token) (a b : Value), P a → P b →
    EndsAlike E P ((Value.applyBinary operator a b).mapError Stop.fault)
      ((Value.applyBinary (operators operator) a b).mapError Stop.fault)
  literal : ∀ value : Literal, P (.ofLiteral value)
  bound : ∀ (f : Forest) (env : ScopeId) (key : Name) (v : Value), Inv f →
    f.get? env key = some v → P v
  define : ∀ (f : Forest) (env : ScopeId) (key : Name) (v : Value), Inv f → P v →
    Inv (f.define env key v)
  push : ∀ (f : Forest) (env : ScopeId), Inv f → Inv (f.push (some env))
  printed : ∀ (shown : Text) (l l' : List Event), V l l' →
    V (l ++ [.printed shown]) (l' ++ [.printed shown])
  trace : ∀ (message : Message) (l l' : List Event), V l l' →
    V (traced settings message l) (traced settings' message l')
  reveals : ∀ (level : Nat) (v : Value) (message : Text → Message), P v →
    (∀ shown, (message shown).level = level) →
      InStep (Beside Inv V) E N (fun _ => True) (traceValue settings level v message)
        (traceValue settings' level v message)

namespace SameScopes

variable {settings settings' : Settings} {names operators : Token → Token} {Inv : Forest → Prop}
  {V : List Event → List Event → Prop} {E : Stop → Stop → Prop} {N : Stop → Prop}
  {P : Value → Prop}

theorem display (same : SameScopes settings settings' names operators Inv V E N P) (name : Token) :
    (names name).display = name.display := by
  rw [Token.display, Token.display, same.text]

/-- Scopes that are the same go together, and every variable keeps its name. -/
theorem alignment (same : SameScopes settings settings' names operators Inv V E N P) :
    Alignment (fun _ => True) settings settings' names operators id (fun f f' => f = f' ∧ Inv f) V
      E N P where
  strict := same.strict
  output := same.output
  kind := same.kind
  named := by
    intro name _
    rw [same.text, Except.map_id, id]
  unfinished := same.unfinished
  unhashable := same.unhashable
  unsaid := same.unsaid
  unencodable := same.unencodable
  undefined := by
    intro name _
    rw [same.display]
    exact same.undefined name
  unary := same.unary
  binary := same.binary
  literal := same.literal
  size := fun _ _ together => by rw [together.1]
  depth := fun _ _ _ together => by rw [together.1]
  resolve := fun _ _ _ _ _ together _ _ => by rw [together.1, id]
  get? := fun _ _ _ _ _ together _ _ => by rw [together.1, id]
  bound := fun f _ env key v together => same.bound f env key v together.2
  define := fun f _ env key v together known =>
    ⟨by rw [together.1, id], same.define f env key v together.2 known⟩
  push := fun f _ env together => ⟨by rw [together.1], same.push f env together.2⟩
  printed := same.printed
  trace := same.trace
  reveals := by
    rw [← beside_eq_aligned]
    exact same.reveals
  assigned := by
    intro name v _ known
    rw [← beside_eq_aligned, same.display]
    exact same.reveals 2 v _ known fun _ => rfl
  declared := by
    intro name v _ known
    rw [← beside_eq_aligned, same.display]
    exact same.reveals 2 v _ known fun _ => rfl

theorem simulation (same : SameScopes settings settings' names operators Inv V E N P) :
    Simulation settings settings' names operators (Beside Inv V) E N P := by
  rw [beside_eq_aligned]
  have sim := same.alignment.simulation
  exact ⟨sim.toSteps, fun env name => sim.read env name trivial,
    fun env name v => sim.assign env name v trivial,
    fun env name v => sim.declare env name v trivial⟩

theorem runProgram (same : SameScopes settings settings' id id Inv V E N P)
    (stops : ∀ s s', E s s' → s = s') (limit : Nat) (p : Program) :
    InStep (Beside Inv V) E N (fun _ => True) (runProgram settings limit p)
      (runProgram settings' limit p) := by
  have all := same.simulation.executeAll limit globalScope p.statements
  rw [Stmt.mapTokensAll_id] at all
  exact all.running stops fun message _ _ beside => beside.trace (same.trace message)

end SameScopes

/-- What may stop a run from plain values. -/
def Expected : Stop → Prop
  | .unfinished => True
  | .fault (.report r) => r.name = "TypeError" ∨ r.name = "UndefinedVariable"
  | .fault (.unhashable _) | .fault (.unencodable _) => True
  | .fault _ => False

theorem Fine.expected {risks : Risks} {ts : List Token} {s : Stop} (fine : Fine risks ts s) :
    Expected s := by
  cases s with
  | unfinished => trivial
  | fault f =>
    cases f with
    | report r => exact fine.1
    | unhashable | unencodable => trivial
    | _ => exact fine.elim

theorem Ends.alike {α : Type} {risks : Risks} {ts : List Token} {P : α → Prop}
    {r : Except Stop α} (ends : Ends risks ts P r) :
    EndsAlike (fun s s' => s = s' ∧ Expected s) P r r := by
  cases r with
  | ok a => exact ⟨rfl, ends⟩
  | error s => exact ⟨rfl, Fine.expected ends⟩

theorem traceValue_eq {v : Value} {shown : Text} {level : Nat} {message : Text → Message}
    (text : v.toText = .ok shown) (levels : ∀ shown, (message shown).level = level)
    (settings : Settings) :
    traceValue settings level v message = trace settings (message shown) := by
  unfold traceValue
  rw [text]
  split
  · rfl
  · next above =>
    funext m
    rw [trace_of_unreached (by rwa [levels])]
    rfl

/-- From plain values, runs of one tree keep to the same scopes, and the values stay plain, if the
events go together and values are told alike. -/
theorem sameScopes_plain {settings settings' : Settings} {V : List Event → List Event → Prop}
    {N : Stop → Prop}
    (strict : settings.strict = settings'.strict)
    (output : settings.streams.output = settings'.streams.output)
    (printed : ∀ (shown : Text) (l l' : List Event), V l l' →
      V (l ++ [.printed shown]) (l' ++ [.printed shown]))
    (trace : ∀ (message : Message) (l l' : List Event), V l l' →
      V (traced settings message l) (traced settings' message l'))
    (reveals : ∀ (level : Nat) (v : Value) (message : Text → Message), v.Plain True →
      (∀ shown, (message shown).level = level) →
        InStep (Beside (Forest.Plain True) V) (fun s s' => s = s' ∧ Expected s) N (fun _ => True)
          (traceValue settings level v message) (traceValue settings' level v message)) :
    SameScopes settings settings' id id (Forest.Plain True) V (fun s s' => s = s' ∧ Expected s) N
      (Value.Plain True) where
  strict := strict
  output := output
  text := fun _ => rfl
  kind := fun _ => rfl
  unfinished := ⟨rfl, trivial⟩
  unhashable := fun _ => ⟨rfl, trivial⟩
  unsaid := by
    intro v f plain failed
    obtain ⟨shown, text, -⟩ := Value.toText_of_plain plain
    rw [text] at failed
    cases failed
  unencodable := fun _ => ⟨rfl, trivial⟩
  undefined := fun _ => ⟨rfl, .inr rfl⟩
  unary := fun operator v plain =>
    Ends.alike (@sound_applyUnary ⟨True, True, True⟩ [operator] operator v List.mem_cons_self plain)
  binary := fun operator a b first second =>
    Ends.alike (@sound_applyBinary ⟨True, True, True⟩ [operator] operator a b List.mem_cons_self
      first second)
  literal := fun _ => Value.plain_ofLiteral (.inr trivial)
  bound := fun _ _ _ _ plain found => Forest.plain_of_get? plain found
  define := fun _ env key _ plain known => Forest.plain_define plain env key known
  push := fun _ env plain => Forest.plain_push plain (some env)
  printed := printed
  trace := trace
  reveals := reveals

end TreeWalk.Run
