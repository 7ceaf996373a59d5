import TreeWalk.Proofs.Run.Verbosity

/-!
What tokens tell beside names and operators is for reports alone. Trees whose names have the same
texts and whose operators are of the same kinds run through the same scopes and add the same events;
where one run stops the other one does, with a report of the same name.
-/

set_option autoImplicit false

namespace TreeWalk.Run

open TreeWalk.Run.Action

/-- The same stop, but for the line of a report and for the message of one that is not about a
variable. -/
def Stop.Alike : Stop → Stop → Prop
  | .fault (.report r), .fault (.report r') =>
    r.name = r'.name ∧ (r.name = "UndefinedVariable" → r.message = r'.message)
  | s, s' => s = s'

theorem Stop.Alike.refl (s : Stop) : s.Alike s := by
  unfold Stop.Alike
  split
  · exact ⟨rfl, fun _ => rfl⟩
  · rfl

theorem EndsAlike.refl {α : Type} {E : Stop → Stop → Prop} (same : ∀ s, E s s)
    (r : Except Stop α) : EndsAlike E (fun _ => True) r r := by
  cases r with
  | ok a => exact ⟨rfl, trivial⟩
  | error s => exact same s

theorem alike_mistyped (operator operator' : Token) (detail detail' : Text) :
    EndsAlike Stop.Alike (fun _ : Value => True)
      ((Value.mistyped operator detail).mapError Stop.fault)
      ((Value.mistyped operator' detail').mapError Stop.fault) := by
  refine ⟨rfl, ?_⟩
  intro named
  simp [Report.typeError] at named

theorem alike_shown {r : Except Fault Text} {f g : Text → Except Fault Value}
    (h : ∀ shown, EndsAlike Stop.Alike (fun _ => True) ((f shown).mapError Stop.fault)
      ((g shown).mapError Stop.fault)) :
    EndsAlike Stop.Alike (fun _ => True) ((r >>= f).mapError Stop.fault)
      ((r >>= g).mapError Stop.fault) := by
  cases r with
  | ok shown => exact h shown
  | error f => exact Stop.Alike.refl _

theorem alike_applyUnary {operator operator' : Token} (kind : operator'.kind = operator.kind)
    (v : Value) : EndsAlike Stop.Alike (fun _ => True)
      ((Value.applyUnary operator v).mapError Stop.fault)
      ((Value.applyUnary operator' v).mapError Stop.fault) := by
  unfold Value.applyUnary
  rw [kind]
  split
  · exact .refl .refl _
  · exact .refl .refl _
  · exact alike_shown fun _ => alike_mistyped operator operator' _ _

theorem alike_applyBinary {operator operator' : Token} (kind : operator'.kind = operator.kind)
    (a b : Value) : EndsAlike Stop.Alike (fun _ => True)
      ((Value.applyBinary operator a b).mapError Stop.fault)
      ((Value.applyBinary operator' a b).mapError Stop.fault) := by
  unfold Value.applyBinary
  rw [kind]
  split
  · exact .refl .refl _
  · exact .refl .refl _
  · exact .refl .refl _
  · exact .refl .refl _
  · exact .refl .refl _
  · split
    · exact .refl .refl _
    · exact alike_mistyped operator operator' _ _
  · split
    · exact alike_shown fun _ => alike_shown fun _ => alike_mistyped operator operator' _ _
    · exact alike_mistyped operator operator' _ _

/-- The same events came after those of two runs so far, and no message that the verbosity does not
reach is among them. -/
def Added (settings : Settings) (before before' l l' : List Event) : Prop :=
  ∃ added, l = before ++ added ∧ l' = before' ++ added ∧
    ∀ e ∈ added, e.visible settings.verbosity = true

theorem Added.refl (settings : Settings) (before before' : List Event) :
    Added settings before before' before before' :=
  ⟨[], by simp, by simp, by simp⟩

theorem Added.push {settings : Settings} {before before' l l' : List Event}
    (h : Added settings before before' l l') {e : Event}
    (visible : e.visible settings.verbosity = true) :
    Added settings before before' (l ++ [e]) (l' ++ [e]) := by
  obtain ⟨added, rfl, rfl, all⟩ := h
  refine ⟨added ++ [e], List.append_assoc _ _ _, List.append_assoc _ _ _, ?_⟩
  rw [List.forall_mem_append, List.forall_mem_singleton]
  exact ⟨all, visible⟩

theorem Added.traced {settings : Settings} {before before' l l' : List Event}
    (h : Added settings before before' l l') (message : Message) :
    Added settings before before' (traced settings message l) (traced settings message l') := by
  unfold Run.traced
  split
  · next reached => exact h.push (decide_eq_true reached)
  · exact h

/-- Runs of trees that differ in what is for reports alone keep to the same scopes. -/
theorem sameScopes_tokens (settings : Settings) {names operators : Token → Token}
    (text : ∀ t, (names t).text = t.text) (kind : ∀ t, (operators t).kind = t.kind)
    (before before' : List Event) :
    SameScopes settings settings names operators (fun _ => True) (Added settings before before')
      Stop.Alike Never (fun _ => True) where
  strict := rfl
  output := rfl
  text := text
  kind := kind
  unfinished := .refl _
  unhashable := fun _ => .refl _
  unsaid := fun _ _ _ _ => .refl _
  unencodable := fun _ => .refl _
  undefined := fun _ => ⟨rfl, fun _ => rfl⟩
  unary := fun operator v _ => alike_applyUnary (kind operator) v
  binary := fun operator a b _ _ => alike_applyBinary (kind operator) a b
  literal := fun _ => trivial
  bound := fun _ _ _ _ _ _ => trivial
  define := fun _ _ _ _ _ _ => trivial
  push := fun _ _ _ => trivial
  printed := fun _ _ _ added => added.push rfl
  trace := fun message _ _ added => added.traced message
  reveals := by
    intro level v message _ _
    rw [beside_eq_aligned]
    exact aligned_traceValue (fun f _ => .refl _) (fun _ => rfl) (fun _ => rfl)
      (fun _ => .refl _) (fun shown _ _ added => added.traced _) level

theorem executeAll_append (settings : Settings) (limit : Nat) (env : ScopeId)
    (first second : List Stmt) :
    executeAll settings limit env (first ++ second) =
      executeAll settings limit env first >>= fun _ => executeAll settings limit env second := by
  funext m
  induction first generalizing m with
  | nil => rw [List.nil_append, executeAll]; rfl
  | cons s first ih =>
    rw [List.cons_append, executeAll, executeAll, bind_apply, bind_apply, bind_apply]
    generalize execute settings limit env s m = after
    obtain ⟨result, n⟩ := after
    cases result with
    | ok _ => exact ih n
    | error _ => rfl

theorem running_eq_ok_iff {settings : Settings} {body : Action Unit} {m m' : Machine} :
    running settings body m = (.ok (), m') ↔
      ∃ n, body (m.trace settings .started) = (.ok (), n) ∧ m' = n.trace settings .finished := by
  unfold running
  constructor
  · intro h
    split at h
    · next n ran => exact ⟨n, ran, (Prod.mk.inj h).2.symm⟩
    · cases (Prod.mk.inj h).1
    · cases (Prod.mk.inj h).1
  · rintro ⟨n, ran, rfl⟩
    rw [ran]

theorem act_eq_ok {s : Session} {settings : Settings} {body : Action Unit} {events : List Event}
    {session : Session} (h : s.act (running settings body) = (.ok (), events, session)) :
    ∃ n, body (Machine.trace settings .started s.ready) = (.ok (), n) ∧
      events = (n.trace settings .finished).events.toList ∧
      session = { s with machine := n.trace settings .finished } := by
  generalize ran : running settings body s.ready = after at h
  obtain ⟨result, m⟩ := after
  rw [Session.act, ran] at h
  cases h
  obtain ⟨n, ends, rfl⟩ := running_eq_ok_iff.1 ran
  exact ⟨n, ends, rfl, rfl⟩

theorem visible_traced {settings : Settings} {events : List Event}
    (visible : ∀ e ∈ events, e.visible settings.verbosity = true) (message : Message) :
    ∀ e ∈ traced settings message events, e.visible settings.verbosity = true := by
  unfold traced
  split
  · next reached =>
    rw [List.forall_mem_append, List.forall_mem_singleton]
    exact ⟨visible, decide_eq_true reached⟩
  · exact visible

theorem printed_traced (settings : Settings) (message : Message) (events : List Event) :
    (traced settings message events).filterMap Event.printed? =
      events.filterMap Event.printed? := by
  unfold traced
  split
  · rw [List.filterMap_append]
    exact List.append_nil _
  · rfl

theorem printed_closing (settings : Settings) (result : Except Stop Unit) :
    (closing settings result).filterMap Event.printed? = [] := by
  unfold closing
  cases lastWord? result with
  | none => rfl
  | some message => exact printed_traced settings message []

theorem visible_closing (settings : Settings) (result : Except Stop Unit) :
    ∀ e ∈ closing settings result, e.visible settings.verbosity = true := by
  have none : ∀ e ∈ ([] : List Event), e.visible settings.verbosity = true := by simp
  unfold closing
  cases lastWord? result with
  | none => exact none
  | some message => exact visible_traced none message

theorem textOf_append (lines lines' : List Text) :
    textOf (lines ++ lines') = textOf lines ++ textOf lines' :=
  List.flatMap_append

/-- The session runs at the settings and stands where the machine does. The file of its trace is
open if it traces at all. -/
structure Session.At (s : Session) (settings : Settings) (m : Machine) : Prop where
  same : s.settings = settings
  tracing : s.tracing = decide (0 < settings.verbosity)
  scopes : s.machine.scopes = m.scopes
  cursor : s.machine.cursor = m.cursor

theorem Session.At.output {s : Session} {settings : Settings} {m : Machine} (here : s.At settings m)
    {events : List Event} (visible : ∀ e ∈ events, e.visible settings.verbosity = true) :
    s.output events = textOf (events.filterMap Event.printed?) := by
  apply Session.output_eq
  by_cases traces : 0 < settings.verbosity
  · exact .inl (here.tracing.trans (decide_eq_true traces))
  · right
    rw [messages, List.filterMap_eq_nil_iff]
    intro e member
    cases e with
    | printed text => rfl
    | traced message =>
      have reached := of_decide_eq_true (visible _ member)
      have positive := message.level_pos
      omega

/-- What a run has printed where its statements end well, given what they added. -/
theorem Session.At.output_run {s : Session} {settings : Settings} {m n : Machine}
    (here : s.At settings m) {added : List Event}
    (ends : n.events.toList = traced settings .started [] ++ added)
    (visible : ∀ e ∈ added, e.visible settings.verbosity = true) :
    s.output (n.trace settings .finished).events.toList =
      textOf (added.filterMap Event.printed?) := by
  have all : ∀ e ∈ n.events.toList, e.visible settings.verbosity = true := by
    rw [ends, List.forall_mem_append]
    exact ⟨visible_traced (by simp) .started, visible⟩
  rw [events_trace, here.output (visible_traced all .finished), printed_traced, ends,
    List.filterMap_append, printed_traced]
  rfl

/-- A session runs a program as a machine beside it runs one that differs in what is for reports
alone, if that run ends well. -/
theorem Session.At.act {settings : Settings} {limit : Nat} {p : Program} {s : Session}
    {m m' : Machine} (here : s.At settings m) {names operators : Token → Token}
    (text : ∀ t, (names t).text = t.text) (kind : ∀ t, (operators t).kind = t.kind)
    (ran : executeAll settings limit globalScope (p.mapTokens names operators).statements m =
      (.ok (), m')) :
    ∃ events session added, s.act (runProgram s.settings limit p) = (.ok (), events, session) ∧
      session.At settings m' ∧ session.output events = textOf (added.filterMap Event.printed?) ∧
      m'.events.toList = m.events.toList ++ added ∧
      ∀ e ∈ added, e.visible settings.verbosity = true := by
  obtain rfl := here.same
  have same := sameScopes_tokens s.settings text kind (traced s.settings .started [])
    m.events.toList
  have all := same.simulation.executeAll limit globalScope p.statements
  -- The session's own run starts with a message and no events; the other one is under way.
  have beside : Beside (fun _ => True)
      (Added s.settings (traced s.settings .started []) m.events.toList)
      (Machine.trace s.settings .started s.ready) m := by
    refine ⟨?_, trivial, ?_, ?_⟩
    · exact (scopes_trace _ _ _).trans here.scopes
    · exact (cursor_trace _ _ _).trans here.cursor
    · rw [events_trace]
      exact .refl _ _ _
  have ends := all.ends _ _ beside
  obtain ⟨scopes, -, cursor, added, first, second, visible⟩ := all.keeps _ _ beside
  rw [Program.mapTokens] at ran
  rw [ran] at ends scopes cursor second
  generalize after : executeAll s.settings limit globalScope p.statements
    (Machine.trace s.settings .started s.ready) = outcome
    at ends scopes cursor first
  obtain ⟨result, n⟩ := outcome
  cases result with
  | error stop => exact ends.elim
  | ok _ =>
    have run : runProgram s.settings limit p s.ready =
        (.ok (), n.trace s.settings .finished) := running_eq_ok_iff.2 ⟨n, after, rfl⟩
    have stands : Session.At { s with machine := n.trace s.settings .finished } s.settings m' :=
      ⟨rfl, here.tracing, by rw [scopes_trace, scopes], by rw [cursor_trace, cursor]⟩
    refine ⟨_, _, added, ?_, stands, stands.output_run first visible, second, visible⟩
    rw [Session.act, run]

end TreeWalk.Run
