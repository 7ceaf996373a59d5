import TreeWalk.Proofs.Run.Diagnostics
import TreeWalk.Proofs.Run.Frames

/-!
What a run of a program depends on and what it changes. Variables that the program neither assigns
to nor declares keep their values. Variables whose names do not occur in it do not matter: from
variables that agree on the names that occur, runs print the same and end in the same way, with
variables that agree on them again.
-/

set_option autoImplicit false

namespace TreeWalk

/-- A token stands for a name that is known, if it stands for one. -/
def Token.Known (known : Name → Prop) (t : Token) : Prop := ∀ key, t.key? = some key → known key

/-- A name occurs in a program. -/
def Program.Mentions (p : Program) (name : Name) : Prop :=
  ∃ t ∈ Stmt.namesAll p.statements, t.key? = some name

namespace Run

open TreeWalk.Run.Action

/-- Machines whose scopes agree on the names that are known, and which are the same beside that. -/
structure Matched (known : Name → Prop) (m m' : Machine) : Prop where
  scopes : m.scopes.Agree known m'.scopes
  cursor : m.cursor = m'.cursor
  events : m.events = m'.events

theorem matched_eq_aligned (known : Name → Prop) :
    Matched known = Aligned (Forest.Agree known) Eq := by
  funext m m'
  apply propext
  constructor
  · rintro ⟨scopes, cursor, events⟩
    exact ⟨scopes, cursor, by rw [events]⟩
  · rintro ⟨scopes, cursor, events⟩
    exact ⟨scopes, cursor, Array.toList_inj.1 events⟩

theorem Matched.trace {known : Name → Prop} {settings : Settings} {m m' : Machine}
    (matched : Matched known m m') (message : Message) :
    Matched known (m.trace settings message) (m'.trace settings message) := by
  rw [matched_eq_aligned] at matched ⊢
  exact matched.trace fun _ _ same => by rw [same]

theorem EndsAlike.eq {α : Type} {P : α → Prop} {r r' : Except Stop α}
    (alike : EndsAlike Eq P r r') : r = r' := by
  match r, r', alike with
  | .ok a, .ok _, ⟨rfl, _⟩ => rfl
  | .error s, .error _, rfl => rfl

theorem agree_traceValue {F : Forest → Forest → Prop} (settings : Settings) (level : Nat)
    (v : Value) (message : Text → Message) :
    InStep (Aligned F Eq) Eq Never (fun _ => True) (traceValue settings level v message)
      (traceValue settings level v message) :=
  aligned_traceValue (fun _ _ => rfl) (fun _ => rfl) (fun _ => rfl) (fun _ => rfl)
    (fun _ _ _ same => by rw [same]) level

/-- Scopes that agree on the names that are known go together, where no variables occur but known
ones. -/
theorem alignment_agree (settings : Settings) (known : Name → Prop) :
    Alignment (Token.Known known) settings settings id id id (Forest.Agree known) Eq Eq
      Never (fun _ => True) where
  strict := rfl
  output := rfl
  kind := fun _ => rfl
  named := by
    intro name _
    rw [Except.map_id, id, id]
  unfinished := rfl
  unhashable := fun _ => rfl
  unsaid := fun _ _ _ _ => rfl
  unencodable := fun _ => rfl
  undefined := fun _ _ => rfl
  unary := fun _ _ _ => .refl (fun _ => rfl) _
  binary := fun _ _ _ _ _ => .refl (fun _ => rfl) _
  literal := fun _ => trivial
  size := fun _ _ agree => agree.size
  depth := fun _ _ env agree => agree.depth env
  resolve := fun _ _ env name key agree inside named =>
    agree.resolve env (inside key (by rw [Token.key?, named]; rfl))
  get? := fun _ _ env name key agree inside named =>
    agree.get? env (inside key (by rw [Token.key?, named]; rfl))
  bound := fun _ _ _ _ _ _ _ => trivial
  define := fun _ _ env key v agree _ => agree.define env key v
  push := fun _ _ env agree => agree.push (some env)
  printed := fun _ _ _ same => by rw [same]
  trace := fun _ _ _ same => by rw [same]
  reveals := fun level v message _ _ => agree_traceValue settings level v message
  assigned := fun _ v _ _ => agree_traceValue settings 2 v _
  declared := fun _ v _ _ => agree_traceValue settings 2 v _

theorem simulation_matched (settings : Settings) (known : Name → Prop) :
    SimulationOn (Token.Known known) settings settings id id (Matched known) Eq Never
      (fun _ => True) := by
  rw [matched_eq_aligned]
  exact (alignment_agree settings known).simulation

theorem matched_runProgram (settings : Settings) (limit : Nat) (p : Program) :
    InStep (Matched p.Mentions) Eq Never (fun _ => True) (runProgram settings limit p)
      (runProgram settings limit p) := by
  have body := (simulation_matched settings p.Mentions).executeAll limit globalScope p.statements
    fun t member key named => ⟨t, member, named⟩
  rw [Stmt.mapTokensAll_id] at body
  exact body.running (fun _ _ same => same) fun message _ _ matched => matched.trace message

/-- A run of a program changes no variables but those that the program assigns to or declares, and
depends on no variables but those that are named in it. -/
theorem run_keeps_to_names (settings : Settings) (limit : Nat) (p : Program) {globals : Bindings}
    {result : Except Stop Unit} {events : List Event} {session : Session}
    (ran : (Session.holding settings globals).act (runProgram settings limit p) =
      (result, events, session)) :
    (∀ name ∉ Stmt.targetsAll p.statements, session.globals.get? name = globals.get? name) ∧
    ∀ globals' result' events' session', (∀ name, p.Mentions name →
        globals'.get? name = globals.get? name) →
      (Session.holding settings globals').act (runProgram settings limit p) =
        (result', events', session') →
      result' = result ∧ events' = events ∧ session'.output events' = session.output events ∧
        ∀ name, p.Mentions name → session'.globals.get? name = session.globals.get? name := by
  cases ran
  constructor
  · intro name other
    have confined := confined_runProgram settings limit p (.start globals)
    exact confined.writes.spares globalScope Nat.zero_lt_one name other
  · rintro globals' _ _ _ same ⟨⟩
    have started : Matched p.Mentions (.start globals') (.start globals) :=
      ⟨Forest.agree_single same, rfl, rfl⟩
    have steps := matched_runProgram settings limit p
    have ends := steps.ends _ _ started
    have after := steps.keeps _ _ started
    have events := congrArg Array.toList after.events
    refine ⟨ends.eq, events, ?_, fun name mentioned => ?_⟩
    · exact congrArg (Session.output (.holding settings globals)) events
    · exact after.scopes.values globalScope name mentioned

/-- A run reads and changes a variable inside of a block and is stopped behind it. It leaves another
variable alone, and goes as well without it. -/
theorem run_keeps_to_names_failing :
    let p : Program := ⟨[.block [.declare (.identifier "b" 1) (some (.var (.identifier "x" 1))),
      .expression (.assign (.identifier "x" 2) (.literal .null))],
      .expression (.assign (.identifier "y" 3) (.literal .null))]⟩
    let run (globals : Bindings) :=
      (Session.holding ⟨true, 2, ⟨.utf8, .utf8⟩⟩ globals).act
        (runProgram ⟨true, 2, ⟨.utf8, .utf8⟩⟩ 0 p)
    let both : Bindings := [(.text "u", .bool true), (.text "x", .bool true)]
    let alone : Bindings := [(.text "x", .bool true)]
    (run both).1 = .error (.fault (.report (.undefinedVariable "y" (some 3)))) ∧
    (run both).2.2.globals.get? (.text "u") = some (.bool true) ∧
    (run alone).1 = (run both).1 ∧ (run alone).2.1 = (run both).2.1 ∧
    (run alone).2.2.globals.get? (.text "x") = (run both).2.2.globals.get? (.text "x") := by
  intro p run both alone
  have agree : ∀ name, p.Mentions name → alone.get? name = both.get? name := by
    rintro name ⟨t, member, named⟩
    simp only [p, Stmt.namesAll, Stmt.names, Expr.names, List.append_nil, List.cons_append,
      List.nil_append, List.mem_cons, List.not_mem_nil, or_false] at member
    rcases member with rfl | rfl | rfl | rfl
    all_goals
      cases named
      rfl
  obtain ⟨spared, others⟩ := @run_keeps_to_names ⟨true, 2, ⟨.utf8, .utf8⟩⟩ 0 p both _ _ _ rfl
  obtain ⟨result, events, -, globals⟩ := others alone _ _ _ agree rfl
  have stopped : (run both).1 = .error (.fault (.report (.undefinedVariable "y" (some 3)))) := by
    cbv
  have mentioned : p.Mentions (.text "x") := ⟨.identifier "x" 1, .tail _ (.head _), rfl⟩
  exact ⟨stopped, spared (.text "u") (by decide), result, events, globals (.text "x") mentioned⟩

end Run

end TreeWalk
