import TreeWalk.CommandLine.Command
import TreeWalk.Proofs.Run.Faults

/-!
Programs do not go wrong but for halves of pairs. A run that comes to an end does so with no fault
but a report of a type or of a variable, or at a line with a half in it that its stream cannot
encode. A half comes from a document or from the variables at the start: without those, all that is
left to stop a command is a loop without an end or a directory in the place of the trace.
-/

set_option autoImplicit false

namespace TreeWalk

namespace Run

/-- A line that a stream does not take: one that is printed, or a message that is traced. -/
def Settings.Refuses (settings : Settings) (line : Text) : Prop :=
  ¬settings.streams.output.takes line = true ∨ ∃ message : Message, message.text = line ∧
    message.level ≤ settings.verbosity ∧ ¬settings.streams.log.takes line = true

/-- A run ends well or with a report on a token of its program, unless a loop goes round as often
as it may or, where halves are about, a stream refuses a line with a half in it; and its scopes bind
plain values at all times. -/
structure GoesRight (halves : Prop) (settings : Settings) (limit : Nat) (p : Program)
    (m : Machine) : Prop where
  ends : Ends ⟨True, halves, False⟩ p.tokens (fun _ => True) (runProgram settings limit p m).1
  loops : (runProgram settings limit p m).1 = .error .unfinished →
    Exhausts settings limit (.program p) m
  refused : ∀ line, (runProgram settings limit p m).1 = .error (.fault (.unencodable line)) →
    settings.Refuses line
  plain : ∀ seen, Visits settings limit (.program p) m seen → seen.scopes.Plain halves

section

variable {halves : Prop} {settings : Settings} {limit : Nat} {p : Program} {m : Machine}

theorem refuses_of_stops {task : Task} {line : Text}
    (stops : task.Stops settings limit (.fault (.unencodable line)) m) :
    settings.Refuses line := by
  obtain ⟨last, place, m', -, cause⟩ := exists_cause stops
  cases cause with
  | unprintable _ _ refused => exact .inl refused
  | untold reached refused => exact .inr ⟨_, rfl, reached, refused⟩
  | unary applied => exact absurd applied ((complains_applyUnary _ _).ne_unencodable _)
  | binary applied => exact absurd applied ((complains_applyBinary _ _ _).ne_unencodable _)
  | unsaid shown => exact absurd shown ((complains_orTooLarge _).ne_unencodable _)

theorem goesRight (names : TextNames (Stmt.namesAll p.statements)) (whole : p.Encodable ∨ halves)
    (plain : m.scopes.Plain halves) : GoesRight halves settings limit p m := by
  have parts : Parts ⟨True, halves, False⟩ p.tokens p.tokens (Stmt.namesAll p.statements)
      p.constants := parts_program (.inl names) whole
  exact {
    ends := (safe_runProgram settings limit trivial parts).ends m plain
    loops := exhausts_runProgram
    refused := fun _ => @refuses_of_stops _ _ _ (.program p) _
    plain := fun _ visits => @plain_of_visits _ _ ⟨True, halves, False⟩ _ (.program p) _ _ trivial
      visits parts plain }

theorem GoesRight.cases (right : GoesRight halves settings limit p m) :
    ∃ m' : Machine, m'.scopes.Plain halves ∧
      (runProgram settings limit p m = (.ok (), m') ∨
        (∃ r, runProgram settings limit p m = (.error (.fault (.report r)), m')) ∨
        (∃ line, runProgram settings limit p m = (.error (.fault (.unencodable line)), m') ∧
          halves) ∨
        runProgram settings limit p m = (.error .unfinished, m') ∧
          Exhausts settings limit (.program p) m) := by
  have plain : (runProgram settings limit p m).2.scopes.Plain halves :=
    right.plain _ ⟨.program p, [], m, .here _ _, .inr rfl⟩
  have ends := right.ends
  have loops := right.loops
  generalize runProgram settings limit p m = after at plain ends loops ⊢
  obtain ⟨result, m'⟩ := after
  refine ⟨m', plain, ?_⟩
  cases result with
  | ok _ => exact .inl rfl
  | error s =>
    cases s with
    | unfinished => exact .inr (.inr (.inr ⟨rfl, loops rfl⟩))
    | fault f =>
      cases f with
      | report r => exact .inr (.inl ⟨r, rfl⟩)
      | unencodable line => exact .inr (.inr (.inl ⟨line, rfl, ends.1⟩))
      | _ => exact ends.elim

end

theorem Session.act_eq {α : Type} (s : Session) (action : Action α) :
    s.act action = ((action s.ready).1, (action s.ready).2.events.toList,
      { s with machine := (action s.ready).2 }) := rfl

end Run

open Run

namespace Prompt

theorem exists_source_of_parseSnippet {source : String} {p : Program}
    (h : parseSnippet source = .ok p) : ∃ source, Source.parse source = .ok p := by
  unfold parseSnippet at h
  split at h
  · next parsed =>
    cases h
    exact ⟨_, parsed⟩
  · split at h
    · next parsed =>
      cases h
      exact ⟨_, parsed⟩
    · cases h

theorem goesRight_of_parseSnippet {source : String} {p : Program}
    (h : parseSnippet source = .ok p) {halves : Prop} {settings : Settings} {limit : Nat}
    {m : Machine} (plain : m.scopes.Plain halves) : GoesRight halves settings limit p m := by
  obtain ⟨source, parsed⟩ := exists_source_of_parseSnippet h
  exact goesRight (textNames_of_parse parsed) (.inl (encodable_of_parse parsed)) plain

namespace Dialogue

def snippet (d : Dialogue) (line : String) : String :=
  String.intercalate "\n" (d.lines ++ [line]) ++ "\n"

/-- A dialogue comes to another one as it takes the first of its inputs. -/
inductive Comes (limit : Nat) : Dialogue → List Input → Dialogue → List Input → Prop where
  | here (d : Dialogue) (inputs : List Input) : Comes limit d inputs d inputs
  | wait {d next last : Dialogue} {line : String} {inputs rest : List Input}
    (fed : d.feed limit line = .wait next) (later : Comes limit next inputs last rest) :
    Comes limit d (.line line :: inputs) last rest
  | ran {d next last : Dialogue} {turn : Turn} {line : String} {inputs rest : List Input}
    (fed : d.feed limit line = .ran turn next) (later : Comes limit next inputs last rest) :
    Comes limit d (.line line :: inputs) last rest

/-- The run of a snippet goes round in a loop as often as it may. -/
def Stays (limit : Nat) (d : Dialogue) (source : String) : Prop :=
  ∃ program, parseSnippet source = .ok program ∧
    Exhausts d.session.settings limit (.program program) d.session.ready

/-- A dialogue comes to a line whose snippet goes round in a loop as often as it may. -/
def Loops (limit : Nat) (d : Dialogue) (inputs : List Input) : Prop :=
  ∃ last line rest, Comes limit d inputs last (.line line :: rest) ∧
    last.Stays limit (last.snippet line)

/-- What may stop a dialogue: a loop, or a half that is about. -/
def Disturbs (halves loops : Prop) (s : Stop) : Prop :=
  s = .unfinished ∧ loops ∨ (∃ line, s = .fault (.unencodable line)) ∧ halves

/-- An effect that keeps all values plain. -/
def Effect.Calm (halves loops : Prop) : Effect → Prop
  | .quit => True
  | .wait next | .ran _ next => next.session.machine.scopes.Plain halves
  | .stopped _ _ s => Disturbs halves loops s

section

variable {halves : Prop} {limit : Nat} {d : Dialogue}

theorem calm_run (plain : d.session.machine.scopes.Plain halves) (source : String) :
    (d.run limit source).Calm halves (d.Stays limit source) := by
  unfold run
  split
  · exact plain
  · next program parsed =>
    have right : GoesRight halves d.session.settings limit program d.session.ready :=
      goesRight_of_parseSnippet parsed plain
    rw [Session.act_eq]
    obtain ⟨m, keeps, ran | ⟨r, ran⟩ | ⟨line, ran, about⟩ | ⟨ran, loops⟩⟩ := right.cases
    · rw [ran]
      exact keeps
    · rw [ran]
      exact keeps
    · rw [ran]
      exact .inr ⟨⟨line, rfl⟩, about⟩
    · rw [ran]
      exact .inl ⟨rfl, program, parsed, loops⟩

theorem calm_of_feed {line : String} {effect : Effect} (fed : d.feed limit line = effect)
    (plain : d.session.machine.scopes.Plain halves) :
    effect.Calm halves (d.Stays limit (d.snippet line)) := by
  subst fed
  dsimp only [feed]
  split
  · trivial
  · split
    · exact plain
    · split
      · exact plain
      · exact calm_run plain (d.snippet line)

theorem plain_of_comes {last : Dialogue} {inputs rest : List Input}
    (comes : Comes limit d inputs last rest) (plain : d.session.machine.scopes.Plain halves) :
    last.session.machine.scopes.Plain halves := by
  induction comes with
  | here => exact plain
  | wait fed _ ih => exact ih (calm_of_feed fed plain)
  | ran fed _ ih => exact ih (calm_of_feed fed plain)

/-- A dialogue is left, unless it comes to a loop without an end or to a half. -/
theorem hold_ends (plain : d.session.machine.scopes.Plain halves) (inputs : List Input) :
    (d.hold limit inputs).2.2 = .left ∨
      ∃ s, (d.hold limit inputs).2.2 = .stopped s ∧ Disturbs halves (d.Loops limit inputs) s := by
  induction inputs generalizing d with
  | nil => exact .inl rfl
  | cons input inputs ih =>
    cases input with
    | interrupt => exact .inl rfl
    | line s =>
      rw [hold]
      cases fed : d.feed limit s with
      | quit => exact .inl rfl
      | wait next =>
        refine (ih (calm_of_feed fed plain)).imp id ?_
        rintro ⟨stop, stopped, disturbs⟩
        refine ⟨stop, stopped, disturbs.imp_left (And.imp_right ?_)⟩
        rintro ⟨last, line, rest, comes, stays⟩
        exact ⟨last, line, rest, .wait fed comes, stays⟩
      | ran turn next =>
        refine (ih (calm_of_feed fed plain)).imp id ?_
        rintro ⟨stop, stopped, disturbs⟩
        refine ⟨stop, stopped, disturbs.imp_left (And.imp_right ?_)⟩
        rintro ⟨last, line, rest, comes, stays⟩
        exact ⟨last, line, rest, .ran fed comes, stays⟩
      | stopped turn session stop =>
        have disturbs : Disturbs halves _ stop := calm_of_feed fed plain
        refine .inr ⟨stop, rfl, disturbs.imp_left (And.imp_right fun stays => ?_)⟩
        exact ⟨d, s, inputs, .here _ _, stays⟩

end

end Dialogue

end Prompt

namespace CommandLine

/-- An end for no other cause than a loop, or a directory in the place of the trace. -/
def Ending.Orderly (files : Files) (loops : Prop) : Ending → Prop
  | .exit _ => True
  | .crash c => c = .directory tracePath ∧ files tracePath = some .directory
  | .unfinished => loops

theorem startSession_cases (files : Files) (settings : Settings) :
    startSession files settings = .ok (.start settings) ∨
      startSession files settings = .error (.directory tracePath) ∧
        files tracePath = some .directory := by
  unfold startSession
  dsimp only
  split
  · next occupied =>
    refine .inr ⟨rfl, ?_⟩
    simp only [writable, Bool.and_eq_true, Bool.not_eq_true', decide_eq_false_iff_not] at occupied
    exact not_not.mp occupied.2
  · exact .inl rfl

theorem plain_start (settings : Settings) : (Session.start settings).machine.scopes.Plain False :=
  Forest.plain_single plain_nil

theorem orderly_runProgramFile (files : Files) (settings : Settings) (limit : Nat) {p : Program}
    (names : TextNames (Stmt.namesAll p.statements)) (whole : p.Encodable) :
    (runProgramFile files settings limit p).ending.Orderly files
      (Exhausts settings limit (.program p) (.start [])) := by
  unfold runProgramFile
  rcases startSession_cases files settings with started | ⟨crashed, occupied⟩
  · rw [started]
    have right : GoesRight False settings limit p (Session.start settings).ready :=
      goesRight names (.inl whole) (plain_start settings)
    dsimp only
    rw [Session.act_eq]
    obtain ⟨m, _, ran | ⟨r, ran⟩ | ⟨line, _, about⟩ | ⟨ran, loops⟩⟩ := right.cases
    · rw [ran]
      trivial
    · rw [ran]
      trivial
    · exact about.elim
    · rw [ran]
      exact loops
  · rw [crashed]
    exact ⟨rfl, occupied⟩

theorem orderly_runSource (files : Files) (settings : Settings) (limit : Nat) (path : String) :
    (runSource files settings limit path).ending.Orderly files
      (∃ source p, readFile files (.ofString path) = .ok source ∧ Source.parse source = .ok p ∧
        Exhausts settings limit (.program p) (.start [])) := by
  unfold runSource
  split
  · trivial
  · next source read =>
    split
    · trivial
    · next p parsed =>
      have orderly := orderly_runProgramFile files settings limit (textNames_of_parse parsed)
        (encodable_of_parse parsed)
      generalize (runProgramFile files settings limit p).ending = ending at orderly ⊢
      cases ending with
      | exit _ => trivial
      | crash c => exact orderly
      | unfinished => exact ⟨source, p, read, parsed, orderly⟩

def typed (input : String) : List Prompt.Input :=
  (Text.streamLines input.toList).map fun cs => .line (String.ofList cs)

theorem orderly_runDialogue (files : Files) (settings : Settings) (limit : Nat) (input : String) :
    (runDialogue files settings limit input).ending.Orderly files
      ((Prompt.Dialogue.start (.start settings)).Loops limit (typed input)) := by
  unfold runDialogue
  rcases startSession_cases files settings with started | ⟨crashed, occupied⟩
  · rw [started]
    have ends := @Prompt.Dialogue.hold_ends False limit (.start (.start settings))
      (plain_start settings) (typed input)
    dsimp only
    rw [← typed]
    generalize (Prompt.Dialogue.start (.start settings)).hold limit (typed input) = held at ends ⊢
    obtain ⟨turns, session, ending⟩ := held
    rcases ends with rfl | ⟨stop, rfl, ⟨rfl, loops⟩ | ⟨-, about⟩⟩
    · trivial
    · exact loops
    · exact about.elim
  · rw [crashed]
    exact ⟨rfl, occupied⟩

/-- Programs whose names are texts do not go wrong from any plain values, as far as no half is
written to a stream that encodes. So programs with a source do not go wrong at all, nor do others
that have no half in their texts, from values that have none; and neither do the commands that run
a source or hold a dialogue, whatever text they are given. -/
theorem programs_do_not_go_wrong (settings : Settings) (limit : Nat) :
    (∀ (halves : Prop) (p : Program) (globals : Bindings),
      (∃ source, Source.parse source = .ok p) ∨
        TextNames (Stmt.namesAll p.statements) ∧ (p.Encodable ∨ halves) →
      globals.Plain halves → GoesRight halves settings limit p (.start globals)) ∧
    (∀ (halves : Prop) (d : Prompt.Dialogue) (inputs : List Prompt.Input),
      d.session.machine.scopes.Plain halves →
      (∀ last rest source p, Prompt.Dialogue.Comes limit d inputs last rest →
        Prompt.parseSnippet source = .ok p →
          GoesRight halves last.session.settings limit p last.session.ready) ∧
      ((d.hold limit inputs).2.2 = .left ∨ ∃ s, (d.hold limit inputs).2.2 = .stopped s ∧
        Prompt.Dialogue.Disturbs halves (d.Loops limit inputs) s)) ∧
    (∀ (files : Files) (path : String),
      (runSource files settings limit path).ending.Orderly files
        (∃ source p, readFile files (.ofString path) = .ok source ∧ Source.parse source = .ok p ∧
          Exhausts settings limit (.program p) (.start []))) ∧
    ∀ (files : Files) (input : String),
      (runDialogue files settings limit input).ending.Orderly files
        ((Prompt.Dialogue.start (.start settings)).Loops limit (typed input)) := by
  refine ⟨?_, ?_, fun files path => orderly_runSource files settings limit path,
    fun files input => orderly_runDialogue files settings limit input⟩
  · intro halves p globals origin plain
    rcases origin with ⟨source, parsed⟩ | ⟨names, whole⟩
    · exact goesRight (textNames_of_parse parsed) (.inl (encodable_of_parse parsed))
        (Forest.plain_single plain)
    · exact goesRight names whole (Forest.plain_single plain)
  · intro halves d inputs plain
    refine ⟨fun last rest source p comes parsed => ?_, Prompt.Dialogue.hold_ends plain inputs⟩
    exact Prompt.goesRight_of_parseSnippet parsed (Prompt.Dialogue.plain_of_comes comes plain)

/-- A block that binds a name and then joins it to a text by an operator that joins nothing. -/
def oddJoin : Program :=
  ⟨[.block [.declare ⟨.identifier, .text "x", 1⟩ (some (.literal (.bool true))),
    .print (.binary (.var ⟨.identifier, .text "x", 2⟩) ⟨.not, .null, 3⟩ (.literal (.text "y")))]]⟩

theorem programs_do_not_go_wrong_oddJoin :
    let settings : Settings := ⟨true, 3, ⟨.utf8, .utf8⟩⟩
    TextNames (Stmt.namesAll oddJoin.statements) ∧ oddJoin.Encodable ∧
    Bindings.Plain False [(.text "g", .null)] ∧
    GoesRight False settings 5 oddJoin (.start [(.text "g", .null)]) ∧
    (runProgram settings 5 oddJoin (.start [(.text "g", .null)])).1 =
      .error (.fault (.report (.typeError 3 "unsupported operator None"))) ∧
    (Session.start settings).machine.scopes.Plain False ∧
    Prompt.parseSnippet "print x;" = .ok ⟨[.print (.var ⟨.identifier, .text "x", 1⟩)]⟩ ∧
    GoesRight False settings 5 ⟨[.print (.var ⟨.identifier, .text "x", 1⟩)]⟩ (.start []) := by
  intro settings
  have names : TextNames (Stmt.namesAll oddJoin.statements) := by
    intro t member
    rcases List.mem_cons.1 member with rfl | member
    · exact ⟨"x", rfl⟩
    · rcases List.mem_singleton.1 member with rfl
      exact ⟨"x", rfl⟩
  have whole : oddJoin.Encodable := by
    constructor
    · rw [← List.all_eq_true]
      cbv
    · rw [← List.all_eq_true]
      cbv
  have plain : Bindings.Plain False [(.text "g", .null)] := List.forall_mem_singleton.2 trivial
  have parsed : Prompt.parseSnippet "print x;" =
      .ok ⟨[.print (.var ⟨.identifier, .text "x", 1⟩)]⟩ := by cbv
  obtain ⟨programs, dialogues, _⟩ := programs_do_not_go_wrong settings 5
  have typed := (dialogues False (.start (.start settings)) [] (plain_start _)).1
  exact ⟨names, whole, plain, programs _ _ _ (.inr ⟨names, .inl whole⟩) plain, by cbv,
    plain_start _, parsed, typed _ _ _ _ (.here _ _) parsed⟩

/-- A variable is bound to a half of a pair and printed. -/
def halfPrinted : Program :=
  ⟨[.declare (.identifier "s" 1) (some (.literal (.text [.ofUnit 0xD800]))),
    .print (.var (.identifier "s" 2))]⟩

/-- Its names are texts, but it goes wrong where it is printed or traced in UTF-8. -/
theorem half_goes_wrong :
    TextNames (Stmt.namesAll halfPrinted.statements) ∧
    (runProgram ⟨false, 0, ⟨.utf8, .utf8⟩⟩ 1 halfPrinted (.start [])).1 =
      .error (.fault (.unencodable [.ofUnit 0xD800])) ∧
    (runProgram ⟨false, 2, ⟨.any, .utf8⟩⟩ 1 halfPrinted (.start [])).1 =
      .error (.fault (.unencodable (("declare s = " : Text) ++ [CodePoint.ofUnit 0xD800]))) := by
  refine ⟨?_, ?_, ?_⟩
  · intro t member
    rcases List.mem_cons.1 member with rfl | member
    · exact ⟨"s", rfl⟩
    · rcases List.mem_singleton.1 member with rfl
      exact ⟨"s", rfl⟩
  · cbv
  · rfl

end CommandLine

end TreeWalk
