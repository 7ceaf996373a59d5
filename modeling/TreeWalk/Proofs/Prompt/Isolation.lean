import TreeWalk.Proofs.Prompt.Batch

/-!
Snippets that are refused. A dialogue reports one, and then goes on from where it was before: it
runs the same snippets in the same sessions as if the lines had not been typed.
-/

set_option autoImplicit false

namespace TreeWalk.Prompt

open Run

def stdout (turns : List Turn) : Text := turns.flatMap Turn.out

/-- The errors that are shown, in their order. -/
def reports (turns : List Turn) : List Text := (turns.map Turn.err).filter (· ≠ [])

theorem reports_append (turns turns' : List Turn) :
    reports (turns ++ turns') = reports turns ++ reports turns' := by
  rw [reports, List.map_append, List.filter_append]
  rfl

structure Execution where
  session : Session
  program : Program

def Execution.output (limit : Nat) (x : Execution) : Text :=
  let (_, events, session) := x.session.act (runProgram x.session.settings limit x.program)
  session.output events

namespace Dialogue

/-- What is run if a line completes a snippet. -/
def execution? (d : Dialogue) (line : String) : Option Execution :=
  (parseSnippet (String.intercalate "\n" (d.lines ++ [line]) ++ "\n")).toOption.map (⟨d.session, ·⟩)

def executions (limit : Nat) (d : Dialogue) : List Input → List Execution
  | [] => []
  | .interrupt :: _ => []
  | .line s :: inputs =>
    match d.feed limit s with
    | .quit => []
    | .wait next => executions limit next inputs
    | .ran _ next => (d.execution? s).toList ++ executions limit next inputs
    | .stopped _ _ _ => (d.execution? s).toList

/-- Takes lines. It gives the turns and where the dialogue stands then, if it has not ended. -/
def feedAll (limit : Nat) (d : Dialogue) : List String → Option (List Turn × Dialogue)
  | [] => some ([], d)
  | line :: lines =>
    match d.feed limit line with
    | .wait next => (feedAll limit next lines).map fun (turns, last) => (d.quiet :: turns, last)
    | .ran turn next => (feedAll limit next lines).map fun (turns, last) => (turn :: turns, last)
    | _ => none

/-- What a line can do: where it completes a snippet, that is run and the dialogue starts anew. -/
def Effect.Of (limit : Nat) (d : Dialogue) (line : String) : Effect → Prop
  | .quit => True
  | .wait next => next = d ∨ next.lines ≠ []
  | .ran turn next =>
    next = start next.session ∧
      turn.out = (d.execution? line).toList.flatMap (Execution.output limit)
  | .stopped turn _ _ => turn.out = (d.execution? line).toList.flatMap (Execution.output limit)

theorem run_of (limit : Nat) (d : Dialogue) (line : String) :
    (d.run limit (String.intercalate "\n" (d.lines ++ [line]) ++ "\n")).Of limit d line := by
  unfold run
  generalize parsed : parseSnippet (String.intercalate "\n" (d.lines ++ [line]) ++ "\n") = result
  cases result with
  | error e =>
    have none : d.execution? line = none := by rw [execution?, parsed]; rfl
    refine ⟨rfl, ?_⟩
    rw [none]
    rfl
  | ok program =>
    have one : d.execution? line = some ⟨d.session, program⟩ := by rw [execution?, parsed]; rfl
    have output : (d.execution? line).toList.flatMap (Execution.output limit) =
        Execution.output limit ⟨d.session, program⟩ := by
      rw [one]
      exact List.append_nil _
    dsimp only
    split
    · exact ⟨rfl, output.symm⟩
    · exact ⟨rfl, output.symm⟩
    · exact output.symm

theorem feed_of (limit : Nat) (d : Dialogue) (line : String) :
    (d.feed limit line).Of limit d line := by
  simp only [feed]
  split
  · trivial
  split
  · exact .inl rfl
  split
  · exact .inr (List.append_ne_nil_of_right_ne_nil _ (List.cons_ne_nil _ _))
  · exact run_of limit d line

/-- All that is printed comes from what is run. -/
theorem stdout_hold (limit : Nat) (d : Dialogue) (inputs : List Input) :
    stdout (d.hold limit inputs).1 =
      (d.executions limit inputs).flatMap (Execution.output limit) := by
  have farewell (d : Dialogue) : d.farewell.out = [] := by
    unfold Dialogue.farewell
    split <;> rfl
  have alone (turn : Turn) : stdout [turn] = turn.out := List.append_nil _
  have more (turn : Turn) (turns : List Turn) : stdout (turn :: turns) = turn.out ++ stdout turns :=
    List.flatMap_cons
  fun_induction hold limit d inputs with
  | case1 d | case2 d => rw [alone, farewell]; rfl
  | case3 d s inputs fed =>
    rw [executions, fed, alone]
    rfl
  | case4 d s inputs next fed turns session ending held ih =>
    rw [held] at ih
    rw [executions, fed, more, ih]
    rfl
  | case5 d s inputs turn next fed turns session ending held ih =>
    have of := feed_of limit d s
    rw [fed] at of
    rw [held] at ih
    rw [executions, fed, more, ih, of.2, List.flatMap_append]
  | case6 d s inputs turn session stop fed =>
    have of := feed_of limit d s
    rw [fed] at of
    rw [executions, fed, alone]
    exact of

theorem hold_append {limit : Nat} {d mid : Dialogue} {lines : List String} {turns : List Turn}
    (fed : d.feedAll limit lines = some (turns, mid)) (inputs : List Input) :
    d.hold limit (lines.map .line ++ inputs) =
        (turns ++ (mid.hold limit inputs).1, (mid.hold limit inputs).2) ∧
      d.executions limit (lines.map .line ++ inputs) =
        d.executions limit (lines.map .line) ++ mid.executions limit inputs := by
  fun_induction feedAll limit d lines generalizing turns with
  | case1 d =>
    cases fed
    exact ⟨rfl, rfl⟩
  | case2 d line lines next one ih =>
    obtain ⟨⟨turns', last⟩, rest, same⟩ := Option.map_eq_some_iff.1 fed
    cases same
    obtain ⟨holds, runs⟩ := ih rest
    rw [List.map_cons, List.cons_append, hold, executions, executions, one]
    dsimp only
    rw [holds, runs]
    exact ⟨rfl, rfl⟩
  | case3 d line lines turn next one ih =>
    obtain ⟨⟨turns', last⟩, rest, same⟩ := Option.map_eq_some_iff.1 fed
    cases same
    obtain ⟨holds, runs⟩ := ih rest
    rw [List.map_cons, List.cons_append, hold, executions, executions, one]
    dsimp only
    rw [holds, runs, List.append_assoc]
    exact ⟨rfl, rfl⟩
  | case4 => cases fed

theorem Takes.feedAll {limit : Nat} {d last : Dialogue} {lines : List String} {out : Text}
    (takes : Takes limit d lines out last) :
    ∃ turns, d.feedAll limit lines = some (turns, last) ∧ reports turns = [] := by
  induction takes with
  | none d => exact ⟨[], rfl, rfl⟩
  | @wait d next last line out lines fed _ ih =>
    obtain ⟨turns, rest, calm⟩ := ih
    refine ⟨d.quiet :: turns, ?_, calm⟩
    rw [Dialogue.feedAll, fed]
    exact congrArg (Option.map _) rest
  | @ran d next last turn line out lines fed quiet _ ih =>
    obtain ⟨turns, rest, calm⟩ := ih
    refine ⟨turn :: turns, ?_, ?_⟩
    · rw [Dialogue.feedAll, fed]
      exact congrArg (Option.map _) rest
    · rw [reports, List.map_cons, quiet]
      exact calm

/-- Where no snippet is open, a dialogue is as at its start but for the session. -/
theorem eq_start_of_feedAll {limit : Nat} {d mid : Dialogue} {lines : List String}
    {turns : List Turn} (fresh : d.lines = [] → d = start d.session)
    (fed : d.feedAll limit lines = some (turns, mid)) (empty : mid.lines = []) :
    mid = start mid.session := by
  fun_induction feedAll limit d lines generalizing turns with
  | case1 d =>
    cases fed
    exact fresh empty
  | case2 d line lines next one ih =>
    obtain ⟨⟨turns', last⟩, rest, same⟩ := Option.map_eq_some_iff.1 fed
    cases same
    have of := feed_of limit d line
    rw [one] at of
    refine ih ?_ rest
    rcases of with rfl | opened
    · exact fresh
    · exact fun closed => absurd closed opened
  | case3 d line lines turn next one ih =>
    obtain ⟨⟨turns', last⟩, rest, same⟩ := Option.map_eq_some_iff.1 fed
    cases same
    have of := feed_of limit d line
    rw [one] at of
    exact ih (fun _ => of.1) rest
  | case4 => cases fed

/-- The turns of a snippet that is refused: only the last line shows something. -/
def refusal (prompt : String) (report : Text) : List String → List Turn
  | [] => []
  | [_] => [⟨prompt, [], report, []⟩]
  | _ :: next :: rest => ⟨prompt, [], [], []⟩ :: refusal "...> " report (next :: rest)

theorem reports_refusal (prompt : String) {report : Text} (some_report : report ≠ [])
    {lines : List String} (some_lines : lines ≠ []) :
    reports (refusal prompt report lines) = [report] := by
  fun_induction refusal prompt report lines with
  | case1 => exact absurd rfl some_lines
  | case2 => simp [reports, some_report]
  | case3 prompt line next rest ih => exact ih (List.cons_ne_nil _ _)

/-- A snippet that is refused is not run, and leaves only its report. -/
theorem feedAll_refused (limit : Nat) {d : Dialogue} {lines : List String}
    {e : Source.SyntaxError} (closes : Closes d.balance lines)
    (first : d.lines = [] → ∀ line ∈ lines.head?,
      Text.strip line ∉ quitCommands ∧ Text.strip line ≠ "")
    (refused : parseSnippet (String.intercalate "\n" (d.lines ++ lines) ++ "\n") = .error e) :
    d.feedAll limit lines =
        some (refusal d.prompt ((Report.ofSyntax e).summary ++ "\n") lines, start d.session) ∧
      d.executions limit (lines.map .line) = [] := by
  induction lines generalizing d with
  | nil => exact closes.elim
  | cons line lines ih =>
    have fed := feed_eq limit fun opened => first opened line rfl
    cases lines with
    | nil =>
      have none : d.execution? line = none := by rw [execution?, refused]; rfl
      rw [if_neg (Int.not_lt.2 closes), run, refused] at fed
      rw [feedAll, List.map_singleton, executions, fed, none]
      exact ⟨rfl, rfl⟩
    | cons next lines =>
      rw [if_pos closes.1] at fed
      obtain ⟨feeds, runs⟩ := @ih { d with
        lines := d.lines ++ [line], balance := d.balance + braceBalance line } closes.2
        (fun empty => by simp at empty) (by rwa [List.append_assoc])
      have goes_on : Dialogue.prompt { d with
          lines := d.lines ++ [line], balance := d.balance + braceBalance line } = "...> " := by
        simp [prompt]
      rw [goes_on] at feeds
      rw [feedAll, List.map_cons, executions, fed]
      dsimp only
      rw [feeds]
      exact ⟨rfl, runs⟩

end Dialogue

open Dialogue in
/-- Where no snippet is open, lines can be put in that make up a snippet that is refused. There is
one error more, and nothing else changes. -/
theorem refused_snippets_are_isolated {limit : Nat} {session : Session}
    {before lines : List String} {turns : List Turn} {mid : Dialogue} {e : Source.SyntaxError}
    (reached : (start session).feedAll limit before = some (turns, mid)) (empty : mid.lines = [])
    (first : ∀ line ∈ lines.head?, Text.strip line ∉ quitCommands ∧ Text.strip line ≠ "")
    (closes : Closes 0 lines)
    (refused : parseSnippet (String.intercalate "\n" lines ++ "\n") = .error e)
    (after : List Input) :
    let inputs := before.map Input.line ++ after
    let inputs' := before.map Input.line ++ (lines.map Input.line ++ after)
    let report : Text := "SyntaxError: " ++ e.message ++ "\n"
    ∃ rest last ending,
      (start session).hold limit inputs = (turns ++ rest, last, ending) ∧
      (start session).hold limit inputs' =
        (turns ++ (refusal "spartie> " report lines ++ rest), last, ending) ∧
      reports (turns ++ rest) = reports turns ++ reports rest ∧
      reports (turns ++ (refusal "spartie> " report lines ++ rest)) =
        reports turns ++ report :: reports rest ∧
      stdout (turns ++ (refusal "spartie> " report lines ++ rest)) = stdout (turns ++ rest) ∧
      (start session).executions limit inputs' = (start session).executions limit inputs := by
  intro inputs inputs' report
  have fresh : mid = start mid.session := eq_start_of_feedAll (fun _ => rfl) reached empty
  have balance : mid.balance = 0 := by rw [fresh]; rfl
  have prompt : mid.prompt = "spartie> " := by rw [fresh]; rfl
  have name : ((Report.syntaxName : Text) ++ (": " : Text)) = ("SyntaxError: " : Text) := by decide
  have shown : (Report.ofSyntax e).summary ++ "\n" = report := by
    rw [Report.summary, Report.ofSyntax, name]
  have some_report : report ≠ [] := List.append_ne_nil_of_right_ne_nil _ (by decide)
  have some_lines : lines ≠ [] := by
    rintro rfl
    exact closes
  obtain ⟨fed, none⟩ := @feedAll_refused limit mid lines e (by rwa [balance]) (fun _ => first)
    (by rwa [empty])
  rw [prompt, shown, ← fresh] at fed
  obtain ⟨holds, runs⟩ := hold_append reached after
  obtain ⟨holds', runs'⟩ := hold_append reached (lines.map .line ++ after)
  -- behind the refused lines the dialogue is again the one in front of them
  obtain ⟨goes_on, goes_on'⟩ := hold_append fed after
  rw [goes_on] at holds'
  rw [goes_on', none, List.nil_append, ← runs] at runs'
  have printed := stdout_hold limit (start session) inputs'
  rw [runs', ← stdout_hold, holds', holds] at printed
  refine ⟨_, _, _, holds, holds', reports_append _ _, ?_, printed, runs'⟩
  rw [reports_append, reports_append, reports_refusal _ some_report some_lines]
  rfl

/-- The refused lines open one block and close two, and one of them would be a command elsewhere.
The variable from before them is still there. -/
theorem refused_snippets_are_isolated_command :
    let typed := ["var x = \"a\";", ""]
    let lines := ["if (x) \x7b", "quit", "", "\x7d\x7d"]
    let session := Session.start ⟨true, 0, ⟨.utf8, .utf8⟩⟩
    (∃ turns mid, (Dialogue.start session).feedAll 5 typed = some (turns, mid) ∧ mid.lines = []) ∧
    (∀ line ∈ lines.head?, Text.strip line ∉ quitCommands ∧ Text.strip line ≠ "") ∧
    Closes 0 lines ∧
    parseSnippet (String.intercalate "\n" lines ++ "\n") = .error (.unexpectedToken "\x7d" 4) ∧
    ∃ turns turns' last,
      (Dialogue.start session).hold 5 (typed.map Input.line ++ [.line "x"]) =
        (turns, last, .left) ∧
      (Dialogue.start session).hold 5
        (typed.map Input.line ++ (lines.map Input.line ++ [.line "x"])) = (turns', last, .left) ∧
      stdout turns = "a\n" ∧ stdout turns' = "a\n" ∧ reports turns = [] ∧
      reports turns' = [("SyntaxError: Unexpected token '\x7d' on line 4\n" : Text)] := by
  intro typed lines session
  have first : ∀ line ∈ lines.head?, Text.strip line ∉ quitCommands ∧ Text.strip line ≠ "" := by
    decide
  have closes : Closes 0 lines := by decide
  have refused : parseSnippet (String.intercalate "\n" lines ++ "\n") =
      .error (.unexpectedToken "\x7d" 4) := by cbv
  let declaration : Program :=
    ⟨[.declare (Source.nameToken ['x'] 1) (some (.literal (.text "a")))]⟩
  let shown : Program := ⟨[.print (.var (Source.nameToken ['x'] 1))]⟩
  let later := (session.act (runProgram session.settings 5 declaration)).2.2
  have takes (s : Session) (p : Program) (line : String) (closes : Closes 0 [line])
      (first : Text.strip line ∉ quitCommands ∧ Text.strip line ≠ "")
      (parsed : parseSnippet (String.intercalate "\n" [line] ++ "\n") = .ok p)
      (well : (s.act (runProgram s.settings 5 p)).1 = .ok ()) :
      Dialogue.Takes 5 (.start s) [line] (Execution.output 5 ⟨s, p⟩)
        (.start (s.act (runProgram s.settings 5 p)).2.2) :=
    Dialogue.takes_snippet closes (fun _ => by simpa using first) parsed (Prod.ext well rfl)
  have declares := takes session declaration "var x = \"a\";" (by decide) (by decide) (by cbv)
    (by cbv)
  have blank : Dialogue.Takes 5 (.start later) [""] [] (.start later) := .wait (by rfl) (.none _)
  have shows := takes later shown "x" (by decide) (by decide) (by cbv) (by cbv)
  have before := declares.append blank
  obtain ⟨turns, reached, calm⟩ := before.feedAll
  obtain ⟨prints, quiet, ends⟩ := (before.append shows).hold rfl
  obtain ⟨rest, last, ending, holds, holds', without, added, same, -⟩ :=
    refused_snippets_are_isolated reached rfl first closes refused [.line "x"]
  rw [List.map_append, List.map_singleton, holds] at prints quiet ends
  cases ends
  have nothing : reports (turns ++ rest) = [] := by
    rw [reports, List.filter_eq_nil_iff, List.forall_mem_map]
    simpa using quiet
  have out : stdout (turns ++ rest) = "a\n" := prints.trans (by cbv)
  rw [nothing, calm, List.nil_append] at without
  rw [calm, ← without] at added
  exact ⟨⟨_, _, reached, rfl⟩, first, closes, refused, _, _, _, holds, holds', out, same.trans out,
    nothing, added⟩

end TreeWalk.Prompt
