import TreeWalk.Proofs.CommandLine.Safety
import TreeWalk.Proofs.Run.Diagnostics
import TreeWalk.Proofs.Source.Concatenation

/-!
The prompt agrees with a run. Programs that are typed line by line, each with open braces up to its
last line, print what they print as one program with line feeds between them, and leave the same
variables, if the run of that program ends well.
-/

set_option autoImplicit false

namespace TreeWalk.Prompt

open Run Source

def linesOf (source : String) : List String := (Text.splitLines source.toList).map String.ofList

theorem splitLines_ne_nil (cs : List Char) : Text.splitLines cs ≠ [] := by
  fun_induction Text.splitLines cs <;> simp

theorem intercalate_splitLines (cs : List Char) :
    ['\n'].intercalate (Text.splitLines cs) = cs := by
  fun_induction Text.splitLines cs with
  | case1 => rfl
  | case2 cs ih =>
    obtain ⟨line, rest, split⟩ := List.exists_cons_of_ne_nil (splitLines_ne_nil cs)
    rw [split] at ih ⊢
    rw [List.intercalate_cons_cons, ih]
    rfl
  | case3 c cs other none ih => exact absurd none (splitLines_ne_nil cs)
  | case4 c cs other line rest split ih =>
    rw [split] at ih
    cases rest with
    | nil => rw [← ih]; rfl
    | cons line' rest =>
      rw [List.intercalate_cons_cons] at ih ⊢
      rw [← ih]
      rfl

theorem intercalate_linesOf (source : String) :
    String.intercalate "\n" (linesOf source) = source := by
  rw [← String.toList_inj, String.toList_intercalate, linesOf, List.map_map]
  have same : String.toList ∘ String.ofList = id := funext fun _ => String.toList_ofList
  rw [same, List.map_id]
  exact intercalate_splitLines source.toList

theorem strip_back (s : String) :
    ∃ back, s.toList = s.toList.takeWhile Text.isBlank ++ ((Text.strip s).toList ++ back) ∧
      ∀ c ∈ back, Text.isBlank c = true := by
  refine ⟨((s.toList.dropWhile Text.isBlank).reverse.takeWhile Text.isBlank).reverse, ?_, ?_⟩
  · rw [Text.strip, String.toList_ofList, Text.trimBy, ← List.reverse_append,
      List.takeWhile_append_dropWhile, List.reverse_reverse, List.takeWhile_append_dropWhile]
  · intro c member
    exact List.mem_takeWhile_imp (List.mem_reverse.1 member)

theorem strip_split (s : String) :
    ∃ front back, s.toList = front ++ ((Text.strip s).toList ++ back) ∧
      (∀ c ∈ front, Text.isBlank c = true) ∧ ∀ c ∈ back, Text.isBlank c = true := by
  obtain ⟨back, split, after⟩ := strip_back s
  exact ⟨_, back, split, fun c member => List.mem_takeWhile_imp member, after⟩

/-- Without an opening brace there is nothing to wait for. -/
theorem braceBalanceFrom_le {cs : List Char} (none : '\x7b' ∉ cs) (inString : Bool) :
    braceBalanceFrom inString cs ≤ 0 := by
  fun_induction braceBalanceFrom inString cs <;> grind

theorem braceBalance_le {line : String} (none : '\x7b' ∉ (Text.strip line).toList) :
    braceBalance line ≤ 0 := by
  apply braceBalanceFrom_le
  obtain ⟨front, back, split, before, after⟩ := strip_split line
  have blank : Text.isBlank '\x7b' = false := by decide
  rw [split, List.mem_append, List.mem_append]
  rintro (member | member | member)
  · rw [before _ member] at blank
    cases blank
  · exact none member
  · rw [after _ member] at blank
    cases blank

theorem program?_of_word {outer : Outer} {line : Nat} {c : Char} {cs back : List Char}
    {final : State} (start : isNameStart c = true) (inside : ∀ d ∈ c :: cs, isNameChar d = true)
    (name : wordTerminal Slot.declaration.accepts (c :: cs) = .name)
    (blank : ∀ d ∈ back, Text.isBlank d = true)
    (reading : Reading (.declaration outer) line (c :: cs ++ back) final) :
    final.program? = none := by
  obtain ⟨digit, quote, space, slash, -⟩ := nameStart_apart start
  have feed : c ≠ '\n' := by
    rintro rfl
    cases space
  have kept : skip false line (c :: (cs ++ back)) = (line, c :: (cs ++ back)) := by
    rw [skip, if_neg feed, if_neg Bool.false_ne_true, if_neg (by simp [space]),
      if_neg (by simp [slash])]
  have after : back.takeWhile isNameChar = [] := by
    cases back with
    | nil => rfl
    | cons d back =>
      have outside := (blank_outside (blank d List.mem_cons_self)).2.2.2.1
      rw [List.takeWhile_cons_of_neg (by simp [outside])]
  have whole : (c :: (cs ++ back)).takeWhile isNameChar = c :: cs := by
    rw [← List.cons_append, List.takeWhile_append_of_pos inside, after, List.append_nil]
  have word : lexeme? Slot.declaration.accepts (c :: (cs ++ back)) = some ⟨.name, c :: cs⟩ := by
    have named : Slot.declaration.accepts .name = true := rfl
    simp only [lexeme?, digit, quote, start, named, whole, name, Bool.false_eq_true, if_false,
      if_true]
  rw [List.cons_append] at reading
  cases reading with
  | done skipped =>
    rw [kept] at skipped
    cases skipped
  | step skipped found move tail =>
    rw [kept] at skipped
    cases skipped
    -- The name is taken for an operand, and a statement is never complete behind one.
    cases found.symm.trans word
    cases step_of_move move
    rw [← List.cons_append, List.drop_left] at tail
    rw [tail.eq_of_blanks blank]
    rfl

theorem not_reading_colon {state final : State} {line : Nat} {cs : List Char}
    (reading : Reading state line (':' :: cs) final) : False := by
  cases reading with
  | done skipped => cases skipped
  | step skipped found =>
    cases skipped
    rw [lexeme?_sign_none (by decide) (by decide) (by decide) (by decide)] at found
    cases found

theorem strip_ne_quit {source : String} {p : Program} (parsed : parse source = .ok p) :
    Text.strip source ∉ quitCommands := by
  intro quit
  obtain ⟨final, reading, complete⟩ := parse_eq_ok_iff.1 parsed
  obtain ⟨front, back, split, before, after⟩ := strip_split source
  rw [split] at reading
  replace reading := reading.behind_blanks before
  have word {c : Char} {cs : List Char} (same : Text.strip source = String.ofList (c :: cs))
      (start : isNameStart c = true) (inside : (c :: cs).all isNameChar = true)
      (name : wordTerminal Slot.declaration.accepts (c :: cs) = .name) : False := by
    rw [same, String.toList_ofList] at reading
    rw [program?_of_word start (List.all_eq_true.1 inside) name after reading] at complete
    cases complete
  simp only [quitCommands, List.mem_cons, List.not_mem_nil, or_false] at quit
  rcases quit with same | same | same | same
  · rw [same] at reading
    exact not_reading_colon reading
  · rw [same] at reading
    exact not_reading_colon reading
  · exact word same (by decide) (by decide) (by decide)
  · exact word same (by decide) (by decide) (by decide)

theorem parse_blank {source : String} {p : Program} (parsed : parse source = .ok p)
    (blank : Text.strip source = "") : p = ⟨[]⟩ := by
  obtain ⟨final, reading, complete⟩ := parse_eq_ok_iff.1 parsed
  obtain ⟨front, back, split, before, after⟩ := strip_split source
  rw [split, blank] at reading
  replace reading := reading.behind_blanks before
  rw [reading.eq_of_blanks after] at complete
  cases complete
  rfl

/-- Braces are open after every line but the last one, where so many are open before the first. -/
def Closes (balance : Int) : List String → Prop
  | [] => False
  | [line] => balance + braceBalance line ≤ 0
  | line :: next :: rest =>
    0 < balance + braceBalance line ∧ Closes (balance + braceBalance line) (next :: rest)

instance decidableCloses (balance : Int) : ∀ lines : List String, Decidable (Closes balance lines)
  | [] => inferInstanceAs (Decidable False)
  | [line] => inferInstanceAs (Decidable (balance + braceBalance line ≤ 0))
  | line :: next :: rest =>
    have := decidableCloses (balance + braceBalance line) (next :: rest)
    inferInstanceAs (Decidable (0 < balance + braceBalance line ∧ Closes _ (next :: rest)))

namespace Dialogue

/-- A dialogue takes lines without an error, prints a text and comes to another one. -/
inductive Takes (limit : Nat) : Dialogue → List String → Text → Dialogue → Prop where
  | none (d : Dialogue) : Takes limit d [] [] d
  | wait {d next last : Dialogue} {line : String} {out : Text} {lines : List String}
    (fed : d.feed limit line = .wait next) (rest : Takes limit next lines out last) :
    Takes limit d (line :: lines) out last
  | ran {d next last : Dialogue} {turn : Turn} {line : String} {out : Text} {lines : List String}
    (fed : d.feed limit line = .ran turn next) (calm : turn.err = [])
    (rest : Takes limit next lines out last) :
    Takes limit d (line :: lines) (turn.out ++ out) last

theorem Takes.append {limit : Nat} {d mid last : Dialogue} {lines lines' : List String}
    {out out' : Text} (first : Takes limit d lines out mid)
    (second : Takes limit mid lines' out' last) :
    Takes limit d (lines ++ lines') (out ++ out') last := by
  induction first with
  | none => exact second
  | wait fed _ ih => exact .wait fed (ih second)
  | ran fed calm _ ih =>
    rw [List.append_assoc]
    exact .ran fed calm (ih second)

theorem Takes.hold {limit : Nat} {d last : Dialogue} {lines : List String} {out : Text}
    (takes : Takes limit d lines out last) (closed : last.lines = []) :
    (d.hold limit (lines.map .line)).1.flatMap Turn.out = out ∧
      (∀ turn ∈ (d.hold limit (lines.map .line)).1, turn.err = []) ∧
      (d.hold limit (lines.map .line)).2 = (last.session, .left) := by
  induction takes with
  | none d =>
    have calm : d.farewell = d.quiet := by rw [farewell, closed]; rfl
    rw [List.map_nil, Dialogue.hold, calm]
    exact ⟨rfl, List.forall_mem_singleton.2 rfl, rfl⟩
  | wait fed _ ih =>
    obtain ⟨prints, calm, ends⟩ := ih closed
    rw [List.map_cons, Dialogue.hold, fed]
    exact ⟨prints, List.forall_mem_cons.2 ⟨rfl, calm⟩, ends⟩
  | ran fed quiet _ ih =>
    obtain ⟨prints, calm, ends⟩ := ih closed
    rw [List.map_cons, Dialogue.hold, fed]
    refine ⟨?_, List.forall_mem_cons.2 ⟨quiet, calm⟩, ends⟩
    rw [List.flatMap_cons, prints]

/-- A line goes to a snippet, unless it is the first one and blank or a command. -/
theorem feed_eq (limit : Nat) {d : Dialogue} {line : String}
    (first : d.lines = [] → Text.strip line ∉ quitCommands ∧ Text.strip line ≠ "") :
    d.feed limit line =
      if 0 < d.balance + braceBalance line then
        .wait { d with lines := d.lines ++ [line], balance := d.balance + braceBalance line }
      else d.run limit (String.intercalate "\n" (d.lines ++ [line]) ++ "\n") := by
  have noQuit : ¬ (d.lines.isEmpty && quitCommands.contains (Text.strip line)) = true := by
    rw [Bool.and_eq_true, List.isEmpty_iff, List.contains_iff_mem]
    rintro ⟨opened, quit⟩
    exact (first opened).1 quit
  have noBlank : ¬ (d.lines.isEmpty && (Text.strip line).isEmpty) = true := by
    rw [Bool.and_eq_true, List.isEmpty_iff, String.isEmpty_iff]
    rintro ⟨opened, blank⟩
    exact (first opened).2 blank
  simp only [feed]
  rw [if_neg noQuit, if_neg noBlank]

/-- The lines of a snippet are taken if its run ends well. A first line is no command and not
blank. -/
theorem takes_snippet {limit : Nat} {d : Dialogue} {lines : List String} {p : Program}
    {events : List Event} {session : Session} (closes : Closes d.balance lines)
    (first : d.lines = [] → ∀ line ∈ lines.head?,
      Text.strip line ∉ quitCommands ∧ Text.strip line ≠ "")
    (parsed : parseSnippet (String.intercalate "\n" (d.lines ++ lines) ++ "\n") = .ok p)
    (acts : d.session.act (runProgram d.session.settings limit p) = (.ok (), events, session)) :
    Takes limit d lines (session.output events) (.start session) := by
  induction lines generalizing d with
  | nil => exact closes.elim
  | cons line lines ih =>
    have fed := feed_eq limit fun opened => first opened line rfl
    cases lines with
    | nil =>
      rw [if_neg (Int.not_lt.2 closes), run, parsed] at fed
      dsimp only at fed
      rw [acts] at fed
      have taken := Takes.ran fed rfl (.none _)
      rwa [List.append_nil] at taken
    | cons next lines =>
      rw [if_pos closes.1] at fed
      refine .wait fed (ih closes.2 ?_ ?_ acts)
      · intro empty
        simp at empty
      · rwa [List.append_assoc]

theorem parseSnippet_newline {source : String} {p : Program} (parsed : parse source = .ok p) :
    parseSnippet (source ++ "\n") = .ok p := by
  obtain ⟨final, reading, complete⟩ := parse_eq_ok_iff.1 parsed
  have read : Reading (.declaration ⟨[], []⟩) 1 (source ++ "\n").toList final := by
    rw [String.toList_append]
    exact reading.newline (.done rfl)
  rw [parseSnippet, parse_eq_ok_iff.2 ⟨final, read, complete⟩]

/-- A line with which braces are opened is neither a command nor blank. -/
theorem strip_of_opens {line : String} (opens : 0 < braceBalance line) :
    Text.strip line ∉ quitCommands ∧ Text.strip line ≠ "" := by
  have plain : ∀ command ∈ quitCommands, '\x7b' ∉ command.toList := by decide
  constructor
  · intro quit
    exact absurd (braceBalance_le (plain _ quit)) (Int.not_le.2 opens)
  · intro blank
    have none : '\x7b' ∉ (Text.strip line).toList := by rw [blank]; decide
    exact absurd (braceBalance_le none) (Int.not_le.2 opens)

/-- The lines of a program are taken where its run ends well elsewhere, on other lines. -/
theorem takes_program {settings : Settings} {limit : Nat} {source : String} {p : Program}
    (parsed : parse source = .ok p) (closes : Closes 0 (linesOf source)) {s : Session}
    {m m' : Machine} (here : s.At settings m) {lines : Nat}
    (ran : executeAll settings limit globalScope (p.later lines).statements m = (.ok (), m')) :
    ∃ next added, Takes limit (.start s) (linesOf source)
        (textOf (added.filterMap Event.printed?)) (.start next) ∧
      next.At settings m' ∧ m'.events.toList = m.events.toList ++ added ∧
      ∀ e ∈ added, e.visible settings.verbosity = true := by
  obtain ⟨events, next, added, acts, there, prints, grows, visible⟩ :=
    here.act (Token.text_later lines) (Token.kind_later lines) ran
  have snippet : parseSnippet (String.intercalate "\n" ([] ++ linesOf source) ++ "\n") = .ok p := by
    rw [List.nil_append, intercalate_linesOf]
    exact parseSnippet_newline parsed
  have taken (first : ∀ line ∈ (linesOf source).head?,
      Text.strip line ∉ quitCommands ∧ Text.strip line ≠ "") :
      Takes limit (.start s) (linesOf source) (next.output events) (.start next) :=
    takes_snippet closes (fun _ => first) snippet acts
  rw [prints] at taken
  have whole := intercalate_linesOf source
  cases split : linesOf source with
  | nil => rw [split] at closes; exact closes.elim
  | cons line rest =>
    rw [split] at taken whole closes
    cases rest with
    | nil =>
      obtain rfl : line = source := whole
      by_cases blank : Text.strip line = ""
      · -- A blank line is no snippet, and its program has no statements.
        cases parse_blank parsed blank
        cases ran
        have fed : (start s).feed limit line = .wait (start s) := by
          simp only [feed, blank]
          rfl
        exact ⟨s, [], .wait fed (.none _), here, by simp, by simp⟩
      · refine ⟨next, added, taken ?_, there, grows, visible⟩
        rintro line ⟨⟩
        exact ⟨strip_ne_quit parsed, blank⟩
    | cons line' rest =>
      refine ⟨next, added, taken ?_, there, grows, visible⟩
      rintro line ⟨⟩
      have opens := closes.1
      rw [Int.zero_add] at opens
      exact strip_of_opens opens

theorem takes_programs {settings : Settings} {limit : Nat} {parts : List (String × Program)}
    (parsed : ∀ part ∈ parts, parse part.1 = .ok part.2)
    (closes : ∀ part ∈ parts, Closes 0 (linesOf part.1)) {s : Session} {m m' : Machine}
    (here : s.At settings m) {lines : Nat}
    (ran : executeAll settings limit globalScope (joined lines parts) m = (.ok (), m')) :
    ∃ next added, Takes limit (.start s) ((parts.map Prod.fst).flatMap linesOf)
        (textOf (added.filterMap Event.printed?)) (.start next) ∧
      next.At settings m' ∧ m'.events.toList = m.events.toList ++ added ∧
      ∀ e ∈ added, e.visible settings.verbosity = true := by
  induction parts generalizing s m lines with
  | nil =>
    cases ran
    exact ⟨s, [], .none _, here, by simp, by simp⟩
  | cons part parts ih =>
    obtain ⟨source, p⟩ := part
    rw [List.forall_mem_cons] at parsed closes
    rw [joined, executeAll_append, Action.bind_apply] at ran
    generalize first : executeAll settings limit globalScope (p.later lines).statements m = after
      at ran
    obtain ⟨result, n⟩ := after
    cases result with
    | error stop => cases ran
    | ok _ =>
      obtain ⟨mid, added, takes, there, grows, visible⟩ :=
        takes_program parsed.1 closes.1 here first
      obtain ⟨next, added', takes', there', grows', visible'⟩ := ih parsed.2 closes.2 there ran
      refine ⟨next, added ++ added', ?_, there', ?_, ?_⟩
      · rw [List.filterMap_append, textOf_append]
        exact takes.append takes'
      · rw [grows', grows, List.append_assoc]
      · exact List.forall_mem_append.2 ⟨visible, visible'⟩

end Dialogue

/-- A program that is typed as one snippet: it does not start with an `else`, and braces are open
after each of its lines but the last one. -/
structure Typeable (source : String) : Prop where
  accepted : (parse source).isOk = true
  other : startsWithElse source = false
  closes : Closes 0 (linesOf source)

theorem exists_parts {sources : List String} (typed : ∀ source ∈ sources, Typeable source) :
    ∃ parts : List (String × Program), parts.map Prod.fst = sources ∧
      ∀ part ∈ parts, parse part.1 = .ok part.2 := by
  induction sources with
  | nil => exact ⟨[], rfl, by simp⟩
  | cons source sources ih =>
    rw [List.forall_mem_cons] at typed
    obtain ⟨parts, rfl, all⟩ := ih typed.2
    have accepted := typed.1.accepted
    cases parsed : parse source with
    | error e =>
      rw [parsed] at accepted
      cases accepted
    | ok p => exact ⟨(source, p) :: parts, rfl, List.forall_mem_cons.2 ⟨parsed, all⟩⟩

/-- Programs that can be typed are one program with line feeds between them. If its run ends well,
then a dialogue that takes their lines prints the same and no error, and leaves the same variables,
whatever the levels of verbosity are. -/
theorem dialogue_agrees_with_run (strict : Bool) (streams : Streams) (level level' limit : Nat)
    {sources : List String} (typed : ∀ source ∈ sources, Typeable source) :
    ∃ program, parse (String.intercalate "\n" sources) = .ok program ∧
      ∀ (events : List Event) (session : Session),
        (Session.start ⟨strict, level, streams⟩).act
          (runProgram ⟨strict, level, streams⟩ limit program) = (.ok (), events, session) →
        ∃ turns last, (Dialogue.start (.start ⟨strict, level', streams⟩)).hold limit
            ((sources.flatMap linesOf).map .line) = (turns, last, .left) ∧
          turns.flatMap Turn.out = session.output events ∧
          (∀ turn ∈ turns, turn.err = []) ∧ last.globals = session.globals := by
  obtain ⟨parts, rfl, parsed⟩ := exists_parts typed
  rw [List.forall_mem_map] at typed
  have whole := parse_joined parsed fun part member => (typed part member).other
  refine ⟨_, whole, ?_⟩
  intro events session ran
  -- The run at the level of the dialogue ends well too.
  have heard : AllHeard streams.log ⟨joined 0 parts⟩ [] :=
    .inr ⟨encodable_of_parse whole, plain_nil⟩
  have same := @told_agrees strict streams level level' limit _ _ plain_nil heard
  generalize ran' : (Session.start ⟨strict, level', streams⟩).act
    (runProgram ⟨strict, level', streams⟩ limit ⟨joined 0 parts⟩) = outcome
  obtain ⟨result, events', session'⟩ := outcome
  have first : Session.told ⟨strict, level, streams⟩ [] limit ⟨joined 0 parts⟩ =
    (.ok (), events, session) := ran
  have second : Session.told ⟨strict, level', streams⟩ [] limit ⟨joined 0 parts⟩ =
    (result, events', session') := ran'
  rw [first, second] at same
  obtain ⟨rfl, variables', output⟩ := same
  rw [output, variables']
  obtain ⟨n, ends, rfl, rfl⟩ := act_eq_ok ran'
  have here : (Session.start ⟨strict, level', streams⟩).At ⟨strict, level', streams⟩
      (Machine.trace ⟨strict, level', streams⟩ .started (.start [])) :=
    ⟨rfl, rfl, (scopes_trace _ _ _).symm, (cursor_trace _ _ _).symm⟩
  have after : Session.At { Session.start ⟨strict, level', streams⟩ with
      machine := n.trace ⟨strict, level', streams⟩ .finished } ⟨strict, level', streams⟩ n :=
    ⟨rfl, rfl, scopes_trace _ _ _, cursor_trace _ _ _⟩
  obtain ⟨next, added, takes, there, grows, visible⟩ := Dialogue.takes_programs parsed
    (fun part member => (typed part member).closes) here ends
  rw [events_trace] at grows
  obtain ⟨prints, calm, left⟩ := takes.hold rfl
  refine ⟨_, next, Prod.ext rfl left, ?_, calm, ?_⟩
  · rw [prints, after.output_run grows visible]
  · exact congrArg (Forest.bindings · globalScope) (there.scopes.trans after.scopes.symm)

/-- A declaration, a blank line, a branch over three lines with braces in a string and in a comment,
and a statement, with their programs. -/
def typedParts : List (String × Program) :=
  [("var s = \"a\";", ⟨[.declare (nameToken ['s'] 1) (some (.literal (.text "a")))]⟩),
    (" ", ⟨[]⟩),
    ("if (s) \x7b\n s = s + \"\x7b\"; // \x7d\n\x7d",
      ⟨[.ifThen (.var (nameToken ['s'] 1)) (.block [.expression (.assign (nameToken ['s'] 2)
        (.binary (.var (nameToken ['s'] 2)) (operatorToken .add 2)
          (.literal (.text "\x7b"))))])]⟩),
    ("print s;", ⟨[.print (.var (nameToken ['s'] 1))]⟩)]

theorem dialogue_agrees_with_run_branch :
    let settings (level : Nat) : Settings := ⟨true, level, ⟨.utf8, .utf8⟩⟩
    (∀ source ∈ typedParts.map Prod.fst, Typeable source) ∧
    ∃ program events session turns last,
      parse (String.intercalate "\n" (typedParts.map Prod.fst)) = .ok program ∧
      (Session.start (settings 0)).act (runProgram (settings 0) 5 program) =
        (.ok (), events, session) ∧
      session.output events = "a\x7b\n" ∧
      (Dialogue.start (.start (settings 4))).hold 5
        (((typedParts.map Prod.fst).flatMap linesOf).map .line) = (turns, last, .left) ∧
      turns.flatMap Turn.out = session.output events ∧ (∀ turn ∈ turns, turn.err = []) ∧
      last.globals = session.globals := by
  intro settings
  have parsed : ∀ part ∈ typedParts, parse part.1 = .ok part.2 := by
    simp only [typedParts, List.forall_mem_cons, List.not_mem_nil, false_imp_iff, implies_true,
      and_true]
    exact ⟨by cbv, by cbv, by cbv, by cbv⟩
  have other : ∀ part ∈ typedParts, startsWithElse part.1 = false := by
    simp only [typedParts, List.forall_mem_cons, List.not_mem_nil, false_imp_iff, implies_true,
      and_true]
    exact ⟨by cbv, by cbv, by cbv, by cbv⟩
  have closes : ∀ part ∈ typedParts, Closes 0 (linesOf part.1) := by decide
  have typed : ∀ source ∈ typedParts.map Prod.fst, Typeable source := by
    rw [List.forall_mem_map]
    intro part member
    exact ⟨by rw [parsed part member]; rfl, other part member, closes part member⟩
  have acts := (Session.start (settings 0)).act_eq (runProgram (settings 0) 5 ⟨joined 0 typedParts⟩)
  have well : (runProgram (settings 0) 5 ⟨joined 0 typedParts⟩
      (Session.start (settings 0)).ready).1 =
      .ok () := by cbv
  rw [well] at acts
  obtain ⟨program, whole, agrees⟩ := dialogue_agrees_with_run true ⟨.utf8, .utf8⟩ 0 4 5 typed
  cases whole.symm.trans (parse_joined parsed other)
  obtain ⟨turns, last, held, prints, calm, globals⟩ := agrees _ _ acts
  exact ⟨typed, _, _, _, turns, last, whole, acts, by cbv, held, prints, calm, globals⟩

end TreeWalk.Prompt
