import Mathlib.Tactic.WLOG
import TreeWalk.Proofs.Run.Simulation
import TreeWalk.Run.Session

/-!
Verbosity is for watching alone. Two runs of a program at different levels of verbosity print the
same, end alike and leave the same variables; the messages of the quieter one are those messages of
the other one that its level reaches. The one exception is a message that only the louder run comes
to and that its log cannot encode, since the text of a value in it has a half.
-/

set_option autoImplicit false

namespace TreeWalk.Run

open TreeWalk.Run.Action

/-- What a run at a level lets others see. -/
def Event.visible (level : Nat) : Event → Bool
  | .printed _ => true
  | .traced message => message.level ≤ level

def messages (events : List Event) : List Message := events.filterMap Event.message?

theorem visible_of_traced {low high : Nat} (le : low ≤ high) (strict : Bool) (streams : Streams)
    (message : Message) {l l' : List Event} (h : l' = l.filter (Event.visible low)) :
    traced ⟨strict, low, streams⟩ message l' =
      (traced ⟨strict, high, streams⟩ message l).filter (Event.visible low) := by
  subst h
  by_cases reached : message.level ≤ low
  · have both : message.level ≤ high := Nat.le_trans reached le
    simp [traced, reached, both, Event.visible]
  · unfold traced
    rw [if_neg reached]
    split
    · simp [Event.visible, reached]
    · rfl

theorem messages_visible (level : Nat) (events : List Event) :
    messages (events.filter (Event.visible level)) =
      (messages events).filter fun message => message.level ≤ level := by
  rw [messages, messages, List.filterMap_filter, List.filter_filterMap]
  congr 1
  funext e
  cases e with
  | printed text => rfl
  | traced message =>
    by_cases reached : message.level ≤ level
    · simp [Event.visible, Event.message?, Option.filter, reached]
    · simp [Event.visible, Event.message?, Option.filter, reached]

theorem printed_visible (level : Nat) (events : List Event) :
    (events.filter (Event.visible level)).filterMap Event.printed? =
      events.filterMap Event.printed? := by
  rw [List.filterMap_filter]
  congr 1
  funext e
  cases e with
  | printed text => rfl
  | traced message => exact ite_self none

theorem filter_level_zero (all : List Message) :
    (all.filter fun message => message.level ≤ 0) = [] := by
  rw [List.filter_eq_nil_iff]
  intro message _
  have positive := message.level_pos
  rw [decide_eq_true_eq]
  omega

/-- A session with these variables; the file of its trace is open if it traces at all. -/
def Session.holding (settings : Settings) (globals : Bindings) : Session :=
  ⟨settings, .start globals, 0 < settings.verbosity⟩

/-- Messages are printed only where there is no file for them. -/
theorem Session.output_eq {s : Session} {events : List Event}
    (apart : s.tracing = true ∨ messages events = []) :
    s.output events = textOf (events.filterMap Event.printed?) := by
  unfold Session.output
  congr 1
  apply List.filterMap_congr
  intro e member
  cases e with
  | printed text => rfl
  | traced message =>
    rcases apart with tracing | none
    · simp only [tracing, if_true]
      rfl
    · have found : message ∈ messages events := List.mem_filterMap.2 ⟨_, member, rfl⟩
      rw [none] at found
      cases found

theorem Session.traceText_eq {s : Session} {events : List Event}
    (apart : s.tracing = true ∨ messages events = []) :
    s.traceText events = textOf ((messages events).map Message.text) := by
  unfold Session.traceText
  split
  · rw [messages, List.map_filterMap]
  · next closed =>
    rw [apart.resolve_left closed]
    rfl

/-- The stop of a run at a message that a quieter one does not come to. -/
def Unheard (low high : Nat) (log : Stream) (s : Stop) : Prop :=
  ∃ message : Message, low < message.level ∧ message.level ≤ high ∧
    ¬log.takes message.text = true ∧ s = .fault (.unencodable message.text)

/-- Runs at two levels of verbosity keep to the same scopes, unless the louder one is stopped at a
message that the other one does not come to. -/
theorem sameScopes_verbosity {low high : Nat} (le : low ≤ high) (strict : Bool)
    (streams : Streams) :
    SameScopes ⟨strict, high, streams⟩ ⟨strict, low, streams⟩ id id (Forest.Plain True)
      (fun l l' => l' = l.filter (Event.visible low)) (fun s s' => s = s' ∧ Expected s)
      (Unheard low high streams.log) (Value.Plain True) := by
  have traces (message : Message) {l l' : List Event} (h : l' = l.filter (Event.visible low)) :=
    visible_of_traced le strict streams message h
  refine sameScopes_plain rfl rfl ?_ (fun message l l' h => traces message h) ?_
  · rintro shown l l' rfl
    rw [List.filter_append]
    rfl
  · intro level v message plain levels m m' beside
    obtain ⟨shown, text, -⟩ := Value.toText_of_plain plain
    rw [traceValue_eq text levels, traceValue_eq text levels]
    by_cases taken : streams.take (.traced (message shown)) = true
    · rw [@trace_of_taken ⟨strict, high, streams⟩ _ taken,
        @trace_of_taken ⟨strict, low, streams⟩ _ taken]
      exact .inl ⟨⟨rfl, trivial⟩, beside.trace fun _ _ h => traces _ h⟩
    · by_cases quietly : (message shown).level ≤ low
      · -- Both runs come to the message, and it stops both.
        rw [@trace_of_refused ⟨strict, high, streams⟩ _ (Nat.le_trans quietly le) taken,
          @trace_of_refused ⟨strict, low, streams⟩ _ quietly taken]
        exact .inl ⟨⟨rfl, trivial⟩, beside⟩
      · by_cases loudly : (message shown).level ≤ high
        · rw [@trace_of_refused ⟨strict, high, streams⟩ _ loudly taken]
          exact .inr ⟨_, ⟨_, Nat.lt_of_not_le quietly, loudly, taken, rfl⟩, rfl⟩
        · rw [@trace_of_unreached ⟨strict, high, streams⟩ _ loudly,
            @trace_of_unreached ⟨strict, low, streams⟩ _ quietly]
          exact .inl ⟨⟨rfl, trivial⟩, beside⟩

theorem beside_of_runs {low high : Nat} (le : low ≤ high) (strict : Bool) (streams : Streams)
    (limit : Nat) (p : Program) {globals : Bindings} (plain : globals.Plain True) :
    let loud := runProgram ⟨strict, high, streams⟩ limit p (.start globals)
    let quiet := runProgram ⟨strict, low, streams⟩ limit p (.start globals)
    (loud.1 = quiet.1 ∧ Beside (Forest.Plain True)
        (fun l l' => l' = l.filter (Event.visible low)) loud.2 quiet.2) ∨
      ∃ s, Unheard low high streams.log s ∧ loud.1 = .error s := by
  intro loud quiet
  have together : Beside (Forest.Plain True) (fun l l' => l' = l.filter (Event.visible low))
      (.start globals) (.start globals) := ⟨rfl, Forest.plain_single plain, rfl, rfl⟩
  have runs := (sameScopes_verbosity le strict streams).runProgram (fun _ _ alike => alike.1)
    limit p
  refine (runs _ _ together).imp_left fun ⟨ends, keeps⟩ => ⟨?_, keeps⟩
  change EndsAlike _ _ loud.1 quiet.1 at ends
  generalize loud.1 = result at ends
  generalize quiet.1 = result' at ends
  match result, result', ends with
  | .ok _, .ok _, _ => rfl
  | .error _, .error _, ⟨rfl, _⟩ => rfl

theorem apart_of_run (strict : Bool) (level : Nat) (streams : Streams) (limit : Nat) (p : Program)
    {globals : Bindings} (plain : globals.Plain True) :
    (Session.holding ⟨strict, level, streams⟩ globals).tracing = true ∨
      messages (runProgram ⟨strict, level, streams⟩ limit p (.start globals)).2.events.toList =
        [] := by
  by_cases traces : 0 < level
  · exact .inl (decide_eq_true traces)
  · obtain rfl : level = 0 := by omega
    right
    rcases beside_of_runs (Nat.le_refl 0) strict streams limit p plain with
      ⟨-, beside⟩ | ⟨s, ⟨message, above, reached, -⟩, -⟩
    · rw [beside.events, messages_visible]
      exact filter_level_zero _
    · omega

/-- What a run at a lower level has in common with one at a higher level. -/
structure Unchanged (low : Nat) (quiet loud : Except Stop Unit × List Event × Session) : Prop where
  result : quiet.1 = loud.1
  globals : quiet.2.2.globals = loud.2.2.globals
  output : quiet.2.2.output quiet.2.1 = loud.2.2.output loud.2.1
  nested : messages quiet.2.1 = (messages loud.2.1).filter fun message => message.level ≤ low
  traceText : quiet.2.2.traceText quiet.2.1 = textOf ((messages quiet.2.1).map Message.text)
  traceText' : loud.2.2.traceText loud.2.1 = textOf ((messages loud.2.1).map Message.text)
  silent : low = 0 → messages quiet.2.1 = []

/-- What a session tells of the run of a program. -/
def Session.told (settings : Settings) (globals : Bindings) (limit : Nat) (p : Program) :
    Except Stop Unit × List Event × Session :=
  (Session.holding settings globals).act (runProgram settings limit p)

theorem unchanged_of_beside {low high : Nat} {strict : Bool} {streams : Streams} {limit : Nat}
    {p : Program} {globals : Bindings} (plain : globals.Plain True)
    (same : (runProgram ⟨strict, high, streams⟩ limit p (.start globals)).1 =
      (runProgram ⟨strict, low, streams⟩ limit p (.start globals)).1)
    (beside : Beside (Forest.Plain True) (fun l l' => l' = l.filter (Event.visible low))
      (runProgram ⟨strict, high, streams⟩ limit p (.start globals)).2
      (runProgram ⟨strict, low, streams⟩ limit p (.start globals)).2) :
    Unchanged low (Session.told ⟨strict, low, streams⟩ globals limit p)
      (Session.told ⟨strict, high, streams⟩ globals limit p) := by
  have lower := apart_of_run strict low streams limit p plain
  have higher := apart_of_run strict high streams limit p plain
  have filtered :
      messages (runProgram ⟨strict, low, streams⟩ limit p (.start globals)).2.events.toList =
        (messages (runProgram ⟨strict, high, streams⟩ limit p
          (.start globals)).2.events.toList).filter fun message => message.level ≤ low := by
    rw [beside.events, messages_visible]
  refine ⟨same.symm, ?_, ?_, filtered, Session.traceText_eq lower, Session.traceText_eq higher, ?_⟩
  · exact congrArg (Forest.bindings · globalScope) beside.scopes.symm
  · calc
      _ = textOf ((runProgram ⟨strict, low, streams⟩ limit p
            (.start globals)).2.events.toList.filterMap Event.printed?) :=
        Session.output_eq lower
      _ = textOf ((runProgram ⟨strict, high, streams⟩ limit p
            (.start globals)).2.events.toList.filterMap Event.printed?) := by
        rw [beside.events, printed_visible]
      _ = _ := (Session.output_eq higher).symm
  · rintro rfl
    exact filtered.trans (filter_level_zero _)

/-- Every message is heard: the log takes all texts, or there are no halves to write. -/
def AllHeard (log : Stream) (p : Program) (globals : Bindings) : Prop :=
  log = .any ∨ p.Encodable ∧ globals.Plain False

theorem AllHeard.result {settings : Settings} {limit : Nat} {p : Program} {globals : Bindings}
    (heard : AllHeard settings.streams.log p globals) {low high : Nat} {s : Stop}
    (unheard : Unheard low high settings.streams.log s) :
    (runProgram settings limit p (.start globals)).1 ≠ .error s := by
  obtain ⟨message, -, -, refused, rfl⟩ := unheard
  intro stopped
  rcases heard with any | ⟨whole, plain⟩
  · rw [any] at refused
    exact refused rfl
  · exact runProgram_ne_unencodable settings limit whole (Forest.plain_single plain) _ stopped

section

variable {low high : Nat} (le : low ≤ high) (strict : Bool) {streams : Streams} (limit : Nat)
  {p : Program} {globals : Bindings}

include le

theorem unchanged_or_unheard (plain : globals.Plain True) :
    Unchanged low (Session.told ⟨strict, low, streams⟩ globals limit p)
        (Session.told ⟨strict, high, streams⟩ globals limit p) ∨
      ∃ s, Unheard low high streams.log s ∧
        (Session.told ⟨strict, high, streams⟩ globals limit p).1 = .error s :=
  (beside_of_runs le strict streams limit p plain).imp_left fun ⟨same, beside⟩ =>
    unchanged_of_beside plain same beside

theorem unchanged_of_heard (plain : globals.Plain True)
    (heard : AllHeard streams.log p globals) :
    Unchanged low (Session.told ⟨strict, low, streams⟩ globals limit p)
      (Session.told ⟨strict, high, streams⟩ globals limit p) := by
  apply (unchanged_or_unheard le strict limit plain).resolve_right
  rintro ⟨s, unheard, stopped⟩
  exact @AllHeard.result ⟨strict, high, streams⟩ _ _ _ heard _ _ _ unheard stopped

end

/-- Where every message is heard, the level of verbosity does not matter for what a run does. -/
theorem told_agrees (strict : Bool) {streams : Streams} (level level' limit : Nat) {p : Program}
    {globals : Bindings} (plain : globals.Plain True) (heard : AllHeard streams.log p globals) :
    let first := Session.told ⟨strict, level, streams⟩ globals limit p
    let second := Session.told ⟨strict, level', streams⟩ globals limit p
    first.1 = second.1 ∧ first.2.2.globals = second.2.2.globals ∧
      first.2.2.output first.2.1 = second.2.2.output second.2.1 := by
  intro first second
  rcases Nat.le_total level level' with le | le
  · have unchanged := unchanged_of_heard le strict limit plain heard
    exact ⟨unchanged.result, unchanged.globals, unchanged.output⟩
  · have unchanged := unchanged_of_heard le strict limit plain heard
    exact ⟨unchanged.result.symm, unchanged.globals.symm, unchanged.output.symm⟩

/-- From variables that no integer is among, a program prints the same, ends alike and leaves the
same variables at any two levels of verbosity, if every message is heard; the messages at the lower
level are those at the higher one that are of no higher level, in their order, and there are none at
the level zero. If not, this is so all the same, unless the louder run is stopped at a message of a
level above the lower one that its log does not take. -/
theorem verbosity_only_watches {low high : Nat} (le : low ≤ high) (strict : Bool)
    (streams : Streams) (limit : Nat) (p : Program) {globals : Bindings}
    (plain : globals.Plain True) :
    let quiet := Session.told ⟨strict, low, streams⟩ globals limit p
    let loud := Session.told ⟨strict, high, streams⟩ globals limit p
    (AllHeard streams.log p globals → Unchanged low quiet loud) ∧
    (Unchanged low quiet loud ∨ ∃ s, Unheard low high streams.log s ∧ loud.1 = .error s) :=
  ⟨unchanged_of_heard le strict limit plain, unchanged_or_unheard le strict limit plain⟩

/-- A program that fails after a block in which a variable is given another value. -/
def failing : Program :=
  ⟨[.declare (.identifier "x" 1) (some (.literal (.bool true))),
    .block [.ifThen (.var (.identifier "x" 2))
      (.print (.assign (.identifier "x" 2) (.literal (.text "y"))))],
    .print (.unary ⟨.subtract, .text "-", 3⟩ (.var (.identifier "x" 3)))]⟩

theorem verbosity_only_watches_failing :
    AllHeard .utf8 failing [(.text "g", .null)] ∧
    (let quiet := Session.told ⟨true, 2, ⟨.utf8, .utf8⟩⟩ [(.text "g", .null)] 5 failing
      let loud := Session.told ⟨true, 4, ⟨.utf8, .utf8⟩⟩ [(.text "g", .null)] 5 failing
      quiet.1 = .error (.fault (.report (.typeError 3 "-y"))) ∧
      messages quiet.2.1 = [.started, .declared "x" "true", .assigned "x" "y",
        .failed (.typeError 3 "-y")] ∧
      (messages loud.2.1).length = 12 ∧ Unchanged 2 quiet loud) := by
  have plain (halves : Prop) : Bindings.Plain halves [(.text "g", .null)] :=
    List.forall_mem_singleton.2 trivial
  have heard : AllHeard .utf8 failing [(.text "g", .null)] := by
    refine .inr ⟨⟨?_, ?_⟩, plain False⟩
    · rw [← List.all_eq_true]
      cbv
    · rw [← List.all_eq_true]
      cbv
  have watched := (verbosity_only_watches (show 2 ≤ 4 by decide) true ⟨.utf8, .utf8⟩ 5 failing
    (plain True)).1 heard
  exact ⟨heard, by cbv, by cbv, by cbv, watched⟩

/-- A variable whose value is a half of a pair. -/
def halved : Program :=
  ⟨[.declare (.identifier "s" 1) (some (.literal (.text [.ofUnit 0xD800])))]⟩

/-- It is declared without a word, but not with one. -/
theorem half_is_unheard :
    (Session.told ⟨false, 0, ⟨.utf8, .utf8⟩⟩ [] 1 halved).1 = .ok () ∧
    (Session.told ⟨false, 2, ⟨.utf8, .utf8⟩⟩ [] 1 halved).1 =
      .error (.fault (.unencodable (("declare s = " : Text) ++ [CodePoint.ofUnit 0xD800]))) := by
  constructor
  · rfl
  · rfl

end TreeWalk.Run
