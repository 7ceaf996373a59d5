import TreeWalk.Proofs.Run.Strictness

/-!
What is for reports alone does not interfere with a run. Of a tree, the lines of its tokens, the
texts of its operators and the kinds of its names are taken away; the run of what is left goes
through the same machines as that of the tree, and stops where it does. So trees that differ in
nothing else have runs that differ only in the report that ends them.
-/

set_option autoImplicit false

namespace TreeWalk

/-- A name with nothing but its text. -/
def Token.bareName (t : Token) : Token := ⟨.identifier, t.text, 0⟩

/-- An operator with nothing but its kind. -/
def Token.bareOperator (t : Token) : Token := ⟨t.kind, .null, 0⟩

/-- A program without what is for reports alone. -/
def Program.bare (p : Program) : Program := p.mapTokens Token.bareName Token.bareOperator

namespace Run

open TreeWalk.Run.Action

theorem Stop.alike_iff {s s' : Stop} : s.Alike s' ↔ s = s' ∨ ∃ r r', s = .fault (.report r) ∧
    s' = .fault (.report r') ∧ r.name = r'.name ∧
      (r.name = "UndefinedVariable" → r.message = r'.message) := by
  constructor
  · intro alike
    unfold Stop.Alike at alike
    split at alike
    · next r r' => exact .inr ⟨r, r', rfl, rfl, alike⟩
    · exact .inl alike
  · rintro (rfl | ⟨r, r', rfl, rfl, alike⟩)
    · exact .refl s
    · exact alike

theorem Stop.Alike.symm {s s' : Stop} (alike : s.Alike s') : s'.Alike s := by
  rcases Stop.alike_iff.1 alike with rfl | ⟨r, r', rfl, rfl, name, message⟩
  · exact .refl s
  · exact ⟨name.symm, fun undefined => (message (name.trans undefined)).symm⟩

theorem Stop.Alike.trans {s s' s'' : Stop} (first : s.Alike s') (second : s'.Alike s'') :
    s.Alike s'' := by
  rcases Stop.alike_iff.1 first with rfl | ⟨r, r', rfl, rfl, name, message⟩
  · exact second
  rcases Stop.alike_iff.1 second with rfl | ⟨r', r'', same, rfl, name', message'⟩
  · exact first
  cases same
  refine ⟨name.trans name', ?_⟩
  intro undefined
  exact (message undefined).trans (message' (name ▸ undefined))

theorem Stop.Alike.unfinished_iff {s s' : Stop} (alike : s.Alike s') :
    s = .unfinished ↔ s' = .unfinished := by
  rcases Stop.alike_iff.1 alike with rfl | ⟨r, r', rfl, rfl, -⟩
  · rfl
  · simp

section

variable {α : Type} {E : Stop → Stop → Prop} {r r' r'' : Except Stop α}

theorem EndsAlike.symm (symm : ∀ s s', E s s' → E s' s)
    (alike : EndsAlike E (fun _ => True) r r') : EndsAlike E (fun _ => True) r' r := by
  match r, r', alike with
  | .ok a, .ok _, ⟨rfl, _⟩ => exact ⟨rfl, trivial⟩
  | .error s, .error s', stops => exact symm s s' stops

theorem EndsAlike.trans (trans : ∀ s s' s'', E s s' → E s' s'' → E s s'')
    (first : EndsAlike E (fun _ => True) r r') (second : EndsAlike E (fun _ => True) r' r'') :
    EndsAlike E (fun _ => True) r r'' := by
  match r, r', r'', first, second with
  | .ok a, .ok _, .ok _, ⟨rfl, _⟩, ⟨rfl, _⟩ => exact ⟨rfl, trivial⟩
  | .error s, .error s', .error s'', stops, stops' => exact trans s s' s'' stops stops'

theorem EndsAlike.unfinished_iff (alike : EndsAlike Stop.Alike (fun _ => True) r r') :
    r = .error .unfinished ↔ r' = .error .unfinished := by
  match r, r', alike with
  | .ok _, .ok _, _ => simp
  | .error s, .error s', stops =>
    rw [Except.error.injEq, Except.error.injEq]
    exact Stop.Alike.unfinished_iff stops

end

theorem Beside.eq {settings : Settings} {before : List Event} {m m' : Machine}
    (beside : Beside (fun _ => True) (Added settings before before) m m') : m = m' := by
  obtain ⟨forest, cursor, events⟩ := m'
  obtain ⟨rfl, -, rfl, added, left, right, -⟩ := beside
  obtain rfl : m.events = events := Array.toList_inj.1 (left.trans right.symm)
  rfl

/-- The statements of a program and those of the bare one take a machine to the same machine. -/
theorem executeAll_bare (settings : Settings) (limit : Nat) (p : Program) (m : Machine) :
    EndsAlike Stop.Alike (fun _ => True)
        (executeAll settings limit globalScope p.statements m).1
        (executeAll settings limit globalScope p.bare.statements m).1 ∧
      (executeAll settings limit globalScope p.statements m).2 =
        (executeAll settings limit globalScope p.bare.statements m).2 := by
  have same := @sameScopes_tokens settings Token.bareName Token.bareOperator (fun _ => rfl)
    (fun _ => rfl) m.events.toList m.events.toList
  have steps := same.simulation.executeAll limit globalScope p.statements
  have beside : Beside (fun _ => True) (Added settings m.events.toList m.events.toList) m m :=
    ⟨rfl, trivial, rfl, .refl _ _ _⟩
  exact ⟨steps.ends m m beside, (steps.keeps m m beside).eq⟩

theorem executeAll_of_bare_eq {p p' : Program} (same : p.bare = p'.bare) (settings : Settings)
    (limit : Nat) (m : Machine) :
    EndsAlike Stop.Alike (fun _ => True)
        (executeAll settings limit globalScope p.statements m).1
        (executeAll settings limit globalScope p'.statements m).1 ∧
      (executeAll settings limit globalScope p.statements m).2 =
        (executeAll settings limit globalScope p'.statements m).2 := by
  obtain ⟨ends, machine⟩ := executeAll_bare settings limit p m
  obtain ⟨ends', machine'⟩ := executeAll_bare settings limit p' m
  rw [← same] at ends' machine'
  have back := ends'.symm fun _ _ => Stop.Alike.symm
  exact ⟨ends.trans (fun _ _ _ => Stop.Alike.trans) back, machine.trans machine'.symm⟩

/-- From the same variables, programs that differ only in the lines of their tokens, in the texts of
their operators and in the kinds of their names are unfinished together, print the same, leave the
same variables and end alike: a report that ends them has the same name, and the same message if it
is about a variable. All events are the same but for the one that tells this report. -/
theorem diagnostics_do_not_interfere (settings : Settings) (limit : Nat) {p p' : Program}
    (same : p.bare = p'.bare) (globals : Bindings) {result result' : Except Stop Unit}
    {events events' : List Event} {session session' : Session}
    (first : (Session.holding settings globals).act (runProgram settings limit p) =
      (result, events, session))
    (second : (Session.holding settings globals).act (runProgram settings limit p') =
      (result', events', session')) :
    (result = .error .unfinished ↔ result' = .error .unfinished) ∧
      EndsAlike Stop.Alike (fun _ => True) result result' ∧
      session.output events = session'.output events' ∧ session.globals = session'.globals ∧
      ∃ common, events = common ++ closing settings result ∧
        events' = common ++ closing settings result' := by
  obtain ⟨rfl, left, output, told⟩ := Session.act_runProgram first
  obtain ⟨rfl, left', output', told'⟩ := Session.act_runProgram second
  obtain ⟨ends, machine⟩ := executeAll_of_bare_eq same settings limit
    (Machine.trace settings .started (.start globals))
  rw [← machine] at left' output' told'
  refine ⟨ends.unfinished_iff, ends, ?_, ?_, _, told, told'⟩
  · rw [output, output']
  · rw [left, left']

/-- Two programs negate a variable that is no number, in a block. The names of the second one are of
other kinds, its lines are others, and so is the text of its operator. -/
theorem diagnostics_do_not_interfere_negation :
    let p : Program := ⟨[.declare (.identifier "x" 1) (some (.literal (.bool true))),
      .block [.print (.var (.identifier "x" 2)),
        .print (.unary ⟨.subtract, .text "-", 3⟩ (.var (.identifier "x" 3)))]]⟩
    let p' : Program := ⟨[.declare ⟨.or, .text "x", 9⟩ (some (.literal (.bool true))),
      .block [.print (.var ⟨.add, .text "x", 0⟩),
        .print (.unary ⟨.subtract, .text "minus ", -4⟩ (.var ⟨.less, .text "x", 7⟩))]]⟩
    p.bare = p'.bare ∧ ∃ result events session result' events' session' common,
      (Session.holding ⟨true, 3, ⟨.utf8, .utf8⟩⟩ []).act
        (runProgram ⟨true, 3, ⟨.utf8, .utf8⟩⟩ 1 p) = (result, events, session) ∧
      (Session.holding ⟨true, 3, ⟨.utf8, .utf8⟩⟩ []).act
        (runProgram ⟨true, 3, ⟨.utf8, .utf8⟩⟩ 1 p') =
        (result', events', session') ∧
      result = .error (.fault (.report (.typeError 3 "-true"))) ∧
      result' = .error (.fault (.report (.typeError (-4) "minus true"))) ∧
      session.output events = "true\n" ∧ session'.output events' = session.output events ∧
      session'.globals = session.globals ∧
      events = common ++ [.traced (.failed (.typeError 3 "-true"))] ∧
      events' = common ++ [.traced (.failed (.typeError (-4) "minus true"))] := by
  intro p p'
  have same : p.bare = p'.bare := rfl
  obtain ⟨-, -, output, globals, common, told, told'⟩ :=
    diagnostics_do_not_interfere ⟨true, 3, ⟨.utf8, .utf8⟩⟩ 1 same [] rfl rfl
  have failed : (runProgram ⟨true, 3, ⟨.utf8, .utf8⟩⟩ 1 p (.start [])).1 =
      .error (.fault (.report (.typeError 3 "-true"))) := by cbv
  have failed' : (runProgram ⟨true, 3, ⟨.utf8, .utf8⟩⟩ 1 p' (.start [])).1 =
      .error (.fault (.report (.typeError (-4) "minus true"))) := by cbv
  refine ⟨same, _, _, _, _, _, _, common, rfl, rfl, failed, failed', by cbv, output.symm,
    globals.symm, ?_, ?_⟩
  · rw [told]
    exact congrArg (fun result => common ++ closing ⟨true, 3, ⟨.utf8, .utf8⟩⟩ result) failed
  · rw [told']
    exact congrArg (fun result => common ++ closing ⟨true, 3, ⟨.utf8, .utf8⟩⟩ result) failed'

end Run

end TreeWalk
