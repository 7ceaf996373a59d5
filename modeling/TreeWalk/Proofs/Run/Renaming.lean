import Mathlib.Logic.Equiv.Basic
import TreeWalk.Proofs.Run.Faults
import TreeWalk.Proofs.Run.Strictness

/-!
Names are only names. If the variables of a program get other names, different ones for different
variables, and the variables that there are at the start get them as well, the run does the same: it
prints the same and leaves the same variables under their new names. It ends in the same way, but
that an error about a variable tells the new name.
-/

set_option autoImplicit false

namespace TreeWalk

/-- A name that is a text becomes another one. -/
def Name.rename (r : Text → Text) : Name → Name
  | .text s => .text (r s)
  | name => name

def Token.rename (r : Text → Text) (t : Token) : Token :=
  match t.text with
  | .text s => { t with text := .text (r s) }
  | _ => t

def Program.rename (r : Text → Text) (p : Program) : Program :=
  p.mapTokens (Token.rename r) id

def Bindings.rename (r : Text → Text) (b : Bindings) : Bindings :=
  b.map fun entry => (entry.1.rename r, entry.2)

theorem Token.text_rename {t : Token} {s : Text} (text : t.text = .text s)
    (r : Text → Text) : (t.rename r).text = .text (r s) := by
  rw [Token.rename, text]

theorem Token.display_of_text {t : Token} {s : Text} (text : t.text = .text s) :
    t.display = s := by
  rw [Token.display, text]
  rfl

theorem Token.display_rename {t : Token} {s : Text} (text : t.text = .text s)
    (r : Text → Text) : (t.rename r).display = r s :=
  Token.display_of_text (Token.text_rename text r)

theorem Token.line_rename (r : Text → Text) (t : Token) : (t.rename r).line = t.line := by
  unfold Token.rename
  split
  · rfl
  · rfl

section

variable {r : Text → Text}

theorem Name.rename_injective (injective : Function.Injective r) :
    Function.Injective (Name.rename r) := by
  intro a b same
  cases a <;> cases b <;> simp_all [Name.rename]
  exact injective same

theorem Bindings.get?_rename (injective : Function.Injective r) (b : Bindings) (name : Name) :
    (b.rename r).get? (name.rename r) = b.get? name := by
  induction b with
  | nil => rfl
  | cons entry rest ih =>
    have same : entry.1.rename r = name.rename r ↔ entry.1 = name :=
      (Name.rename_injective injective).eq_iff
    simp only [Bindings.rename, List.map_cons, Bindings.get?, same] at ih ⊢
    rw [ih]

theorem Bindings.set_rename (injective : Function.Injective r) (b : Bindings) (name : Name)
    (value : Value) : (b.set name value).rename r = (b.rename r).set (name.rename r) value := by
  induction b with
  | nil => rfl
  | cons entry rest ih =>
    have same : entry.1.rename r = name.rename r ↔ entry.1 = name :=
      (Name.rename_injective injective).eq_iff
    simp only [Bindings.rename, List.map_cons, Bindings.set, same] at ih ⊢
    split
    · rfl
    · rw [List.map_cons, ih]

end

namespace Run

open TreeWalk.Run.Action

/-- The same stop, but that an error about a variable tells its new name, and so does a message
about it that cannot be told. -/
inductive Stop.Renamed (r : Text → Text) : Stop → Stop → Prop where
  | undefined (name : Text) (line : Option Int) :
    Stop.Renamed r (.fault (.report (.undefinedVariable name line)))
      (.fault (.report (.undefinedVariable (r name) line)))
  | assigned (name value : Text) :
    Stop.Renamed r (.fault (.unencodable (Message.assigned name value).text))
      (.fault (.unencodable (Message.assigned (r name) value).text))
  | declared (name value : Text) :
    Stop.Renamed r (.fault (.unencodable (Message.declared name value).text))
      (.fault (.unencodable (Message.declared (r name) value).text))
  | same (s : Stop)
    (other : ∀ report, s = .fault (.report report) → report.name ≠ "UndefinedVariable") :
    Stop.Renamed r s s

/-- Operators do not complain about variables. -/
theorem Complains.renamed {α : Type} {result : Except Fault α} (complains : Complains result)
    (r : Text → Text) {f : Fault} (failed : result = .error f) :
    Stop.Renamed r (.fault f) (.fault f) := by
  apply Stop.Renamed.same
  rintro report ⟨⟩
  obtain other | ⟨line, detail, other⟩ := complains _ failed
  · cases other
  · cases other
    simp [Report.typeError]

theorem Complains.endsAlike {α : Type} {result : Except Fault α} (complains : Complains result)
    (r : Text → Text) :
    EndsAlike (Stop.Renamed r) (fun _ => True) (result.mapError Stop.fault)
      (result.mapError Stop.fault) := by
  cases result with
  | ok a => exact ⟨rfl, trivial⟩
  | error f => exact complains.renamed r rfl

def SamePrints (l l' : List Event) : Prop :=
  l'.filterMap Event.printed? = l.filterMap Event.printed?

theorem samePrints_traced (settings : Settings) (message message' : Message) {l l' : List Event}
    (same : SamePrints l l') :
    SamePrints (traced settings message l) (traced settings message' l') := by
  rw [SamePrints, printed_traced, printed_traced]
  exact same

/-- Messages about variables are not traced, or the log takes those with the new names where it
takes those with the old ones. -/
def ToldAlike (settings : Settings) (r : Text → Text) : Prop :=
  settings.verbosity < 2 ∨ settings.streams.log = .any ∨
    ∀ name : Text, (r name).encodable = name.encodable

theorem ToldAlike.takes {settings : Settings} {r : Text → Text} (alike : ToldAlike settings r)
    (reached : 2 ≤ settings.verbosity) {name before between shown : Text} :
    settings.streams.log.takes (before ++ name ++ between ++ shown) =
      settings.streams.log.takes (before ++ r name ++ between ++ shown) := by
  rcases alike with above | any | same
  · omega
  · rw [any]
    rfl
  · cases settings.streams.log with
    | any => rfl
    | utf8 => simp only [Stream.takes, Text.encodable_append, same]

theorem renamed_unencodable (r : Text → Text) (t : Text) :
    Stop.Renamed r (.fault (.unencodable t)) (.fault (.unencodable t)) :=
  .same _ (by rintro _ ⟨⟩)

/-- What is told about a value does not matter, if it can be told. -/
theorem renamed_traceValue {r : Text → Text} {F : Forest → Forest → Prop} {settings : Settings}
    {level : Nat} (v : Value) {message message' : Text → Message}
    (levels : ∀ shown, (message shown).level = (message' shown).level)
    (taken : level ≤ settings.verbosity → ∀ shown,
      settings.streams.take (.traced (message shown)) =
        settings.streams.take (.traced (message' shown)))
    (refused : ∀ shown, Stop.Renamed r (.fault (.unencodable (message shown).text))
      (.fault (.unencodable (message' shown).text))) :
    InStep (Aligned F SamePrints) (Stop.Renamed r) Never (fun _ => True)
      (traceValue settings level v message) (traceValue settings level v message') := by
  by_cases reached : level ≤ settings.verbosity
  · exact aligned_traceValue (fun _ failed => (complains_orTooLarge _).renamed r failed) levels
      (taken reached) refused (fun _ _ _ same => samePrints_traced settings _ _ same) level
  · unfold traceValue
    rw [if_neg reached, if_neg reached]
    exact .pure trivial

theorem alignment_rename {r : Text → Text} (injective : Function.Injective r)
    {settings : Settings} (alike : ToldAlike settings r) :
    Alignment (fun t => ∃ s, t.text = .text s) settings settings (Token.rename r) id
      (Name.rename r) (Forest.Alike fun b b' => b' = b.rename r) SamePrints (Stop.Renamed r)
      Never (fun _ => True) where
  strict := rfl
  output := rfl
  kind := fun _ => rfl
  named := by
    rintro name ⟨s, text⟩
    rw [Token.text_rename text, text]
    rfl
  unfinished := .same _ nofun
  unhashable := fun _ => .same _ (by rintro _ ⟨⟩)
  unsaid := fun _ _ _ failed => (complains_orTooLarge _).renamed r failed
  unencodable := renamed_unencodable r
  undefined := by
    rintro name ⟨s, text⟩
    rw [Token.line_rename, Token.display_of_text text, Token.display_rename text]
    exact .undefined s _
  unary := fun operator v _ => (complains_applyUnary operator v).endsAlike r
  binary := fun operator a b _ _ => (complains_applyBinary operator a b).endsAlike r
  literal := fun _ => trivial
  size := fun _ _ alike => alike.size
  depth := fun _ _ env alike => alike.depth env
  resolve := by
    intro f f' env name key alike _ _
    apply alike.resolve
    rintro b _ rfl
    exact (Bindings.get?_rename injective b key).symm
  get? := by
    intro f f' env name key alike _ _
    apply alike.get?
    rintro b _ rfl
    exact (Bindings.get?_rename injective b key).symm
  bound := fun _ _ _ _ _ _ _ => trivial
  define := by
    intro f f' env key v alike _
    apply alike.define
    rintro b _ rfl
    exact (Bindings.set_rename injective b key v).symm
  push := fun _ _ env alike => alike.push rfl (some env)
  printed := by
    intro shown l l' same
    rw [SamePrints, List.filterMap_append, List.filterMap_append, same]
  trace := fun message _ _ same => samePrints_traced settings message message same
  reveals := fun level v message _ _ => renamed_traceValue v (fun _ => rfl) (fun _ _ => rfl)
    fun _ => renamed_unencodable r _
  assigned := by
    rintro name v ⟨s, text⟩ _
    rw [Token.display_of_text text, Token.display_rename text]
    exact renamed_traceValue v (fun _ => rfl) (fun reached _ => alike.takes reached)
      fun shown => .assigned s shown
  declared := by
    rintro name v ⟨s, text⟩ _
    rw [Token.display_of_text text, Token.display_rename text]
    exact renamed_traceValue v (fun _ => rfl) (fun reached _ => alike.takes reached)
      fun shown => .declared s shown

/-- A program whose variables are named by texts, and one that has other names for them, different
ones for different variables: from variables with the same values, these runs end in the same way,
print the same and leave variables with the same values. An error about a variable tells its new
name, on the same line. The new names are such that messages about them are told where those with
the old ones are, if such messages are traced at all. -/
theorem names_are_only_names {r : Text → Text} (injective : Function.Injective r)
    {settings : Settings} (alike : ToldAlike settings r) (limit : Nat) {p : Program}
    (texts : TextNames (Stmt.namesAll p.statements)) (globals : Bindings)
    {result result' : Except Stop Unit} {events events' : List Event}
    {session session' : Session}
    (first : (Session.holding settings globals).act (runProgram settings limit p) =
      (result, events, session))
    (second : (Session.holding settings (globals.rename r)).act
      (runProgram settings limit (p.rename r)) = (result', events', session')) :
    EndsAlike (Stop.Renamed r) (fun _ => True) result result' ∧
      session'.output events' = session.output events ∧
      session'.globals = session.globals.rename r := by
  obtain ⟨rfl, left, output, -⟩ := Session.act_runProgram first
  obtain ⟨rfl, left', output', -⟩ := Session.act_runProgram second
  have steps := (alignment_rename injective alike).simulation.executeAll limit globalScope
    p.statements texts
  have scopes : Forest.Alike (fun b b' => b' = b.rename r) (.single globals)
      (.single (globals.rename r)) := by
    apply Forest.alike_single
    · rfl
    · rfl
  have start : Aligned (Forest.Alike fun b b' => b' = b.rename r) SamePrints (.start globals)
      (.start (globals.rename r)) := ⟨scopes, rfl, rfl⟩
  have started := start.trace fun _ _ => samePrints_traced settings .started .started
  have after := steps.keeps _ _ started
  refine ⟨steps.ends _ _ started, ?_, ?_⟩
  · rw [output, output']
    exact congrArg textOf after.events
  · rw [left, left']
    exact after.scopes.values globalScope

/-- Two names change places. A variable is declared in a block from the value of the other one, is
printed there, and is not bound behind the block. -/
theorem names_are_only_names_swap :
    let r : Text → Text := Equiv.swap ("x" : Text) "y"
    let p : Program := ⟨[.block [.declare (.identifier "x" 1) (some (.var (.identifier "y" 1))),
      .print (.var (.identifier "x" 2))], .print (.var (.identifier "x" 3))]⟩
    let globals : Bindings := [(.text "y", .bool true)]
    let settings : Settings := ⟨true, 0, ⟨.utf8, .utf8⟩⟩
    TextNames (Stmt.namesAll p.statements) ∧ ∃ result events session result' events' session',
      (Session.holding settings globals).act (runProgram settings 0 p) =
        (result, events, session) ∧
      (Session.holding settings (globals.rename r)).act (runProgram settings 0 (p.rename r)) =
        (result', events', session') ∧
      result = .error (.fault (.report (.undefinedVariable "x" (some 3)))) ∧
      result' = .error (.fault (.report (.undefinedVariable "y" (some 3)))) ∧
      EndsAlike (Stop.Renamed r) (fun _ => True) result result' ∧
      session.output events = "true\n" ∧ session'.output events' = session.output events ∧
      session'.globals = [(.text "x", .bool true)] := by
  intro r p globals settings
  have texts : TextNames (Stmt.namesAll p.statements) := by
    intro t member
    simp only [p, Stmt.namesAll, Stmt.names, Expr.names, List.append_nil, List.cons_append,
      List.nil_append, List.mem_cons, List.not_mem_nil, or_false] at member
    rcases member with rfl | rfl | rfl | rfl
    all_goals exact ⟨_, rfl⟩
  have alike : ToldAlike settings r := .inl Nat.two_pos
  obtain ⟨ends, output, left⟩ := names_are_only_names
    (Equiv.swap ("x" : Text) "y").injective alike 0 texts globals rfl rfl
  refine ⟨texts, _, _, _, _, _, _, rfl, rfl, by cbv, by cbv, ends, by cbv, output, ?_⟩
  rw [left]
  cbv

end Run

end TreeWalk
