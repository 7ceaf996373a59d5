import TreeWalk.Proofs.Run.Frames
import TreeWalk.Proofs.Run.Watched
import TreeWalk.Proofs.Scope.Visibility
import TreeWalk.Proofs.Source.WellFormed

/-!
Variables are resolved lexically. The names that are declared before a place in the blocks around it
are known from the tree alone. Wherever a run of a program comes to look up a variable at that
place, in whatever round of a loop, these are the names that the scopes around it bind. So it is
read from, or assigned to, a scope that is the same number of scopes outward each time, or it is
never found.
-/

set_option autoImplicit false

namespace TreeWalk

/-- A variable that stands in a tree, and the names declared before it in the blocks around it and
in the program, innermost first. -/
structure Site where
  name : Token
  around : List (List Name)

/-- How many blocks outward the name is declared; none if it is not. -/
def Site.hops (site : Site) : Option Nat :=
  site.name.key?.bind fun name => site.around.findIdx? fun names => names.contains name

/-- The variable that stands at a place of an expression. A place is a way from part to part down
the tree; the parts are numbered in the order of the text. -/
def Expr.nameAt? : Expr → List Nat → Option Token
  | .var name, [] | .assign name _, [] => some name
  | .assign _ e, 0 :: place | .grouping e, 0 :: place | .unary _ e, 0 :: place |
    .logical e _ _, 0 :: place | .binary e _ _, 0 :: place |
    .logical _ _ e, 1 :: place | .binary _ _ e, 1 :: place => e.nameAt? place
  | _, _ => none

def Expr.site? (around : List (List Name)) (e : Expr) (place : List Nat) : Option Site :=
  (e.nameAt? place).map fun name => ⟨name, around⟩

mutual

/-- The variable that stands at a place of a statement. -/
def Stmt.site? (around : List (List Name)) : Stmt → List Nat → Option Site
  | .print e, 0 :: place | .expression e, 0 :: place | .declare _ (some e), 0 :: place |
    .ifThen e _, 0 :: place | .ifThenElse e _ _, 0 :: place | .loop e _, 0 :: place =>
    e.site? around place
  | .block body, 0 :: place => Stmt.siteAll? [] around body place
  | .ifThen _ s, 1 :: place | .ifThenElse _ s _, 1 :: place | .ifThenElse _ _ s, 2 :: place |
    .loop _ s, 1 :: place => s.site? around place
  | _, _ => none

/-- The same for the statements of a block or of the program, with the names that are declared
before them in it. The first statement is one part and those behind it are another. -/
def Stmt.siteAll? (names : List Name) (around : List (List Name)) :
    List Stmt → List Nat → Option Site
  | s :: _, 0 :: place => s.site? (names :: around) place
  | s :: rest, 1 :: place => Stmt.siteAll? (s.declared ++ names) around rest place
  | _, _ => none

end

def Program.site? (p : Program) (place : List Nat) : Option Site :=
  Stmt.siteAll? [] [] p.statements place

theorem Expr.mem_names_of_nameAt? {e : Expr} {place : List Nat} {name : Token}
    (h : e.nameAt? place = some name) : name ∈ e.names := by
  fun_induction Expr.nameAt? e place <;> grind [Expr.names]

theorem Expr.mem_names_of_site? {e : Expr} {around : List (List Name)} {place : List Nat}
    {site : Site} (h : e.site? around place = some site) : site.name ∈ e.names := by
  obtain ⟨name, found, rfl⟩ := Option.map_eq_some_iff.1 h
  exact Expr.mem_names_of_nameAt? found

theorem Stmt.mem_names_of_site? (place : List Nat) :
    (∀ (s : Stmt) (around : List (List Name)) (site : Site), s.site? around place = some site →
      site.name ∈ s.names) ∧
    ∀ (body : List Stmt) (names : List Name) (around : List (List Name)) (site : Site),
      Stmt.siteAll? names around body place = some site → site.name ∈ Stmt.namesAll body := by
  -- On the place, not on the tree: each step down uses up one part of it.
  induction place with
  | nil =>
    constructor
    · intro s around site h
      cases s <;> simp [Stmt.site?] at h
    · intro body names around site h
      cases body <;> simp [Stmt.siteAll?] at h
  | cons part place ih =>
    obtain ⟨inStmt, inBody⟩ := ih
    constructor
    · intro s around site h
      unfold Stmt.site? at h
      split at h <;> grind [Stmt.names, Expr.mem_names_of_site?]
    · intro body names around site h
      unfold Stmt.siteAll? at h
      split at h <;> grind [Stmt.namesAll]

namespace Run

open TreeWalk.Run.Action

/-- The scope is the active one, and it and those around it bind these names. -/
structure Stands (env : ScopeId) (around : List (List Name)) (m : Machine) : Prop where
  mirrors : m.scopes.Mirrors env around
  cursor : m.cursor = env

theorem Stands.after {α : Type} {env : ScopeId} {around : List (List Name)} {x : Action α}
    {m m' : Machine} {result : Except Stop α} (stands : Stands env around m)
    (framed : Framed env [] x m) (ran : x m = (result, m')) : Stands env around m' := by
  obtain ⟨grows, cursor⟩ := framed
  rw [ran] at grows cursor
  exact ⟨grows.mirrors stands.mirrors, cursor.trans stands.cursor⟩

/-- Declarations stand in blocks alone, not as parts of branches and loops. -/
inductive BlockScoped : Stmt → Prop where
  | print (e : Expr) : BlockScoped (.print e)
  | expression (e : Expr) : BlockScoped (.expression e)
  | declare (name : Token) (initial : Option Expr) : BlockScoped (.declare name initial)
  | block {body : List Stmt} (inner : ∀ s ∈ body, BlockScoped s) : BlockScoped (.block body)
  | ifThen {condition : Expr} {yes : Stmt} (inner : BlockScoped yes) (free : yes.declared = []) :
    BlockScoped (.ifThen condition yes)
  | ifThenElse {condition : Expr} {yes no : Stmt} (inner : BlockScoped yes)
    (free : yes.declared = []) (inner' : BlockScoped no) (free' : no.declared = []) :
    BlockScoped (.ifThenElse condition yes no)
  | loop {condition : Expr} {body : Stmt} (inner : BlockScoped body) (free : body.declared = []) :
    BlockScoped (.loop condition body)

theorem blockScoped_of_wellStmt {category : Source.Category} {s : Stmt}
    (well : Source.WellStmt category s) :
    BlockScoped s ∧ (category = .statement → s.declared = []) := by
  induction well with
  | declare | initial => exact ⟨.declare _ _, nofun⟩
  | statement _ ih => exact ⟨ih.1, nofun⟩
  | print => exact ⟨.print _, fun _ => rfl⟩
  | expression => exact ⟨.expression _, fun _ => rfl⟩
  | block _ ih => exact ⟨.block fun s member => (ih s member).1, fun _ => rfl⟩
  | ifThen _ _ ih => exact ⟨.ifThen ih.1 (ih.2 rfl), fun _ => ih.2 rfl⟩
  | ifThenElse _ _ _ _ ih ih' =>
    refine ⟨.ifThenElse ih.1 (ih.2 rfl) ih'.1 (ih'.2 rfl), fun _ => ?_⟩
    rw [Stmt.declared, ih.2 rfl, ih'.2 rfl, List.append_nil]
  | loop _ _ ih => exact ⟨.loop ih.1 (ih.2 rfl), fun _ => ih.2 rfl⟩

theorem bind_eq_ok {α β : Type} {x : Action α} {f : α → Action β} {m m' : Machine} {b : β}
    (h : (x >>= f) m = (.ok b, m')) : ∃ a n, x m = (.ok a, n) ∧ f a n = (.ok b, m') := by
  rw [bind_apply] at h
  generalize x m = after at h
  obtain ⟨result, n⟩ := after
  cases result with
  | ok a => exact ⟨a, n, rfl, h⟩
  | error s => cases h

theorem Stands.declared {settings : Settings} {env : ScopeId} {names : List Name}
    {around : List (List Name)} {name : Token} {v : Value} {m m' : Machine}
    (stands : Stands env (names :: around) m)
    (ran : declareVariable settings env name v m = (.ok (), m')) :
    Stands env ((name.key?.toList ++ names) :: around) m' := by
  unfold declareVariable at ran
  obtain ⟨key, n, named, later⟩ := bind_eq_ok ran
  obtain ⟨key?, rfl⟩ := nameOf_eq_ok named
  obtain ⟨_, n', defined, traced⟩ := bind_eq_ok later
  cases defined
  rw [key?]
  have bound : Stands env ((key :: names) :: around)
      { n with scopes := n.scopes.define env key v } :=
    ⟨stands.mirrors.define key v, stands.cursor⟩
  exact bound.after (framed_traceValue settings _ _ _) traced

theorem Stands.executed {settings : Settings} {limit : Nat} {env : ScopeId} {names : List Name}
    {around : List (List Name)} {s : Stmt} {m m' : Machine} (nested : BlockScoped s)
    (stands : Stands env (names :: around) m)
    (ran : execute settings limit env s m = (.ok (), m')) :
    Stands env ((s.declared ++ names) :: around) m' := by
  have kept (free : s.declared = []) : Stands env ((s.declared ++ names) :: around) m' := by
    have framed := framed_execute settings limit env s m
    rw [free] at framed ⊢
    exact stands.after framed ran
  cases nested with
  | declare name initial =>
    cases initial with
    | none =>
      rw [execute] at ran
      exact stands.declared ran
    | some e =>
      rw [execute] at ran
      obtain ⟨v, n, evaluated, ran⟩ := bind_eq_ok ran
      exact (stands.after (framed_evaluate settings env e m) evaluated).declared ran
  | print | expression | block => exact kept rfl
  | ifThen _ free | loop _ free => exact kept free
  | ifThenElse _ free _ free' =>
    apply kept
    rw [Stmt.declared, free, free', List.append_nil]

/-- The names that a task declares stand in blocks, where it is part of a branch or a loop. -/
def Task.Nested : Task → Prop
  | .program p => ∀ s ∈ p.statements, BlockScoped s
  | .statements _ body => ∀ s ∈ body, BlockScoped s
  | .statement _ s => BlockScoped s
  | .rounds _ _ body _ _ => BlockScoped body ∧ body.declared = []
  | .expression _ _ => True

/-- The variables that stand at places of a task, where names are declared before it in its own
block and in those around it. -/
def Task.site? (names : List Name) (outer : List (List Name)) : Task → List Nat → Option Site
  | .program p => Stmt.siteAll? names outer p.statements
  | .statements _ body => Stmt.siteAll? names outer body
  | .statement _ s => s.site? (names :: outer)
  | .rounds _ condition body _ _ => (Stmt.loop condition body).site? (names :: outer)
  | .expression _ e => e.site? (names :: outer)

/-- The scopes of a task at a machine bind names that are declared before it, and its variables
are those at a place of a tree. -/
def At (site? : List Nat → Option Site) (task : Task) (m : Machine) : Prop :=
  ∃ names outer, Stands task.scope (names :: outer) m ∧ task.Nested ∧
    task.site? names outer = site?

section

variable {settings : Settings} {limit : Nat} {task inner last : Task} {m m' : Machine}
  {part place : List Nat}

theorem site?_of_firstValue? {around : List (List Name)} {s : Stmt} {e : Expr}
    (starts : firstValue? s = some e) (place : List Nat) :
    s.site? around (0 :: place) = e.site? around place := by
  unfold firstValue? at starts
  split at starts <;> cases starts <;> rw [Stmt.site?]

theorem nameAt?_of_firstOperand? {whole e : Expr} (starts : firstOperand? whole = some e)
    (place : List Nat) : whole.nameAt? (0 :: place) = e.nameAt? place := by
  unfold firstOperand? at starts
  split at starts <;> cases starts <;> rw [Expr.nameAt?]

theorem Stands.entered {env : ScopeId} {around : List (List Name)}
    (stands : Stands env around m) (settings : Settings) :
    Stands m.scopes.size ([] :: around) (entered settings env m) :=
  ⟨by rw [scopes_entered]; exact stands.mirrors.push, cursor_entered settings env m⟩

/-- A call is at a place of its caller, and the names that are declared before it there are those
that its scopes bind. -/
theorem at_of_calls {site? : List Nat → Option Site}
    (calls : Calls settings limit task m part inner m') (here : At site? task m) :
    At (fun place => site? (part ++ place)) inner m' := by
  obtain ⟨names, outer, stands, nested, rfl⟩ := here
  cases calls with
  | program p =>
    refine ⟨names, outer, ⟨?_, ?_⟩, nested, rfl⟩
    · rw [scopes_trace]
      exact stands.mirrors
    · exact (cursor_trace settings _ _).trans stands.cursor
  | first env s rest =>
    refine ⟨names, outer, stands, nested s List.mem_cons_self, funext fun place => ?_⟩
    rw [Task.site?, Task.site?, List.singleton_append, Stmt.siteAll?]
  | @next env s rest _ _ ran =>
    obtain ⟨first, others⟩ := List.forall_mem_cons.1 nested
    refine ⟨s.declared ++ names, outer, stands.executed first ran, others, funext fun place => ?_⟩
    rw [Task.site?, Task.site?, List.singleton_append, Stmt.siteAll?]
  | value starts =>
    refine ⟨names, outer, stands, trivial, funext fun place => ?_⟩
    exact (site?_of_firstValue? starts place).symm
  | block env body =>
    cases nested with | block inside =>
    refine ⟨[], names :: outer, stands.entered settings, inside, funext fun place => ?_⟩
    rw [Task.site?, Task.site?, List.singleton_append, Stmt.site?]
  | alone tested =>
    cases nested with | ifThen inside =>
    have after := stands.after (framed_testCondition settings _ _ m) tested
    refine ⟨names, outer, after, inside, funext fun place => ?_⟩
    rw [Task.site?, Task.site?, List.singleton_append, Stmt.site?]
  | yes tested =>
    cases nested with | ifThenElse inside =>
    have after := stands.after (framed_testCondition settings _ _ m) tested
    refine ⟨names, outer, after, inside, funext fun place => ?_⟩
    rw [Task.site?, Task.site?, List.singleton_append, Stmt.site?]
  | no tested =>
    cases nested with | ifThenElse _ _ inside =>
    have after := stands.after (framed_testCondition settings _ _ m) tested
    refine ⟨names, outer, after, inside, funext fun place => ?_⟩
    rw [Task.site?, Task.site?, List.singleton_append, Stmt.site?]
  | loop env condition body =>
    cases nested with | loop inside free =>
    exact ⟨names, outer, stands, ⟨inside, free⟩, rfl⟩
  | test env condition body =>
    refine ⟨names, outer, stands, trivial, funext fun place => ?_⟩
    rw [Task.site?, Task.site?, List.singleton_append, Stmt.site?]
  | round tested =>
    have after := stands.after (framed_loopTest settings _ _ m) tested
    refine ⟨names, outer, after, nested.1, funext fun place => ?_⟩
    rw [Task.site?, Task.site?, List.singleton_append, Stmt.site?]
  | @again env condition body _ _ _ n _ tested ran =>
    -- Here it matters that the body declares nothing outside of its blocks: a second round would
    -- see names that are declared after the place.
    have framed := framed_execute settings limit env body n
    rw [nested.2] at framed
    have after := (stands.after (framed_loopTest settings _ _ m) tested).after framed ran
    exact ⟨names, outer, after, nested, rfl⟩
  | operand starts =>
    refine ⟨names, outer, stands, trivial, funext fun place => ?_⟩
    exact (congrArg (Option.map _) (nameAt?_of_firstOperand? starts place)).symm
  | logical evaluated | binary evaluated =>
    exact ⟨names, outer, stands.after (framed_evaluate settings _ _ m) evaluated, trivial, rfl⟩

theorem at_of_reaches {site? : List Nat → Option Site}
    (reaches : Reaches settings limit task m place last m') (here : At site? task m) :
    At (fun rest => site? (place ++ rest)) last m' := by
  induction reaches generalizing site? with
  | here => exact here
  | inside calls _ ih =>
    have there := ih (at_of_calls calls here)
    simp only [List.append_assoc]
    exact there

end

/-- Reading a variable gives the value that it has so many scopes outward. A variable that is not
found is an error in a strict run, and null otherwise. -/
def ReadsFrom (settings : Settings) (env : ScopeId) (name : Token) (key : Name) (m : Machine) :
    Option Nat → Prop
  | some n => ∃ scope v m', (m.scopes.chain env)[n]? = some scope ∧
    (m.scopes.bindings scope).get? key = some v ∧
    evaluate settings env (.var name) m = (.ok v, m') ∧ m'.scopes = m.scopes
  | none =>
    if settings.strict then evaluate settings env (.var name) m =
      (.error (.fault (.report (.undefinedVariable name.display (some name.line)))), m)
    else ∃ m', evaluate settings env (.var name) m = (.ok .null, m') ∧ m'.scopes = m.scopes

/-- Assigning a value that is evaluated first binds the variable to it so many scopes outward from
there. A variable that is not found is an error. -/
def WritesTo (settings : Settings) (env : ScopeId) (name : Token) (key : Name) (value : Expr)
    (m : Machine) (v : Value) (m' : Machine) : Option Nat → Prop
  | some n => ∃ scope m'', (m'.scopes.chain env)[n]? = some scope ∧
    (m'.scopes.bindings scope).binds key = true ∧
    evaluate settings env (.assign name value) m = (.ok v, m'') ∧
    m''.scopes = m'.scopes.define scope key v
  | none => evaluate settings env (.assign name value) m =
    (.error (.fault (.report (.undefinedVariable name.display (some name.line)))), m')

section

variable {settings : Settings} {env : ScopeId} {name : Token} {key : Name} {v : Value}
  {m m' : Machine}

theorem traceValue_of_plain {message : Text → Message} (plain : v.Plain False)
    (spells : Spells False message) (level : Nat) :
    ∃ n, traceValue settings level v message m = (.ok (), n) ∧ n.scopes = m.scopes := by
  unfold traceValue
  split
  · obtain ⟨shown, text, fits⟩ := Value.toText_of_plain plain
    have whole : (message shown).text.encodable = true := (spells shown fits).resolve_right id
    have taken : settings.streams.take (.traced (message shown)) = true :=
      @Streams.take_of_encodable (.traced (message shown)) whole _
    rw [text]
    exact ⟨m.trace settings (message shown), trace_of_taken taken m, scopes_trace _ _ _⟩
  · exact ⟨m, rfl, rfl⟩

theorem reveal_of_plain (plain : v.Plain False) (type : NodeType) :
    ∃ n, reveal settings type v m = (.ok v, n) ∧ n.scopes = m.scopes := by
  obtain ⟨n, told, scopes⟩ := @traceValue_of_plain settings v m _ plain (spells_valued type) 4
  refine ⟨n, ?_, scopes⟩
  rw [reveal, bind_apply, told]
  rfl

theorem readsFrom_hops (named : Name.ofJson name.text = .ok key) (plain : m.scopes.Plain False) :
    ReadsFrom settings env name key m (m.scopes.hops env key) := by
  have reads := readVariable_eq named settings env m
  cases found : m.scopes.hops env key with
  | some n =>
    obtain ⟨scope, v, outward, resolved, bound⟩ := Forest.hops_spec found
    have value : m.scopes.get? env key = some v := (Forest.get?_of_resolve resolved).trans bound
    rw [value] at reads
    obtain ⟨m', told, scopes⟩ :=
      @reveal_of_plain settings v m (Forest.plain_of_get? plain value) .var
    refine ⟨scope, v, m', outward, bound, ?_, scopes⟩
    rw [evaluate, bind_apply, reads]
    exact told
  | none =>
    have none : m.scopes.get? env key = none := by
      rw [Forest.get?, Forest.resolve_eq_hops, found]
      rfl
    rw [none] at reads
    rw [ReadsFrom, evaluate, bind_apply, reads]
    cases settings.strict with
    | true => rfl
    | false => exact @reveal_of_plain settings .null m trivial .var

theorem assignVariable_eq (named : Name.ofJson name.text = .ok key) :
    assignVariable settings env name v m =
      match m.scopes.resolve env key with
      | some scope => traceValue settings 2 v (.assigned name.display)
        { m with scopes := m.scopes.define scope key v }
      | none =>
        (.error (.fault (.report (.undefinedVariable name.display (some name.line)))), m) := by
  have found : nameOf name m = (.ok key, m) := by
    rw [nameOf, named]
    rfl
  rw [assignVariable, bind_apply, found]
  dsimp only
  rw [bind_apply]
  dsimp only [Action.read]
  cases m.scopes.resolve env key with
  | some scope => rfl
  | none => rfl

theorem writesTo_hops {value : Expr} (named : Name.ofJson name.text = .ok key)
    (shown : name.display.Fits False) (plain : v.Plain False)
    (evaluated : evaluate settings env value m = (.ok v, m')) :
    WritesTo settings env name key value m v m' (m'.scopes.hops env key) := by
  have writes := @assignVariable_eq settings env name key v m' named
  cases found : m'.scopes.hops env key with
  | some n =>
    obtain ⟨scope, _, outward, resolved, -⟩ := Forest.hops_spec found
    rw [resolved] at writes
    obtain ⟨n', told, scopes'⟩ := @traceValue_of_plain settings v
      { m' with scopes := m'.scopes.define scope key v } _ plain (spells_assigned shown) 2
    obtain ⟨n'', told', scopes''⟩ := @reveal_of_plain settings v n' plain .assign
    refine ⟨scope, n'', outward, (Forest.resolve_spec resolved).2, ?_, scopes''.trans scopes'⟩
    rw [evaluate, bind_apply, evaluated]
    dsimp only
    rw [bind_apply, writes]
    dsimp only
    rw [told]
    exact told'
  | none =>
    have none : m'.scopes.resolve env key = none := by
      rw [Forest.resolve_eq_hops, found]
      rfl
    rw [none] at writes
    rw [WritesTo, evaluate, bind_apply, evaluated]
    dsimp only
    rw [bind_apply, writes]

end

/-- Where the scopes bind the names around a site, its name is found as the site tells. -/
theorem Stands.hops {site : Site} {env : ScopeId} {key : Name} {m : Machine}
    (stands : Stands env site.around m) (named : Name.ofJson site.name.text = .ok key) :
    m.scopes.hops env key = site.hops := by
  rw [Site.hops, Token.key?_of_ofJson named]
  exact stands.mirrors.hops key

/-- A variable that a run of a source comes to stands at a site, and the scopes bind the names that
are declared before it. -/
theorem exists_site {source : String} {p : Program} (parsed : Source.parse source = .ok p)
    {settings : Settings} {limit : Nat} {place : List Nat} {env : ScopeId} {e : Expr}
    {name : Token} {m : Machine}
    (reaches : Reaches settings limit (.program p) (.start []) place (.expression env e) m)
    (occurs : e.nameAt? [] = some name) :
    ∃ site key, p.site? place = some site ∧ site.name = name ∧
      Name.ofJson name.text = .ok key ∧ Stands env site.around m := by
  have nested (s : Stmt) (member : s ∈ p.statements) : BlockScoped s :=
    (blockScoped_of_wellStmt (Source.wellFormed_of_parse parsed s member)).1
  have here : At p.site? (.program p) (.start []) :=
    ⟨[], [], ⟨Forest.mirrors_single, rfl⟩, nested, rfl⟩
  obtain ⟨names, outer, stands, -, sites⟩ := at_of_reaches reaches here
  have found : p.site? place = some ⟨name, names :: outer⟩ := by
    have same := congrFun sites []
    rw [List.append_nil] at same
    rw [← same, Task.site?, Expr.site?, occurs]
    rfl
  obtain ⟨s, text⟩ := textNames_of_parse parsed name
    ((Stmt.mem_names_of_site? place).2 _ _ _ _ found)
  refine ⟨⟨name, names :: outer⟩, .text s, found, rfl, ?_, stands⟩
  rw [text]
  rfl

/-- In every run of a program with a source, a variable that is read or assigned to is found so many
scopes outward from the active one as the tree tells for its place, and is read from there or bound
there; or it is not found where the tree tells of no declaration. -/
theorem resolution_is_lexical {source : String} {p : Program} (parsed : Source.parse source = .ok p)
    (settings : Settings) (limit : Nat) :
    let watched := Watched.runProgram settings limit p
    watched.erase = runProgram settings limit p ∧
    (∀ place env name m,
      ⟨place, .evaluate env (.expression (.var name)), m⟩ ∈ watched.log (.start []) →
        ∃ site key, p.site? place = some site ∧ site.name = name ∧ name.key? = some key ∧
          m.cursor = env ∧ m.scopes.hops env key = site.hops ∧
          ReadsFrom settings env name key m site.hops) ∧
    ∀ place env name value m,
      ⟨place, .evaluate env (.expression (.assign name value)), m⟩ ∈ watched.log (.start []) →
        ∃ site key, p.site? place = some site ∧ site.name = name ∧ name.key? = some key ∧
          m.cursor = env ∧ ∀ v m', evaluate settings env value m = (.ok v, m') →
            m'.cursor = env ∧ m'.scopes.hops env key = site.hops ∧
            WritesTo settings env name key value m v m' site.hops := by
  intro watched
  have texts := textNames_of_parse parsed
  have whole := encodable_of_parse parsed
  -- No half comes into a run from a source, so that nothing keeps it from its log.
  have parts : (Task.program p).Parts ⟨True, False, False⟩ p.tokens :=
    parts_program (.inl texts) (.inl whole)
  have start : (Machine.start []).scopes.Plain False := Forest.plain_single plain_nil
  have comes {place : List Nat} {env : ScopeId} {e : Expr} {m : Machine}
      (member : ⟨place, .evaluate env (.expression e), m⟩ ∈ watched.log (.start [])) :
      Reaches settings limit (.program p) (.start []) place (.expression env e) m := by
    obtain ⟨last, starts, reaches⟩ :=
      (@Watched.mem_log_iff_reaches settings limit (.program p) _ _ _ _).1 member
    cases last <;> cases starts
    exact reaches
  refine ⟨Watched.erase_runProgram settings limit p, ?_, ?_⟩
  · intro place env name m member
    have reaches := comes member
    obtain ⟨site, key, found, rfl, named, stands⟩ := exists_site parsed reaches rfl
    have plain : m.scopes.Plain False := plain_of_reaches trivial reaches parts start
    have hops := stands.hops named
    refine ⟨site, key, found, rfl, Token.key?_of_ofJson named, stands.cursor, hops, ?_⟩
    rw [← hops]
    exact readsFrom_hops named plain
  · intro place env name value m member
    have reaches := comes member
    obtain ⟨site, key, found, rfl, named, stands⟩ := exists_site parsed reaches rfl
    refine ⟨site, key, found, rfl, Token.key?_of_ofJson named, stands.cursor, ?_⟩
    intro v m' evaluated
    have plain : m.scopes.Plain False := plain_of_reaches trivial reaches parts start
    obtain ⟨-, target, inner⟩ := (parts_of_reaches reaches parts).name
    have ends := (safe_evaluate settings env inner).ends m plain
    rw [evaluated] at ends
    have after := stands.after (@framed_evaluate env [] settings env value m) evaluated
    have hops := after.hops named
    refine ⟨after.cursor, hops, ?_⟩
    rw [← hops]
    exact writesTo_hops named target.shown ends evaluated

/-- A variable that is read before it is declared, and a loop that assigns to it and then declares
it anew. -/
def shadowing : Program :=
  ⟨[.print (.var (.identifier "a" 1)),
    .declare (.identifier "a" 2) (some (.literal (.bool true))),
    .loop (.var (.identifier "a" 3)) (.block
      [.expression (.assign (.identifier "a" 4) (.literal .null)),
        .declare (.identifier "a" 5) none,
        .print (.var (.identifier "a" 6))])]⟩

/-- The condition is tested twice. -/
theorem resolution_is_lexical_shadowing :
    let settings : Settings := ⟨false, 0, ⟨.utf8, .utf8⟩⟩
    let log := (Watched.runProgram settings 5 shadowing).log (.start [])
    Source.parse "print a;\nvar a=true;\nwhile(a)\x7b\na=null;\nvar a;\nprint a;\x7d" =
      .ok shadowing ∧
    log.filterMap (fun moment => (shadowing.site? moment.place).map fun site =>
      (moment.place, site.hops)) =
        [([0, 0], none), ([1, 1, 0, 0], some 0), ([1, 1, 0, 1, 0, 0, 0], some 1),
          ([1, 1, 0, 1, 0, 1, 1, 0, 0], some 0), ([1, 1, 0, 0], some 0)] ∧
    ∀ place env name m, ⟨place, .evaluate env (.expression (.var name)), m⟩ ∈ log →
      ∃ site key, shadowing.site? place = some site ∧ site.name = name ∧
        name.key? = some key ∧ m.cursor = env ∧ m.scopes.hops env key = site.hops ∧
        ReadsFrom settings env name key m site.hops := by
  intro settings log
  have parsed : Source.parse
      "print a;\nvar a=true;\nwhile(a)\x7b\na=null;\nvar a;\nprint a;\x7d" =
      .ok shadowing := by cbv
  refine ⟨parsed, ?_, (resolution_is_lexical parsed settings 5).2.1⟩
  unfold log
  cbv

end Run

end TreeWalk
