import TreeWalk.Proofs.Source.WellFormed
import TreeWalk.Run.Evaluate

/-!
Runs end well. The values of a run are null, booleans, doubles and texts if those that it starts
with are, and then an action ends with a result, unfinished, at a name that is none, at a line that
a stream does not take, or with a report on types or on an undefined variable, whose line is that
of a token of the tree. If there are no halves in the texts that a run starts with, there are none
in those that it makes, and every stream takes its lines.
-/

set_option autoImplicit false

namespace TreeWalk

/-- A text without halves, unless halves are allowed. -/
def Text.Fits (halves : Prop) (t : Text) : Prop := t.encodable = true ∨ halves

section

variable {halves : Prop}

theorem Text.fits_ofString (s : String) : Text.Fits halves s := .inl (Text.encodable_ofString s)

theorem Text.Fits.append {s t : Text} (first : s.Fits halves) (second : t.Fits halves) :
    Text.Fits halves (s ++ t) := by
  rcases first with first | allowed
  · rcases second with second | allowed
    · exact .inl (by rw [Text.encodable_append, first, second, Bool.and_self])
    · exact .inr allowed
  · exact .inr allowed

/-- A value that programs make. -/
def Value.Plain (halves : Prop) : Value → Prop
  | .number (.whole _) => False
  | .text s => s.Fits halves
  | _ => True

def Bindings.Plain (halves : Prop) (b : Bindings) : Prop := ∀ entry ∈ b, entry.2.Plain halves

/-- All values that are bound in any scope are plain. -/
def Forest.Plain (halves : Prop) (f : Forest) : Prop := ∀ id, (f.bindings id).Plain halves

theorem Value.plain_ofLiteral {value : Literal} (fits : value.encodable = true ∨ halves) :
    (Value.ofLiteral value).Plain halves := by
  cases value with
  | text s => exact fits
  | _ => trivial

theorem Value.toText_of_plain {v : Value} (plain : v.Plain halves) :
    ∃ s, v.toText = .ok s ∧ s.Fits halves := by
  match v, plain with
  | .null, _ | .bool true, _ | .bool false, _ | .number (.double _), _ =>
    exact ⟨_, rfl, Text.fits_ofString _⟩
  | .text s, plain => exact ⟨s, rfl, plain⟩

theorem plain_nil : Bindings.Plain halves [] := nofun

theorem Bindings.plain_set {name : Name} {value : Value} {b : Bindings} (h : b.Plain halves)
    (plain : value.Plain halves) : (b.set name value).Plain halves := by
  induction b with
  | nil => exact List.forall_mem_singleton.2 plain
  | cons entry rest ih =>
    obtain ⟨n, v⟩ := entry
    obtain ⟨first, later⟩ := List.forall_mem_cons.1 h
    rw [Bindings.set]
    split
    · exact List.forall_mem_cons.2 ⟨plain, later⟩
    · exact List.forall_mem_cons.2 ⟨first, ih later⟩

theorem Bindings.plain_of_get? {name : Name} {value : Value} {b : Bindings} (h : b.Plain halves)
    (found : b.get? name = some value) : value.Plain halves := by
  induction b with
  | nil => cases found
  | cons entry rest ih =>
    obtain ⟨n, v⟩ := entry
    obtain ⟨first, later⟩ := List.forall_mem_cons.1 h
    rw [Bindings.get?] at found
    split at found
    · cases found
      exact first
    · exact ih later found

namespace Forest

theorem plain_single {globals : Bindings} (h : globals.Plain halves) :
    (single globals).Plain halves := by
  intro id
  rw [bindings]
  split
  · next scope found =>
    have first : id = 0 := by
      have inside := (Array.getElem?_eq_some_iff.1 found).1
      simpa [single] using inside
    subst first
    cases found
    exact h
  · exact nofun

theorem plain_push {f : Forest} (h : f.Plain halves) (parent : Option ScopeId) :
    (f.push parent).Plain halves := by
  intro id
  have old := h id
  rw [bindings] at old ⊢
  simp only [push, Array.getElem?_push]
  by_cases last : id = f.scopes.size
  · rw [if_pos last]
    exact nofun
  · rw [if_neg last]
    exact old

theorem plain_define {f : Forest} (h : f.Plain halves) (id : ScopeId) (name : Name)
    {value : Value} (plain : value.Plain halves) : (f.define id name value).Plain halves := by
  intro other
  have old := h other
  rw [bindings] at old ⊢
  simp only [define, modify, Array.getElem?_modify]
  by_cases same : id = other
  · rw [if_pos same]
    cases found : f.scopes[other]? with
    | none => exact nofun
    | some scope =>
      rw [found] at old
      exact Bindings.plain_set old plain
  · rw [if_neg same]
    exact old

theorem plain_of_get? {f : Forest} (h : f.Plain halves) {id : ScopeId} {name : Name}
    {value : Value} (found : f.get? id name = some value) : value.Plain halves := by
  obtain ⟨scope, -, bound⟩ := Option.bind_eq_some_iff.1 found
  exact Bindings.plain_of_get? (h scope) bound

end Forest

end

def Expr.names : Expr → List Token
  | .literal _ => []
  | .var name => [name]
  | .assign name value => name :: value.names
  | .logical left _ right | .binary left _ right => left.names ++ right.names
  | .unary _ operand => operand.names
  | .grouping inner => inner.names

mutual

def Stmt.names : Stmt → List Token
  | .print value | .expression value => value.names
  | .declare name none => [name]
  | .declare name (some initial) => name :: initial.names
  | .block body => Stmt.namesAll body
  | .ifThen condition yes => condition.names ++ yes.names
  | .ifThenElse condition yes no => condition.names ++ yes.names ++ no.names
  | .loop condition body => condition.names ++ body.names

def Stmt.namesAll : List Stmt → List Token
  | [] => []
  | s :: rest => s.names ++ Stmt.namesAll rest

end

/-- Names are texts, as in every tree of a source text. -/
def TextNames (names : List Token) : Prop := ∀ t ∈ names, ∃ s, t.text = .text s

theorem Expr.names_subset (e : Expr) : e.names ⊆ e.tokens := by
  induction e with
  | literal => exact List.Subset.refl _
  | var => exact List.Subset.refl _
  | assign name value ih => exact List.cons_subset_cons name ih
  | logical left operator right ihLeft ihRight | binary left operator right ihLeft ihRight =>
    exact List.append_subset.2 ⟨List.subset_append_of_subset_left _ ihLeft,
      List.subset_append_of_subset_right _ (List.subset_cons_of_subset _ ihRight)⟩
  | unary operator operand ih => exact List.subset_cons_of_subset _ ih
  | grouping inner ih => exact ih

theorem append_subset_append {first first' second second' : List Token} (h : first ⊆ first')
    (h' : second ⊆ second') : first ++ second ⊆ first' ++ second' :=
  List.append_subset.2 ⟨List.subset_append_of_subset_left _ h,
    List.subset_append_of_subset_right _ h'⟩

mutual

theorem Stmt.names_subset : ∀ s : Stmt, s.names ⊆ s.tokens
  | .print value | .expression value => by
    rw [Stmt.names, Stmt.tokens]
    exact value.names_subset
  | .declare name none => by
    rw [Stmt.names, Stmt.tokens]
    exact List.Subset.refl _
  | .declare name (some initial) => by
    rw [Stmt.names, Stmt.tokens]
    exact List.cons_subset_cons name initial.names_subset
  | .block body => by
    rw [Stmt.names, Stmt.tokens]
    exact Stmt.namesAll_subset body
  | .ifThen condition yes => by
    rw [Stmt.names, Stmt.tokens]
    exact append_subset_append condition.names_subset yes.names_subset
  | .ifThenElse condition yes no => by
    rw [Stmt.names, Stmt.tokens]
    exact append_subset_append
      (append_subset_append condition.names_subset yes.names_subset) no.names_subset
  | .loop condition body => by
    rw [Stmt.names, Stmt.tokens]
    exact append_subset_append condition.names_subset body.names_subset

theorem Stmt.namesAll_subset : ∀ body : List Stmt, Stmt.namesAll body ⊆ Stmt.tokensAll body
  | [] => by
    rw [Stmt.namesAll, Stmt.tokensAll]
    exact List.Subset.refl _
  | s :: rest => by
    rw [Stmt.namesAll, Stmt.tokensAll]
    exact append_subset_append s.names_subset (Stmt.namesAll_subset rest)

end

/-- No half is in the names and the constants of a program. -/
structure Program.Encodable (p : Program) : Prop where
  names : ∀ t ∈ Stmt.namesAll p.statements, t.display.encodable = true
  constants : ∀ c ∈ p.constants, c.encodable = true

section

variable {source : String} {p : Program}

theorem name_of_parse (h : Source.parse source = .ok p) {t : Token}
    (member : t ∈ Stmt.namesAll p.statements) : ∃ s : String, t.text = .text s :=
  (Source.tokens_of_parse h t (Stmt.namesAll_subset _ member)).text

theorem textNames_of_parse (h : Source.parse source = .ok p) :
    TextNames (Stmt.namesAll p.statements) := by
  intro t member
  obtain ⟨s, text⟩ := name_of_parse h member
  exact ⟨s, text⟩

theorem encodable_of_parse (h : Source.parse source = .ok p) : p.Encodable where
  names := by
    intro t member
    obtain ⟨s, text⟩ := name_of_parse h member
    rw [Token.display, text]
    exact Text.encodable_ofString s
  constants := Source.encodable_of_parse h

end

namespace Run

/-- What may stop a run beside what is reported. -/
structure Risks where
  /-- A loop may go round too often. -/
  loops : Prop
  /-- Texts may have halves in them. -/
  halves : Prop
  /-- Names may be other than texts. -/
  names : Prop

/-- What may stop a run of a tree with these tokens. -/
def Fine (risks : Risks) (ts : List Token) : Stop → Prop
  | .unfinished => risks.loops
  | .fault (.report r) =>
    (r.name = "TypeError" ∨ r.name = "UndefinedVariable") ∧ ∃ t ∈ ts, r.line = some t.line
  | .fault (.unencodable t) => risks.halves ∧ t.encodable = false
  | .fault (.unhashable _) => risks.names
  | .fault _ => False

def Ends {α : Type} (risks : Risks) (ts : List Token) (Post : α → Prop) : Except Stop α → Prop
  | .ok a => Post a
  | .error stop => Fine risks ts stop

/-- From a machine with plain values, an action leaves plain values and ends well. -/
structure Safe {α : Type} (risks : Risks) (ts : List Token) (Post : α → Prop) (x : Action α) :
    Prop where
  keeps : ∀ m : Machine, m.scopes.Plain risks.halves → (x m).2.scopes.Plain risks.halves
  ends : ∀ m : Machine, m.scopes.Plain risks.halves → Ends risks ts Post (x m).1

structure Named (risks : Risks) (t : Token) : Prop where
  text : (∃ s, t.text = .text s) ∨ risks.names
  shown : t.display.Fits risks.halves

/-- The tokens, the names and the constants of a tree are such as the risks allow for. -/
structure Parts (risks : Risks) (ts tokens names : List Token) (constants : List Literal) :
    Prop where
  inside : tokens ⊆ ts
  named : ∀ t ∈ names, Named risks t
  fit : ∀ c ∈ constants, c.encodable = true ∨ risks.halves

section

variable {risks : Risks} {ts tokens tokens' names names' : List Token}
  {constants constants' : List Literal} {t : Token}

theorem Parts.split (parts : Parts risks ts (tokens ++ tokens') (names ++ names')
      (constants ++ constants')) :
    Parts risks ts tokens names constants ∧ Parts risks ts tokens' names' constants' := by
  obtain ⟨before, after⟩ := List.append_subset.1 parts.inside
  obtain ⟨named, named'⟩ := List.forall_mem_append.1 parts.named
  obtain ⟨fit, fit'⟩ := List.forall_mem_append.1 parts.fit
  exact ⟨⟨before, named, fit⟩, ⟨after, named', fit'⟩⟩

theorem Parts.operator (parts : Parts risks ts (t :: tokens) names constants) :
    t ∈ ts ∧ Parts risks ts tokens names constants := by
  obtain ⟨member, inside⟩ := List.cons_subset.1 parts.inside
  exact ⟨member, inside, parts.named, parts.fit⟩

theorem Parts.name (parts : Parts risks ts (t :: tokens) (t :: names) constants) :
    t ∈ ts ∧ Named risks t ∧ Parts risks ts tokens names constants := by
  obtain ⟨member, inside⟩ := List.cons_subset.1 parts.inside
  obtain ⟨named, others⟩ := List.forall_mem_cons.1 parts.named
  exact ⟨member, named, inside, others, parts.fit⟩

end

section

variable {α β : Type} {risks : Risks} {ts : List Token} {P : α → Prop} {Q : β → Prop}

theorem Safe.of {x : Action α} (h : ∀ m : Machine, m.scopes.Plain risks.halves →
    (x m).2.scopes.Plain risks.halves ∧ Ends risks ts P (x m).1) : Safe risks ts P x :=
  ⟨fun m plain => (h m plain).1, fun m plain => (h m plain).2⟩

theorem Safe.plain {x : Action α} (safe : Safe risks ts P x) {m m' : Machine}
    {result : Except Stop α} (plain : m.scopes.Plain risks.halves) (ran : x m = (result, m')) :
    m'.scopes.Plain risks.halves := by
  have keeps := safe.keeps m plain
  rwa [ran] at keeps

theorem Safe.pure {a : α} (h : P a) : Safe risks ts P (Pure.pure a : Action α) :=
  ⟨fun _ plain => plain, fun _ _ => h⟩

theorem Safe.bind {x : Action α} {f : α → Action β} (first : Safe risks ts P x)
    (second : ∀ a, P a → Safe risks ts Q (f a)) : Safe risks ts Q (x >>= f) := by
  apply Safe.of
  intro m plain
  have keeps := first.keeps m plain
  have ends := first.ends m plain
  rw [Action.bind_apply]
  generalize x m = after at keeps ends
  obtain ⟨result, m'⟩ := after
  cases result with
  | ok a => exact ⟨(second a ends).keeps m' keeps, (second a ends).ends m' keeps⟩
  | error stop => exact ⟨keeps, ends⟩

theorem Safe.stop {s : Stop} (fine : Fine risks ts s) : Safe risks ts P (Action.stop s) :=
  ⟨fun _ plain => plain, fun _ _ => fine⟩

theorem Safe.read {f : Machine → α}
    (h : ∀ m : Machine, m.scopes.Plain risks.halves → P (f m)) :
    Safe risks ts P (Action.read f) :=
  ⟨fun _ plain => plain, fun m plain => h m plain⟩

theorem Safe.update {f : Machine → Machine}
    (h : ∀ m : Machine, m.scopes.Plain risks.halves → (f m).scopes.Plain risks.halves) :
    Safe risks ts (fun _ => True) (Action.update f) :=
  ⟨h, fun _ _ => trivial⟩

/-- A result that may be a fault ends as an action does. -/
def Sound (risks : Risks) (ts : List Token) (P : α → Prop) (r : Except Fault α) : Prop :=
  Ends risks ts P (r.mapError Stop.fault)

theorem Safe.lift {r : Except Fault α} (h : Sound risks ts P r) :
    Safe risks ts P (Action.lift r) := by
  cases r with
  | ok a => exact .pure h
  | error f => exact .stop h

theorem Sound.bind {r : Except Fault α} {f : α → Except Fault β} (first : Sound risks ts P r)
    (second : ∀ a, P a → Sound risks ts Q (f a)) : Sound risks ts Q (r >>= f) := by
  cases r with
  | ok a => exact second a first
  | error f => exact first

theorem sound_toText {v : Value} (plain : v.Plain risks.halves) :
    Sound risks ts (Text.Fits risks.halves) v.toText := by
  obtain ⟨s, shown, fits⟩ := Value.toText_of_plain plain
  rw [shown]
  exact fits

theorem sound_mistyped {operator : Token} (member : operator ∈ ts) (detail : Text) :
    Sound risks ts P (Value.mistyped operator detail) :=
  ⟨.inl rfl, operator, member, rfl⟩

theorem sound_mismatch {operator : Token} {a b : Value} (member : operator ∈ ts)
    (ha : a.Plain risks.halves) (hb : b.Plain risks.halves) :
    Sound risks ts (Value.Plain risks.halves) (Value.mismatch operator a b) :=
  (sound_toText ha).bind fun _ _ => (sound_toText hb).bind fun _ _ => sound_mistyped member _

theorem sound_applyUnary {operator : Token} {v : Value} (member : operator ∈ ts)
    (plain : v.Plain risks.halves) :
    Sound risks ts (Value.Plain risks.halves) (Value.applyUnary operator v) := by
  unfold Value.applyUnary
  split
  · trivial
  · next n kind =>
    cases n with
    | double x => trivial
    | whole n => exact plain.elim
  · exact (sound_toText plain).bind fun _ _ => sound_mistyped member _

theorem sound_onNumbers? {k : Kind} {x y : Float} {result : Except Fault Value}
    (found : Value.onNumbers? k (.double x) (.double y) = some result) :
    Sound risks ts (Value.Plain risks.halves) result := by
  cases k <;> cases found <;> trivial

theorem sound_applyBinary {operator : Token} {a b : Value} (member : operator ∈ ts)
    (ha : a.Plain risks.halves) (hb : b.Plain risks.halves) :
    Sound risks ts (Value.Plain risks.halves) (Value.applyBinary operator a b) := by
  unfold Value.applyBinary
  split
  · trivial
  · trivial
  · exact Text.Fits.append ha hb
  · next n t kind =>
    cases n with
    | double x => exact Text.Fits.append (Text.fits_ofString _) hb
    | whole n => exact ha.elim
  · next s n kind =>
    cases n with
    | double x => exact Text.Fits.append ha (Text.fits_ofString _)
    | whole n => exact hb.elim
  · next n m _ _ =>
    cases n with
    | whole n => exact ha.elim
    | double x =>
      cases m with
      | whole m => exact hb.elim
      | double y =>
        split
        · next found => exact sound_onNumbers? found
        · exact sound_mistyped member _
  · split
    · exact sound_mismatch member ha hb
    · exact sound_mistyped member _

@[simp] theorem scopes_trace (settings : Settings) (message : Message) (m : Machine) :
    (m.trace settings message).scopes = m.scopes := by
  unfold Machine.trace
  split <;> rfl

@[simp] theorem cursor_trace (settings : Settings) (message : Message) (m : Machine) :
    (m.trace settings message).cursor = m.cursor := by
  unfold Machine.trace
  split <;> rfl

theorem Message.level_pos (message : Message) : 1 ≤ message.level := by
  cases message <;> simp only [Message.level] <;> decide

theorem Stream.encodable_of_refused {stream : Stream} {t : Text}
    (refused : ¬stream.takes t = true) : t.encodable = false := by
  cases stream with
  | any => exact absurd rfl refused
  | utf8 => exact Bool.eq_false_iff.2 refused

theorem Streams.encodable_of_refused {streams : Streams} {e : Event}
    (refused : ¬streams.take e = true) : e.line.encodable = false := by
  cases e with
  | printed text => exact Stream.encodable_of_refused refused
  | traced message => exact Stream.encodable_of_refused refused

theorem Streams.take_of_encodable {e : Event} (whole : e.line.encodable = true)
    (streams : Streams) : streams.take e = true := by
  by_contra refused
  cases whole.symm.trans (Streams.encodable_of_refused refused)

theorem send_of_refused {streams : Streams} {e : Event} (refused : ¬streams.take e = true)
    (m : Machine) : Action.send streams e m = (.error (.fault (.unencodable e.line)), m) := by
  unfold Action.send
  rw [if_neg refused]
  rfl

/-- A message that the log takes is traced, if the verbosity reaches it. -/
theorem trace_of_taken {settings : Settings} {message : Message}
    (taken : settings.streams.take (.traced message) = true) (m : Machine) :
    Action.trace settings message m = (.ok (), m.trace settings message) := by
  unfold Action.trace Machine.trace Action.send
  rw [if_pos taken]
  split <;> rfl

theorem trace_of_refused {settings : Settings} {message : Message}
    (reached : message.level ≤ settings.verbosity)
    (refused : ¬settings.streams.take (.traced message) = true) (m : Machine) :
    Action.trace settings message m = (.error (.fault (.unencodable message.text)), m) := by
  unfold Action.trace
  rw [if_pos reached]
  exact send_of_refused refused m

theorem trace_of_unreached {settings : Settings} {message : Message}
    (unreached : ¬message.level ≤ settings.verbosity) (m : Machine) :
    Action.trace settings message m = (.ok (), m) := by
  unfold Action.trace
  rw [if_neg unreached]
  rfl

theorem trace_looped (settings : Settings) (rounds : Nat) (m : Machine) :
    Action.trace settings (.looped rounds) m = (.ok (), m.trace settings (.looped rounds)) := by
  apply trace_of_taken
  apply Streams.take_of_encodable
  exact Text.encodable_ofString _

theorem safe_send {e : Event} (fits : e.line.Fits risks.halves) (streams : Streams) :
    Safe risks ts (fun _ => True) (Action.send streams e) := by
  unfold Action.send
  split
  · exact .update fun _ plain => plain
  · next refused =>
    have halved := Streams.encodable_of_refused refused
    refine .stop ⟨fits.resolve_left ?_, halved⟩
    rw [halved]
    exact Bool.false_ne_true

theorem safe_trace {message : Message} (fits : message.text.Fits risks.halves)
    (settings : Settings) : Safe risks ts (fun _ => True) (Action.trace settings message) := by
  unfold Action.trace
  split
  · exact safe_send fits _
  · exact .pure trivial

/-- The messages about a value have no halves but those of the value. -/
def Spells (halves : Prop) (message : Text → Message) : Prop :=
  ∀ shown : Text, shown.Fits halves → (message shown).text.Fits halves

theorem spells_valued {halves : Prop} (type : NodeType) : Spells halves (.valued type) := by
  intro shown fits
  exact ((Text.fits_ofString _).append (Text.fits_ofString _)).append fits

theorem spells_tested {halves : Prop} (taken : Bool) : Spells halves (.tested · taken) := by
  intro shown fits
  exact (((Text.fits_ofString _).append fits).append (Text.fits_ofString _)).append
    (Text.fits_ofString _)

theorem spells_assigned {halves : Prop} {name : Text} (named : name.Fits halves) :
    Spells halves (.assigned name) := by
  intro shown fits
  exact (((Text.fits_ofString _).append named).append (Text.fits_ofString _)).append fits

theorem spells_declared {halves : Prop} {name : Text} (named : name.Fits halves) :
    Spells halves (.declared name) := by
  intro shown fits
  exact (((Text.fits_ofString _).append named).append (Text.fits_ofString _)).append fits

theorem safe_traceValue {v : Value} {message : Text → Message} (plain : v.Plain risks.halves)
    (spells : Spells risks.halves message) (settings : Settings) (level : Nat) :
    Safe risks ts (fun _ => True) (Action.traceValue settings level v message) := by
  unfold Action.traceValue
  split
  · exact (Safe.lift (sound_toText plain)).bind fun shown fits =>
      safe_trace (spells shown fits) settings
  · exact .pure trivial

theorem safe_nameOf {t : Token} (named : Named risks t) :
    Safe risks ts (fun _ => True) (Action.nameOf t) := by
  unfold Action.nameOf
  cases found : Name.ofJson t.text with
  | ok key => exact .pure trivial
  | error kind =>
    refine .stop (named.text.resolve_left ?_)
    rintro ⟨s, text⟩
    rw [text] at found
    cases found

theorem fine_undefinedVariable {t : Token} (member : t ∈ ts) (name : Text) :
    Fine risks ts (.fault (.report (.undefinedVariable name (some t.line)))) :=
  ⟨.inr rfl, t, member, rfl⟩

theorem safe_readVariable {name : Token} (settings : Settings) (env : ScopeId)
    (member : name ∈ ts) (named : Named risks name) :
    Safe risks ts (Value.Plain risks.halves) (readVariable settings env name) := by
  unfold readVariable
  refine (safe_nameOf named).bind fun key _ => ?_
  have found : Safe risks ts (fun v? => ∀ v ∈ v?, v.Plain risks.halves)
      (Action.read fun m => m.scopes.get? env key) := by
    apply Safe.read
    intro m plain v bound
    exact Forest.plain_of_get? plain bound
  refine found.bind fun v? plain => ?_
  cases v? with
  | some v => exact .pure (plain v rfl)
  | none =>
    dsimp only
    split
    · exact .stop (fine_undefinedVariable member _)
    · exact .pure trivial

theorem safe_define {key : Name} {v : Value} (plain : v.Plain risks.halves) (env : ScopeId) :
    Safe risks ts (fun _ => True)
      (Action.update fun m => { m with scopes := m.scopes.define env key v }) := by
  apply Safe.update
  intro m scopes
  exact Forest.plain_define scopes env key plain

theorem safe_assignVariable {name : Token} {v : Value} (settings : Settings) (env : ScopeId)
    (member : name ∈ ts) (named : Named risks name) (plain : v.Plain risks.halves) :
    Safe risks ts (fun _ => True) (assignVariable settings env name v) := by
  have told : Safe risks ts (fun _ => True)
      (Action.traceValue settings 2 v (.assigned name.display)) :=
    safe_traceValue plain (spells_assigned named.shown) settings 2
  unfold assignVariable
  refine (safe_nameOf named).bind fun key _ => ?_
  have found : Safe risks ts (fun _ => True) (Action.read fun m => m.scopes.resolve env key) :=
    .read fun _ _ => trivial
  refine found.bind fun scope? _ => ?_
  cases scope? with
  | some scope => exact (safe_define plain scope).bind fun _ _ => told
  | none =>
    have undefined : Safe risks ts (fun _ => True) (Action.fail
        (.report (.undefinedVariable name.display (some name.line))) : Action Unit) :=
      .stop (fine_undefinedVariable member _)
    exact undefined.bind fun _ _ => told

theorem safe_declareVariable {name : Token} {v : Value} (settings : Settings) (env : ScopeId)
    (named : Named risks name) (plain : v.Plain risks.halves) :
    Safe risks ts (fun _ => True) (declareVariable settings env name v) := by
  unfold declareVariable
  refine (safe_nameOf named).bind fun key _ => ?_
  exact (safe_define plain env).bind fun _ _ =>
    safe_traceValue plain (spells_declared named.shown) settings 2

theorem safe_reveal {v : Value} (plain : v.Plain risks.halves) (settings : Settings)
    (type : NodeType) : Safe risks ts (Value.Plain risks.halves) (reveal settings type v) := by
  unfold reveal
  exact (safe_traceValue plain (spells_valued type) settings 4).bind fun _ _ => .pure plain

theorem safe_evaluate (settings : Settings) (env : ScopeId) {e : Expr}
    (parts : Parts risks ts e.tokens e.names e.constants) :
    Safe risks ts (Value.Plain risks.halves) (evaluate settings env e) := by
  induction e with
  | literal value =>
    exact safe_reveal (Value.plain_ofLiteral (parts.fit value List.mem_cons_self)) settings _
  | grouping inner ih => exact (ih parts).bind fun v plain => safe_reveal plain settings _
  | var name =>
    have member := parts.inside List.mem_cons_self
    have named := parts.named name List.mem_cons_self
    exact (safe_readVariable settings env member named).bind fun v plain =>
      safe_reveal plain settings _
  | assign name value ih =>
    obtain ⟨member, named, parts⟩ := parts.name
    refine (ih parts).bind fun v plain => ?_
    exact (safe_assignVariable settings env member named plain).bind fun _ _ =>
      safe_reveal plain settings _
  | logical left operator right ihLeft ihRight =>
    obtain ⟨first, second⟩ := parts.split
    refine (ihLeft first).bind fun l plain => ?_
    split
    · exact safe_reveal plain settings _
    · exact (ihRight second.operator.2).bind fun r plain => safe_reveal plain settings _
  | unary operator operand ih =>
    obtain ⟨member, parts⟩ := parts.operator
    refine (ih parts).bind fun v plain => ?_
    exact (Safe.lift (sound_applyUnary member plain)).bind fun result plain =>
      safe_reveal plain settings _
  | binary left operator right ihLeft ihRight =>
    obtain ⟨first, second⟩ := parts.split
    obtain ⟨member, second⟩ := second.operator
    refine (ihLeft first).bind fun l hl => ?_
    refine (ihRight second).bind fun r hr => ?_
    exact (Safe.lift (sound_applyBinary member hl hr)).bind fun result plain =>
      safe_reveal plain settings _

theorem safe_testCondition (settings : Settings) (env : ScopeId) {e : Expr}
    (parts : Parts risks ts e.tokens e.names e.constants) :
    Safe risks ts (fun _ => True) (testCondition settings env e) := by
  unfold testCondition
  refine (safe_evaluate settings env parts).bind fun v plain => ?_
  exact (safe_traceValue plain (spells_tested v.truthy) settings 3).bind fun _ _ => .pure trivial

@[simp] theorem scopes_entered (settings : Settings) (env : ScopeId) (m : Machine) :
    (entered settings env m).scopes = m.scopes.push (some env) :=
  scopes_trace settings _ _

@[simp] theorem cursor_entered (settings : Settings) (env : ScopeId) (m : Machine) :
    (entered settings env m).cursor = m.scopes.size :=
  cursor_trace settings _ _

@[simp] theorem scopes_left (settings : Settings) (env : ScopeId) (m after : Machine) :
    (left settings env m after).scopes = after.scopes :=
  scopes_trace settings _ _

@[simp] theorem cursor_left (settings : Settings) (env : ScopeId) (m after : Machine) :
    (left settings env m after).cursor = m.cursor :=
  cursor_trace settings _ _

theorem within_apply (settings : Settings) (env : ScopeId) (body : ScopeId → Action α)
    (m : Machine) : Action.within settings env body m =
      ((body m.scopes.size (entered settings env m)).1,
        left settings env m (body m.scopes.size (entered settings env m)).2) := rfl

theorem plain_entered {halves : Prop} (settings : Settings) (env : ScopeId) {m : Machine}
    (plain : m.scopes.Plain halves) : (entered settings env m).scopes.Plain halves := by
  rw [scopes_entered]
  exact Forest.plain_push plain (some env)

theorem safe_within (settings : Settings) (env : ScopeId) {body : ScopeId → Action α}
    (h : ∀ inner, Safe risks ts P (body inner)) :
    Safe risks ts P (Action.within settings env body) := by
  constructor
  · intro m plain
    rw [within_apply, scopes_left]
    exact (h m.scopes.size).keeps _ (plain_entered settings env plain)
  · intro m plain
    exact (h m.scopes.size).ends _ (plain_entered settings env plain)

/-- The statements that have no statement in them. -/
def isSimple : Stmt → Bool
  | .print _ | .expression _ | .declare _ _ => true
  | .block _ | .ifThen _ _ | .ifThenElse _ _ _ | .loop _ _ => false

theorem safe_simple (settings : Settings) (limit : Nat) (env : ScopeId) {s : Stmt}
    (simple : isSimple s = true) (parts : Parts risks ts s.tokens s.names s.constants) :
    Safe risks ts (fun _ => True) (execute settings limit env s) := by
  match s, simple with
  | .print value, _ =>
    rw [Stmt.tokens, Stmt.names, Stmt.constants] at parts
    rw [execute]
    refine (safe_evaluate settings env parts).bind fun v plain => ?_
    exact (Safe.lift (sound_toText plain)).bind fun shown fits => safe_send fits _
  | .expression value, _ =>
    rw [Stmt.tokens, Stmt.names, Stmt.constants] at parts
    rw [execute]
    exact (safe_evaluate settings env parts).bind fun v plain => .pure trivial
  | .declare name none, _ =>
    rw [Stmt.tokens, Stmt.names, Stmt.constants] at parts
    rw [execute]
    exact safe_declareVariable settings env parts.name.2.1 trivial
  | .declare name (some initial), _ =>
    rw [Stmt.tokens, Stmt.names, Stmt.constants] at parts
    obtain ⟨-, named, parts⟩ := parts.name
    rw [execute]
    refine (safe_evaluate settings env parts).bind fun v plain => ?_
    exact safe_declareVariable settings env named plain

theorem safe_loopTest (settings : Settings) (env : ScopeId) {condition : Expr}
    (parts : Parts risks ts condition.tokens condition.names condition.constants) :
    Safe risks ts (fun _ => True) (loopTest settings env condition) :=
  (safe_evaluate settings env parts).bind fun _ _ => .pure trivial

theorem safe_repeatWhile {test : Action Bool} {body : Action Unit} (loops : risks.loops)
    (ht : Safe risks ts (fun _ => True) test) (hb : Safe risks ts (fun _ => True) body)
    (limit rounds : Nat) :
    Safe risks ts (fun _ => True) (Action.repeatWhile test body limit rounds) := by
  induction limit generalizing rounds with
  | zero => exact .stop loops
  | succ limit ih =>
    rw [Action.repeatWhile]
    refine ht.bind fun holds _ => ?_
    cases holds with
    | true => exact hb.bind fun _ _ => ih (rounds + 1)
    | false => exact .pure trivial

theorem safe_looped (settings : Settings) (rounds : Nat) :
    Safe risks ts (fun _ => True) (Action.trace settings (.looped rounds)) :=
  safe_trace (Text.fits_ofString _) settings

end

mutual

theorem safe_execute (settings : Settings) (limit : Nat) (env : ScopeId) {risks : Risks}
    {ts : List Token} (loops : risks.loops) :
    ∀ s : Stmt, Parts risks ts s.tokens s.names s.constants →
      Safe risks ts (fun _ => True) (execute settings limit env s)
  | .print _, parts | .expression _, parts | .declare _ _, parts =>
    safe_simple settings limit env rfl parts
  | .block body, parts => by
    rw [Stmt.tokens, Stmt.names, Stmt.constants] at parts
    rw [execute]
    exact safe_within settings env fun inner =>
      safe_executeAll settings limit inner loops body parts
  | .ifThen condition yes, parts => by
    rw [Stmt.tokens, Stmt.names, Stmt.constants] at parts
    obtain ⟨first, second⟩ := parts.split
    rw [execute]
    refine (safe_testCondition settings env first).bind fun taken _ => ?_
    cases taken with
    | true => exact safe_execute settings limit env loops yes second
    | false => exact .pure trivial
  | .ifThenElse condition yes no, parts => by
    rw [Stmt.tokens, Stmt.names, Stmt.constants] at parts
    obtain ⟨parts, third⟩ := parts.split
    obtain ⟨first, second⟩ := parts.split
    rw [execute]
    refine (safe_testCondition settings env first).bind fun taken _ => ?_
    cases taken with
    | true => exact safe_execute settings limit env loops yes second
    | false => exact safe_execute settings limit env loops no third
  | .loop condition body, parts => by
    rw [Stmt.tokens, Stmt.names, Stmt.constants] at parts
    obtain ⟨first, second⟩ := parts.split
    rw [execute]
    have repeated := safe_repeatWhile loops (safe_loopTest settings env first)
      (safe_execute settings limit env loops body second) limit 0
    exact repeated.bind fun rounds _ => safe_looped settings rounds

theorem safe_executeAll (settings : Settings) (limit : Nat) (env : ScopeId) {risks : Risks}
    {ts : List Token} (loops : risks.loops) :
    ∀ body : List Stmt,
      Parts risks ts (Stmt.tokensAll body) (Stmt.namesAll body) (Stmt.constantsAll body) →
        Safe risks ts (fun _ => True) (executeAll settings limit env body)
  | [], _ => by
    rw [executeAll]
    exact .pure trivial
  | s :: rest, parts => by
    rw [Stmt.tokensAll, Stmt.namesAll, Stmt.constantsAll] at parts
    obtain ⟨first, second⟩ := parts.split
    rw [executeAll]
    exact (safe_execute settings limit env loops s first).bind fun _ _ =>
      safe_executeAll settings limit env loops rest second

end

theorem safe_running {risks : Risks} {ts : List Token} {body : Action Unit} (settings : Settings)
    (h : Safe risks ts (fun _ => True) body) :
    Safe risks ts (fun _ => True) (running settings body) := by
  apply Safe.of
  intro m plain
  have started : (m.trace settings .started).scopes.Plain risks.halves := by rwa [scopes_trace]
  have keeps := h.keeps _ started
  have ends := h.ends _ started
  unfold running
  generalize body (m.trace settings .started) = after at keeps ends
  obtain ⟨result, m'⟩ := after
  split
  · next same =>
    cases same
    rw [scopes_trace]
    exact ⟨keeps, trivial⟩
  · next same =>
    cases same
    rw [scopes_trace]
    exact ⟨keeps, ends⟩
  · next same =>
    cases same
    exact ⟨keeps, ends⟩

theorem parts_program {risks : Risks} {p : Program}
    (texts : TextNames (Stmt.namesAll p.statements) ∨ risks.names)
    (whole : p.Encodable ∨ risks.halves) :
    Parts risks p.tokens p.tokens (Stmt.namesAll p.statements) p.constants where
  inside := List.Subset.refl _
  named := fun t member =>
    ⟨texts.imp_left fun texts => texts t member, whole.imp_left fun whole => whole.names t member⟩
  fit := fun c member => whole.imp_left fun whole => whole.constants c member

/-- A program does not go wrong but for what the risks allow for. -/
theorem safe_runProgram (settings : Settings) (limit : Nat) {risks : Risks} {p : Program}
    {ts : List Token} (loops : risks.loops)
    (parts : Parts risks ts p.tokens (Stmt.namesAll p.statements) p.constants) :
    Safe risks ts (fun _ => True) (runProgram settings limit p) :=
  safe_running settings (safe_executeAll settings limit globalScope loops p.statements parts)

/-- Where no half is about, none keeps a line from its stream. -/
theorem runProgram_ne_unencodable (settings : Settings) (limit : Nat) {p : Program} {m : Machine}
    (whole : p.Encodable) (plain : m.scopes.Plain False) (line : Text) :
    (runProgram settings limit p m).1 ≠ .error (.fault (.unencodable line)) := by
  intro stopped
  have parts : Parts ⟨True, False, True⟩ p.tokens p.tokens (Stmt.namesAll p.statements)
      p.constants := parts_program (.inr trivial) (.inl whole)
  have ends := (safe_runProgram settings limit trivial parts).ends m plain
  rw [stopped] at ends
  exact ends.1

end Run

end TreeWalk
