import TreeWalk.Proofs.CommandLine.Emit
import TreeWalk.Proofs.CommandLine.Safety
import TreeWalk.Proofs.Run.Faults

/-!
Files that should hold a tree. Whatever the bytes of such a file are, the command that runs it ends
with a status, or goes round in a loop, but for these flaws: a line that is infinite is not taken
for a fault of the document, a name that is a list or an object is noticed only where it is used, a
text with a half in it is not known to be one that cannot be printed, and a document may be too deep
for the stack.
-/

set_option autoImplicit false

namespace TreeWalk.CommandLine

open Run

/-- The document that the bytes of a file are read as; none if they are not UTF-8. -/
def document? (deepest : Option Nat) (bytes : List Nat) : Option (Except Json.Fault Json) :=
  match Text.decodeUtf8 bytes with
  | .error _ => none
  | .ok cs => some (Json.readWithin deepest (Text.unifyNewlines cs))

/-- What is decoded from the bytes of a file; none if they are no JSON document in UTF-8. -/
def contents? (deepest : Option Nat) (bytes : List Nat) : Option (Except DecodeError Node) :=
  match document? deepest bytes with
  | some (.ok value) => some (decode value)
  | _ => none

/-- The bytes are a JSON document in UTF-8 that is the tree of a program. -/
def HoldsProgram (deepest : Option Nat) (bytes : List Nat) (p : Program) : Prop :=
  contents? deepest bytes = some (.ok (.program p))

/-- The stack does not hold what is read from the bytes, or the walk through it. -/
inductive Overflows (host : Host) (settings : Settings) (bytes : List Nat) : Crash → Prop where
  | nesting {opened : String}
    (deep : document? host.deepest bytes = some (.error (.tooDeep opened))) :
    Overflows host settings bytes (.nesting opened)
  | walking {value : Json} (read : document? host.deepest bytes = some (.ok value))
    (long : host.walks settings value = false) : Overflows host settings bytes .walking

section

variable {deepest : Option Nat} {bytes : List Nat}

theorem HoldsProgram.unique {p p' : Program} (holds : HoldsProgram deepest bytes p)
    (holds' : HoldsProgram deepest bytes p') : p = p' := by
  cases holds.symm.trans holds'
  rfl

theorem HoldsProgram.finite {p : Program} (holds : HoldsProgram deepest bytes p) :
    contents? deepest bytes ≠ some (.error .lineInfinite) := by
  intro infinite
  cases holds.symm.trans infinite

theorem document?_document {v : Json} (readable : Json.Readable v)
    (holds : Json.Holds deepest v.depth) :
    document? deepest (Text.encodeUtf8 (Json.document v).toList) = some (.ok v) := by
  simp only [document?, Text.decodeUtf8_encodeUtf8, Text.unifyNewlines_eq (no_return_document v),
    Json.readWithin_document readable holds]

end

section

variable {files : Files} {host : Host} {settings : Settings} {path : String} {bytes : List Nat}

theorem runTree_of_overflows (found : files (.ofString path) = some (.file bytes)) {c : Crash}
    (overflows : Overflows host settings bytes c) (limit : Nat) :
    runTree files host settings limit path = .crash c := by
  cases decoded : Text.decodeUtf8 bytes with
  | error fault =>
    have none : document? host.deepest bytes = none := by rw [document?, decoded]
    cases overflows with
    | nesting deep => cases none.symm.trans deep
    | walking read _ => cases none.symm.trans read
  | ok cs =>
    have text : document? host.deepest bytes =
        some (Json.readWithin host.deepest (Text.unifyNewlines cs)) := by rw [document?, decoded]
    simp only [runTree, readFile, found, decoded, String.toList_ofList]
    cases overflows with
    | nesting deep => rw [Option.some.inj (text.symm.trans deep)]
    | walking read long =>
      rw [Option.some.inj (text.symm.trans read)]
      simp only [long, Bool.false_eq_true, if_false]

/-- Where the stack suffices, a program is run, an infinite line crashes the command, and all else
is a fault of the file. -/
theorem runTree_cases (found : files (.ofString path) = some (.file bytes))
    (fits : ∀ c, ¬Overflows host settings bytes c) (limit : Nat) :
    (contents? host.deepest bytes = some (.error .lineInfinite) ∧
      runTree files host settings limit path = .crash (.decoding .lineInfinite)) ∨
    (∃ p, HoldsProgram host.deepest bytes p ∧
      runTree files host settings limit path = runProgramFile files settings limit p) ∨
    contents? host.deepest bytes ≠ some (.error .lineInfinite) ∧
      (¬∃ p, HoldsProgram host.deepest bytes p) ∧
      ∃ message, runTree files host settings limit path = .fileError message := by
  cases decoded : Text.decodeUtf8 bytes with
  | error fault =>
    simp only [runTree, readFile, found, HoldsProgram, contents?, document?, decoded]
    exact .inr (.inr ⟨by simp, by simp, _, rfl⟩)
  | ok cs =>
    have text : document? host.deepest bytes =
        some (Json.readWithin host.deepest (Text.unifyNewlines cs)) := by rw [document?, decoded]
    simp only [runTree, readFile, found, decoded, String.toList_ofList, HoldsProgram, contents?,
      text]
    cases read : Json.readWithin host.deepest (Text.unifyNewlines cs) with
    | error fault =>
      cases fault with
      | tooDeep opened => exact absurd (.nesting (by rw [text, read])) (fits (.nesting opened))
      | _ => exact .inr (.inr ⟨by simp, by simp, _, rfl⟩)
    | ok value =>
      have walks : host.walks settings value = true := by
        rw [← Bool.not_eq_false]
        intro long
        exact fits .walking (.walking (by rw [text, read]) long)
      simp only [walks, if_true]
      cases decode value with
      | error e =>
        cases e with
        | lineInfinite => exact .inl ⟨rfl, rfl⟩
        | _ => exact .inr (.inr ⟨by simp, by simp, _, rfl⟩)
      | ok node =>
        cases node with
        | program p => exact .inr (.inl ⟨p, rfl, rfl⟩)
        | _ => exact .inr (.inr ⟨by simp, by simp, _, rfl⟩)

end

def Ending.ofResult : Except Stop Unit → Ending
  | .ok () => .exit Status.success
  | .error (.fault (.report r)) => .exit r.status
  | .error s => .ofStop s

theorem ending_runProgramFile {settings : Settings} (quiet : settings.verbosity = 0)
    (files : Files) (limit : Nat) (p : Program) :
    (runProgramFile files settings limit p).ending =
      .ofResult (runProgram settings limit p (.start [])).1 := by
  obtain ⟨strict, verbosity, streams⟩ := settings
  obtain rfl : verbosity = 0 := quiet
  have started : startSession files ⟨strict, 0, streams⟩ = .ok (.start ⟨strict, 0, streams⟩) := rfl
  rw [runProgramFile, started]
  dsimp only
  rw [Session.act_eq]
  have same : (Session.start ⟨strict, 0, streams⟩).ready = .start [] := rfl
  rw [same]
  generalize runProgram ⟨strict, 0, streams⟩ limit p (.start []) = after
  obtain ⟨result, m⟩ := after
  cases result with
  | ok _ => rfl
  | error s =>
    cases s with
    | unfinished => rfl
    | fault f => cases f <;> rfl

/-- The run of a program comes to a fault that no report covers. -/
inductive Escapes (settings : Settings) (limit : Nat) (p : Program) : Fault → Prop where
  | misnamed {kind : String} (misnamed : Misnamed settings limit (.program p) (.start []) kind) :
    Escapes settings limit p (.unhashable kind)
  | unprintable {t : Text} (unprintable : Unprintable settings limit (.program p) (.start []) t) :
    Escapes settings limit p (.unencodable t)

section

variable {settings : Settings} (quiet : settings.verbosity = 0) {limit : Nat} {p : Program}

include quiet

theorem ofResult_cases (limit : Nat) (p : Program) :
    (∃ status, Ending.ofResult (runProgram settings limit p (.start [])).1 = .exit status ∧
      (status = 0 ∨ status = 70)) ∨
    (∃ f, Ending.ofResult (runProgram settings limit p (.start [])).1 = .crash (.fault f) ∧
      Escapes settings limit p f) ∨
    Ending.ofResult (runProgram settings limit p (.start [])).1 = .unfinished ∧
      Exhausts settings limit (.program p) (.start []) := by
  obtain ⟨m, ran | ⟨r, ran, status⟩ | ⟨kind, ran, misnamed⟩ | ⟨t, ran, unprintable⟩ |
    ⟨ran, loops⟩⟩ := @runProgram_cases settings quiet limit p (.start [])
      (Forest.plain_single plain_nil)
  · exact .inl ⟨0, by rw [ran]; rfl, .inl rfl⟩
  · exact .inl ⟨r.status, by rw [ran]; rfl, .inr status⟩
  · exact .inr (.inl ⟨_, by rw [ran]; rfl, .misnamed misnamed⟩)
  · exact .inr (.inl ⟨_, by rw [ran]; rfl, .unprintable unprintable⟩)
  · exact .inr (.inr ⟨by rw [ran]; rfl, loops⟩)

theorem Escapes.stops {f : Fault} (escapes : Escapes settings limit p f) :
    Ending.ofResult (runProgram settings limit p (.start [])).1 = .crash (.fault f) := by
  cases escapes with
  | @misnamed kind misnamed =>
    have stopped : (runProgram settings limit p (.start [])).1 =
        .error (.fault (.unhashable kind)) :=
      (@stops_unhashable_iff settings limit (.program p) _ kind).2 misnamed
    rw [stopped]
    rfl
  | @unprintable t unprintable =>
    have stopped : (runProgram settings limit p (.start [])).1 =
        .error (.fault (.unencodable t)) :=
      (@stops_unencodable_iff settings limit (.program p) _ t quiet).2 unprintable
    rw [stopped]
    rfl

theorem crash_ofResult_iff {c : Crash} :
    Ending.ofResult (runProgram settings limit p (.start [])).1 = .crash c ↔
      ∃ f, Escapes settings limit p f ∧ c = .fault f := by
  constructor
  · intro crashed
    rcases ofResult_cases quiet limit p with
      ⟨status, ended, -⟩ | ⟨f, ended, escapes⟩ | ⟨ended, -⟩
    · cases ended.symm.trans crashed
    · cases ended.symm.trans crashed
      exact ⟨f, escapes, rfl⟩
    · cases ended.symm.trans crashed
  · rintro ⟨f, escapes, rfl⟩
    exact escapes.stops quiet

theorem unfinished_ofResult_iff :
    Ending.ofResult (runProgram settings limit p (.start [])).1 = .unfinished ↔
      Exhausts settings limit (.program p) (.start []) := by
  constructor
  · intro unfinished
    rcases ofResult_cases quiet limit p with
      ⟨status, ended, -⟩ | ⟨f, ended, -⟩ | ⟨-, loops⟩
    · cases ended.symm.trans unfinished
    · cases ended.symm.trans unfinished
    · exact loops
  · intro loops
    have stopped : (runProgram settings limit p (.start [])).1 = .error .unfinished := loops.stops
    rw [stopped]
    rfl

theorem exit_ofResult {status : Nat}
    (ended : Ending.ofResult (runProgram settings limit p (.start [])).1 = .exit status) :
    status = 0 ∨ status = 70 := by
  rcases ofResult_cases quiet limit p with
    ⟨status', ended', either⟩ | ⟨f, ended', -⟩ | ⟨ended', -⟩
  · cases ended'.symm.trans ended
    exact either
  · cases ended'.symm.trans ended
  · cases ended'.symm.trans ended

end

/-- All names in the tree are values that can name a variable. -/
def Nameable (p : Program) : Prop :=
  ∀ t ∈ Stmt.namesAll p.statements, ∃ key, Name.ofJson t.text = .ok key

/-- No fault escapes from a run whose names can name variables and whose texts can be printed. -/
theorem not_escapes {settings : Settings} (quiet : settings.verbosity = 0) {limit : Nat}
    {p : Program} (nameable : Nameable p)
    (printable : settings.streams.output = .any ∨ p.Encodable) (f : Fault) :
    ¬Escapes settings limit p f := by
  intro escapes
  cases escapes with
  | misnamed misnamed =>
    obtain ⟨t, member, odd⟩ := misnamed.exists_name
    obtain ⟨key, named⟩ := nameable t member
    cases named.symm.trans odd
  | @unprintable t unprintable =>
    rcases printable with any | whole
    · obtain ⟨_, _, _, _, _, _, -, -, -, refused⟩ := unprintable
      rw [any] at refused
      exact refused rfl
    · have stopped : (runProgram settings limit p (.start [])).1 =
          .error (.fault (.unencodable t)) :=
        (@stops_unencodable_iff settings limit (.program p) _ t quiet).2 unprintable
      exact runProgram_ne_unencodable settings limit whole (Forest.plain_single plain_nil) t stopped

section

variable {files : Files} {host : Host} {path : String} {bytes : List Nat} {settings : Settings}
  {limit : Nat} (found : files (.ofString path) = some (.file bytes))
  (quiet : settings.verbosity = 0) (fits : ∀ c, ¬Overflows host settings bytes c)

include found quiet fits

theorem crash_runTree_iff {c : Crash} :
    (runTree files host settings limit path).ending = .crash c ↔
      contents? host.deepest bytes = some (.error .lineInfinite) ∧ c = .decoding .lineInfinite ∨
      ∃ p, HoldsProgram host.deepest bytes p ∧ ∃ f, Escapes settings limit p f ∧ c = .fault f := by
  rcases runTree_cases found fits limit with
    ⟨infinite, same⟩ | ⟨p, holds, same⟩ | ⟨finite, none, message, same⟩
  · rw [same]
    constructor
    · intro crashed
      cases crashed
      exact .inl ⟨infinite, rfl⟩
    · rintro (⟨-, rfl⟩ | ⟨p, holds, -⟩)
      · rfl
      · exact absurd infinite holds.finite
  · rw [same, ending_runProgramFile quiet]
    constructor
    · intro crashed
      exact .inr ⟨p, holds, (crash_ofResult_iff quiet).1 crashed⟩
    · rintro (⟨infinite, -⟩ | ⟨p', holds', escapes⟩)
      · exact absurd infinite holds.finite
      · rw [holds'.unique holds] at escapes
        exact (crash_ofResult_iff quiet).2 escapes
  · rw [same]
    constructor
    · nofun
    · rintro (⟨infinite, -⟩ | ⟨p, holds, -⟩)
      · exact absurd infinite finite
      · exact absurd ⟨p, holds⟩ none

theorem unfinished_runTree_iff :
    (runTree files host settings limit path).ending = .unfinished ↔
      ∃ p, HoldsProgram host.deepest bytes p ∧
        Exhausts settings limit (.program p) (.start []) := by
  rcases runTree_cases found fits limit with
    ⟨infinite, same⟩ | ⟨p, holds, same⟩ | ⟨-, none, message, same⟩
  · rw [same]
    refine ⟨nofun, ?_⟩
    rintro ⟨p, holds, -⟩
    exact absurd infinite holds.finite
  · rw [same, ending_runProgramFile quiet, unfinished_ofResult_iff quiet]
    constructor
    · intro loops
      exact ⟨p, holds, loops⟩
    · rintro ⟨p', holds', loops⟩
      rwa [holds'.unique holds] at loops
  · rw [same]
    refine ⟨nofun, ?_⟩
    rintro ⟨p, holds, -⟩
    exact absurd ⟨p, holds⟩ none

theorem exit_runTree {status : Nat}
    (ended : (runTree files host settings limit path).ending = .exit status) :
    (status = 0 ∨ status = 70) ∧ (∃ p, HoldsProgram host.deepest bytes p) ∨
      status = 66 ∧ ¬∃ p, HoldsProgram host.deepest bytes p := by
  rcases runTree_cases found fits limit with
    ⟨-, same⟩ | ⟨p, holds, same⟩ | ⟨-, none, message, same⟩
  · rw [same] at ended
    cases ended
  · rw [same, ending_runProgramFile quiet] at ended
    exact .inl ⟨exit_ofResult quiet ended, p, holds⟩
  · rw [same] at ended
    cases ended
    exact .inr ⟨rfl, none⟩

theorem fileError_runTree_iff :
    (runTree files host settings limit path).ending = .exit 66 ∧
        (runTree files host settings limit path).out = [] ↔
      contents? host.deepest bytes ≠ some (.error .lineInfinite) ∧
        ¬∃ p, HoldsProgram host.deepest bytes p := by
  constructor
  · rintro ⟨ended, -⟩
    constructor
    · intro infinite
      have crashed := (@crash_runTree_iff _ _ _ _ settings limit found quiet fits _).2
        (.inl ⟨infinite, rfl⟩)
      cases crashed.symm.trans ended
    · rcases exit_runTree found quiet fits ended with ⟨wrong | wrong, -⟩ | ⟨-, none⟩
      · cases wrong
      · cases wrong
      · exact none
  · rintro ⟨finite, none⟩
    rcases runTree_cases found fits limit with
      ⟨infinite, -⟩ | ⟨p, holds, -⟩ | ⟨-, -, message, same⟩
    · exact absurd infinite finite
    · exact absurd ⟨p, holds⟩ none
    · rw [same]
      exact ⟨rfl, rfl⟩

end

/-- What the command that runs a tree without a trace does with a file, whatever its bytes are. If
the stack does not hold the document or the walk through it, it crashes. If the stack suffices, it
crashes exactly if decoding comes to an infinite line, or if the run comes to use a list or an
object as a name or to print a text with a half in it where that is encoded; and it is unfinished
exactly if the run goes round in a loop as often as it may. If it ends with a status, this is one of
three; it is that of a file error, with nothing printed, exactly if the bytes do not hold a program
and decoding does not come to an infinite line. -/
theorem tree_files_end (files : Files) (host : Host) (options : Options) (limit : Nat)
    (input : String) {path : String} {bytes : List Nat} (asked : options.command = .tree path)
    (quiet : options.verbosity = 0) (found : files (.ofString path) = some (.file bytes)) :
    let settings := options.settings host
    let outcome := perform files host options limit input
    (∀ c, Overflows host settings bytes c → outcome.ending = .crash c) ∧
    ((∀ c, ¬Overflows host settings bytes c) →
      (∀ c, outcome.ending = .crash c ↔
        contents? host.deepest bytes = some (.error .lineInfinite) ∧ c = .decoding .lineInfinite ∨
        ∃ p, HoldsProgram host.deepest bytes p ∧
          ∃ f, Escapes settings limit p f ∧ c = .fault f) ∧
      ((∃ p, HoldsProgram host.deepest bytes p ∧ Nameable p ∧
        (host.output = .any ∨ p.Encodable)) → ∀ c, outcome.ending ≠ .crash c) ∧
      (outcome.ending = .unfinished ↔ ∃ p, HoldsProgram host.deepest bytes p ∧
        Exhausts settings limit (.program p) (.start [])) ∧
      (∀ status, outcome.ending = .exit status → status = 0 ∨ status = 66 ∨ status = 70) ∧
      (outcome.ending = .exit 66 ∧ outcome.out = [] ↔
        contents? host.deepest bytes ≠ some (.error .lineInfinite) ∧
          ¬∃ p, HoldsProgram host.deepest bytes p)) := by
  intro settings outcome
  have same : outcome = runTree files host settings limit path := by
    unfold outcome
    rw [perform, asked]
  have quiet : settings.verbosity = 0 := quiet
  rw [same]
  refine ⟨?_, fun fits => ⟨fun c => crash_runTree_iff found quiet fits, ?_,
    unfinished_runTree_iff found quiet fits, ?_, fileError_runTree_iff found quiet fits⟩⟩
  · intro c overflows
    rw [runTree_of_overflows found overflows]
    rfl
  · rintro ⟨p, holds, nameable, printable⟩ c crashed
    rcases (crash_runTree_iff found quiet fits).1 crashed with
      ⟨infinite, -⟩ | ⟨p', holds', f, escapes, -⟩
    · exact holds.finite infinite
    · rw [holds'.unique holds] at escapes
      exact not_escapes quiet nameable printable f escapes
  · intro status ended
    rcases exit_runTree found quiet fits ended with ⟨well | reported, -⟩ | ⟨fault, -⟩
    · exact .inl well
    · exact .inr (.inr reported)
    · exact .inr (.inl fault)

/-- The tree of `print x;`, but for the text and the line of the name. -/
def printTree (text line : Json) : Json :=
  .object [("type", .text "Program"), ("statements", .list [
    .object [("type", .text "PrintStmt"), ("expression",
      .object [("type", .text "Variable"), ("name",
        .object [("type", .text "Token"), ("kind", .text "IDENTIFIER"), ("text", text),
          ("line", line)])])]])]

theorem readable_printTree {text line : Json} (readable_text : Json.Readable text)
    (readable_line : Json.Readable line) : Json.Readable (printTree text line) := by
  simp [printTree, Json.Readable, Json.ReadableFields, Json.ReadableItems, readable_text,
    readable_line]

def oneTree (v : Json) : Files := writeFile (fun _ => none) (.ofString "f.json") (Json.document v)

theorem oneTree_found (v : Json) :
    oneTree v (.ofString "f.json") = some (.file (Text.encodeUtf8 (Json.document v).toList)) := by
  rw [oneTree, writeFile, if_pos rfl]

/-- A document is read by a host whose stack holds it, and walked through. -/
theorem hostOf_fits {depth : Nat} {v : Json} (readable : Json.Readable v) (le : v.depth ≤ depth) :
    document? (hostOf depth).deepest (Text.encodeUtf8 (Json.document v).toList) = some (.ok v) ∧
    ∀ settings c,
      ¬Overflows (hostOf depth) settings (Text.encodeUtf8 (Json.document v).toList) c := by
  have read : document? (hostOf depth).deepest (Text.encodeUtf8 (Json.document v).toList) =
      some (.ok v) := by
    apply document?_document readable
    rintro most ⟨⟩
    exact le
  refine ⟨read, fun settings c overflows => ?_⟩
  cases overflows with
  | nesting deep => cases read.symm.trans deep
  | walking read' long =>
    cases read.symm.trans read'
    exact of_decide_eq_false long le

/-- An infinite line is no fault of the file: it crashes the command. -/
theorem infinite_line_crashes :
    perform (oneTree (printTree (.text "x") (.number (.double Numeral.infinity)))) (hostOf 5)
      ⟨0, false, none, some "f.json", none⟩ 1 "" = .crash (.decoding .lineInfinite) := by
  have infinite : decode (printTree (.text "x") (.number (.double Numeral.infinity))) =
      .error .lineInfinite := rfl
  have readable :=
    @readable_printTree (.text "x") (.number (.double Numeral.infinity)) rfl trivial
  obtain ⟨read, fits⟩ := @hostOf_fits 5 _ readable (by decide)
  have contents : contents? (hostOf 5).deepest (Text.encodeUtf8 (Json.document
      (printTree (.text "x") (.number (.double Numeral.infinity)))).toList) =
        some (.error .lineInfinite) := by
    rw [contents?, read]
    exact congrArg some infinite
  have asked : (⟨0, false, none, some "f.json", none⟩ : Options).command = .tree "f.json" := by
    decide
  rw [perform, asked]
  dsimp only
  rcases runTree_cases (oneTree_found _) (fits _) 1 with
    ⟨-, crashed⟩ | ⟨p, holds, -⟩ | ⟨finite, -⟩
  · exact crashed
  · cases contents.symm.trans holds
  · exact absurd contents finite

/-- A list as a name crashes the run that reads it. -/
theorem tree_files_end_list :
    decode (printTree (.list []) (.number (.whole 1))) =
      .ok (.program ⟨[.print (.var ⟨.identifier, .list [], 1⟩)]⟩) ∧
    (perform (oneTree (printTree (.list []) (.number (.whole 1)))) (hostOf 6)
      ⟨0, true, none, some "f.json", none⟩ 1 "").ending =
        .crash (.fault (.unhashable "list")) := by
  have decoded : decode (printTree (.list []) (.number (.whole 1))) =
      .ok (.program ⟨[.print (.var ⟨.identifier, .list [], 1⟩)]⟩) := rfl
  have short : (Nat.toDigits 10 1).length ≤ Json.digitLimit := by decide
  have readable := @readable_printTree (.list []) (.number (.whole 1)) trivial short
  obtain ⟨read, fits⟩ := @hostOf_fits 6 _ readable (by decide)
  have ends := (tree_files_end (oneTree (printTree (.list []) (.number (.whole 1)))) (hostOf 6)
    ⟨0, true, none, some "f.json", none⟩ 1 "" (by decide) rfl (oneTree_found _)).2 (fits _)
  have holds : HoldsProgram (hostOf 6).deepest
      (Text.encodeUtf8 (Json.document (printTree (.list []) (.number (.whole 1)))).toList)
      ⟨[.print (.var ⟨.identifier, .list [], 1⟩)]⟩ := by
    rw [HoldsProgram, contents?, read]
    exact congrArg some decoded
  refine ⟨decoded, (ends.1 _).2 (.inr ⟨_, holds, _, .misnamed (stops_unhashable_iff.1 ?_), rfl⟩)⟩
  rfl

end TreeWalk.CommandLine
