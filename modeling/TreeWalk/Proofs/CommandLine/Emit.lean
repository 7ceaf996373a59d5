import TreeWalk.CommandLine.Command
import TreeWalk.Proofs.Source.WellFormed
import TreeWalk.Proofs.Text.Utf8

/-!
Trees that are written to a file and run from there. What was written is read back as it is, and
decoded as the program of the source file, so running the written tree does what running the source
file does. Where the source file has no tree, both commands end alike.
-/

set_option autoImplicit false

namespace TreeWalk.CommandLine

def writeFile (files : Files) (p : Path) (text : String) : Files :=
  fun q => if q = p then some (.file (Text.encodeUtf8 text.toList)) else files q

def afterWrites (files : Files) (writes : List (Path × String)) : Files :=
  writes.foldl (fun files write => writeFile files write.1 write.2) files

theorem readFile_writeFile {text : String} (no_return : '\r' ∉ text.toList) (files : Files)
    (p : Path) : readFile (writeFile files p text) p = .ok text := by
  simp only [readFile, writeFile, if_true, Text.decodeUtf8_encodeUtf8,
    Text.unifyNewlines_eq no_return, String.ofList_toList]

theorem no_return_document (v : Json) : '\r' ∉ (Json.document v).toList := by
  rw [Json.document, String.toList_ofList]
  exact Json.no_return_write 0 v

/-- Writing a file where one may be written leaves all places as writable as they were. -/
theorem writable_writeFile {files : Files} {p : Path} (free : writable files p = true)
    (text : String) (q : Path) : writable (writeFile files p text) q = writable files q := by
  by_cases same : q = p
  · subst same
    rw [free]
    simp [writable, writeFile]
  · simp only [writable, writeFile, same, if_false]

theorem runProgramFile_writeFile {files : Files} {p : Path} (free : writable files p = true)
    (text : String) (settings : Run.Settings) (limit : Nat) (program : Program) :
    runProgramFile (writeFile files p text) settings limit program =
      runProgramFile files settings limit program := by
  simp only [runProgramFile, startSession, writable_writeFile free]

/-- A written document is run like the program it holds, if the reader gives it back and the stack
holds the walk through it. -/
theorem runTree_writeFile {files : Files} {host : Host} {p : Path} {g : String} {program : Program}
    {settings : Run.Settings} (target : Path.ofString g = p) (free : writable files p = true)
    (undone : Json.readWithin host.deepest (Json.document program.encode).toList =
      .ok program.encode) (walks : host.walks settings program.encode = true) (limit : Nat) :
    runTree (writeFile files p (Json.document program.encode)) host settings limit g =
      runProgramFile files settings limit program := by
  unfold runTree
  rw [target, readFile_writeFile (no_return_document _)]
  simp only [undone, walks, if_true, decode_program]
  exact runProgramFile_writeFile free _ settings limit program

/-- The ways in which writing a tree can end, beside running the source file. -/
theorem emitTree_cases (files : Files) (settings : Run.Settings) (limit : Nat) (f : String) :
    (∃ source program, readFile files (.ofString f) = .ok source ∧
      Source.parse source = .ok program ∧ writable files (treePath (.ofString f)) = true ∧
      emitTree files f = ⟨(treePath (.ofString f)).text ++ "\n", [],
        [(treePath (.ofString f), Json.document program.encode)], .exit Status.success⟩ ∧
      runSource files settings limit f = runProgramFile files settings limit program) ∨
    (emitTree files f = runSource files settings limit f ∧
      ∃ status, (emitTree files f).ending = .exit status ∧ status ≠ Status.success) ∨
    (writable files (treePath (.ofString f)) = false ∧
      emitTree files f = .crash (.directory (treePath (.ofString f)))) := by
  unfold emitTree runSource
  simp only
  split
  · next e _ =>
    right
    left
    exact ⟨rfl, Status.fileError, rfl, by decide⟩
  · next source read =>
    split
    · next e _ =>
      right
      left
      refine ⟨rfl, _, rfl, ?_⟩
      unfold Report.status
      split <;> decide
    · next program parsed =>
      cases free : writable files (treePath (.ofString f)) with
      | true =>
        left
        exact ⟨source, program, read, parsed, rfl, by rw [if_pos rfl], rfl⟩
      | false =>
        right
        right
        exact ⟨rfl, by rw [if_neg (by decide)]⟩

/-- Let `f` be the path of a source file and `g` that of its tree. If writing the tree succeeds,
running the written tree does all that running the source file does: it prints the same, writes the
same trace and ends alike. This takes a stack that holds the tree, and a reader that gives the
document back, as it does for every text whose lines can be numbered with as many digits as an
integer may have. If writing the tree fails, it does what running the source file does, unless a
directory stands where the tree goes. -/
theorem run_written_tree (files : Files) (host : Host) (emitting running direct : Options)
    (f g : String) (limit : Nat) (input : String) (emits : emitting.command = .emit f)
    (runs : running.command = .tree g) (reads : direct.command = .source f)
    (flags : running.settings host = direct.settings host)
    (target : Path.ofString g = treePath (.ofString f)) :
    ((perform files host emitting limit input).ending = .exit Status.success →
      ∃ source program, readFile files (.ofString f) = .ok source ∧
        Source.parse source = .ok program ∧
        (Text.newlines source.toList + 1 < 10 ^ Json.digitLimit →
          Json.Holds host.deepest program.encode.depth →
          Json.readWithin host.deepest (Json.document program.encode).toList =
            .ok program.encode) ∧
        (Json.readWithin host.deepest (Json.document program.encode).toList = .ok program.encode →
          host.walks (direct.settings host) program.encode = true →
          perform (afterWrites files (perform files host emitting limit input).writes) host running
            limit input = perform files host direct limit input)) ∧
    ((perform files host emitting limit input).ending ≠ .exit Status.success →
      perform files host emitting limit input = perform files host direct limit input ∨
      files (treePath (.ofString f)) = some .directory ∧
        perform files host emitting limit input =
          .crash (.directory (treePath (.ofString f)))) := by
  simp only [perform, emits, runs, reads, flags]
  rcases emitTree_cases files (direct.settings host) limit f with
    ⟨source, program, read, parsed, free, emitted, ran⟩ | ⟨same, status, ending, failed⟩ |
    ⟨taken, emitted⟩
  · rw [emitted, ran]
    refine ⟨fun _ => ⟨source, program, read, parsed, ?_, ?_⟩, fun failed => absurd rfl failed⟩
    · intro short holds
      exact Json.readWithin_document (Source.readable_of_parse parsed short) holds
    · intro undone walks
      exact runTree_writeFile target free undone walks limit
  · refine ⟨?_, fun _ => .inl same⟩
    intro success
    rw [ending] at success
    cases success
    exact absurd rfl failed
  · rw [emitted]
    refine ⟨?_, fun _ => .inr ⟨?_, rfl⟩⟩
    · intro success
      cases success
    · simpa [writable] using taken

/-- One source file, whose text is `print x;` with a line feed. -/
def sampleFiles : Files := fun p =>
  if p = ⟨"", ["a.sp"]⟩ then some (.file (Text.encodeUtf8 "print x;\n".toList)) else none

/-- A host whose stack holds so many lists and objects in each other. -/
def hostOf (depth : Nat) : Host := ⟨.utf8, some depth, fun _ value => value.depth ≤ depth⟩

theorem run_written_tree_sample :
    (perform sampleFiles (hostOf 5) ⟨0, false, some "a.sp", none, none⟩ 1 "").ending =
      .exit Status.success ∧
    perform (afterWrites sampleFiles
        (perform sampleFiles (hostOf 5) ⟨0, false, some "a.sp", none, none⟩ 1 "").writes)
      (hostOf 5) ⟨2, true, none, some "./a.sp.ast.json", none⟩ 1 "" =
      perform sampleFiles (hostOf 5) ⟨2, true, none, none, some "a.sp"⟩ 1 "" := by
  have commands := run_written_tree sampleFiles (hostOf 5) ⟨0, false, some "a.sp", none, none⟩
    ⟨2, true, none, some "./a.sp.ast.json", none⟩ ⟨2, true, none, none, some "a.sp"⟩ "a.sp"
    "./a.sp.ast.json" 1 "" (by decide) (by decide) (by decide) rfl (by decide)
  have text : readFile sampleFiles (.ofString "a.sp") = .ok "print x;\n" := rfl
  have program : Source.parse "print x;\n" = .ok ⟨[.print (.var (Source.nameToken ['x'] 1))]⟩ := by
    unfold Source.parse
    rw [Source.parseFrom_step rfl rfl rfl, Source.parseFrom_step rfl rfl rfl,
      Source.parseFrom_step rfl rfl rfl]
    exact Source.parseFrom_end rfl rfl
  have success : (perform sampleFiles (hostOf 5) ⟨0, false, some "a.sp", none, none⟩ 1 "").ending =
      .exit Status.success := by
    change (emitTree sampleFiles "a.sp").ending = _
    simp only [emitTree, text, program]
    rfl
  obtain ⟨source, tree, read, parsed, undone, same⟩ := commands.1 success
  rw [text] at read
  cases read
  rw [program] at parsed
  cases parsed
  refine ⟨success, same (undone ?_ ?_) ?_⟩
  · exact Nat.lt_of_lt_of_le (by decide) (Nat.le_self_pow (by decide) 10)
  · rintro most ⟨⟩
    decide
  · decide

end TreeWalk.CommandLine
