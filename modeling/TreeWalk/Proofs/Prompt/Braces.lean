import TreeWalk.Proofs.Prompt.Batch
import TreeWalk.Proofs.Source.Accuracy
import TreeWalk.Proofs.Source.Blocks

/-!
The braces that the prompt counts. It looks at the characters of one line at a time and knows
nothing of the parser. Where no string goes over the end of a line it finds the braces that the
parser finds, so that its count after a line is the number of blocks that are open there.
-/

set_option autoImplicit false

namespace TreeWalk.Prompt

open Source

def balanceOfLines (lines : List (List Char)) : Int := (lines.map (braceBalanceFrom false)).sum

/-- The balance of all lines of a text; the first one may start inside of a string. -/
def textBalance (inString : Bool) (cs : List Char) : Int :=
  braceBalanceFrom inString (cs.takeWhile (· ≠ '\n')) + balanceOfLines (Text.splitLines cs).tail

theorem splitLines_eq (cs : List Char) :
    Text.splitLines cs = cs.takeWhile (· ≠ '\n') :: (Text.splitLines cs).tail := by
  fun_induction Text.splitLines cs with
  | case1 => rfl
  | case2 cs ih => simp
  | case3 c cs other none ih => exact absurd none (splitLines_ne_nil cs)
  | case4 c cs other line rest split ih =>
    rw [split] at ih
    have first : line = cs.takeWhile (· ≠ '\n') := (List.cons.inj ih).1
    simp [other, first]

theorem balanceOfLines_splitLines (cs : List Char) :
    balanceOfLines (Text.splitLines cs) = textBalance false cs := by
  rw [splitLines_eq, balanceOfLines, List.map_cons, List.sum_cons]
  rfl

theorem tail_splitLines_newline (cs : List Char) :
    (Text.splitLines ('\n' :: cs)).tail = Text.splitLines cs := by
  simp [Text.splitLines]

theorem tail_splitLines {c : Char} (other : c ≠ '\n') (cs : List Char) :
    (Text.splitLines (c :: cs)).tail = (Text.splitLines cs).tail := by
  obtain ⟨line, rest, split⟩ := List.exists_cons_of_ne_nil (splitLines_ne_nil cs)
  simp [Text.splitLines, other, split]

theorem textBalance_newline (cs : List Char) :
    textBalance false ('\n' :: cs) = textBalance false cs := by
  rw [textBalance, tail_splitLines_newline, balanceOfLines_splitLines]
  simp [braceBalanceFrom]

theorem textBalance_cons {c : Char} (other : c ≠ '\n') (inString : Bool) (cs : List Char) :
    textBalance inString (c :: cs) =
      braceBalanceFrom inString (c :: cs.takeWhile (· ≠ '\n')) +
        balanceOfLines (Text.splitLines cs).tail := by
  rw [textBalance, tail_splitLines other, List.takeWhile_cons_of_pos (by simp [other])]

theorem head?_line (cs : List Char) :
    (cs.takeWhile (· ≠ '\n')).head? = some '/' ↔ cs.head? = some '/' := by
  rw [List.head?_takeWhile, Option.filter_eq_some_iff]
  simp

theorem textBalance_quote (inString : Bool) (cs : List Char) :
    textBalance inString ('"' :: cs) = textBalance (!inString) cs := by
  rw [textBalance_cons (by decide), braceBalanceFrom]
  simp [textBalance]

theorem textBalance_inside {c : Char} (feed : c ≠ '\n') (quote : c ≠ '"') (cs : List Char) :
    textBalance true (c :: cs) = textBalance true cs := by
  rw [textBalance_cons feed, braceBalanceFrom]
  simp [quote, textBalance]

theorem textBalance_open (cs : List Char) :
    textBalance false ('\x7b' :: cs) = 1 + textBalance false cs := by
  rw [textBalance_cons (by decide), braceBalanceFrom, textBalance]
  simp
  omega

theorem textBalance_close (cs : List Char) :
    textBalance false ('\x7d' :: cs) = -1 + textBalance false cs := by
  rw [textBalance_cons (by decide), braceBalanceFrom, textBalance]
  simp
  omega

/-- Two slashes hide the rest of their line. -/
theorem textBalance_comment {cs : List Char} (second : cs.head? = some '/') :
    textBalance false ('/' :: cs) = balanceOfLines (Text.splitLines cs).tail := by
  have slashes := (head?_line cs).2 second
  rw [textBalance_cons (by decide), braceBalanceFrom, if_pos (by simp only [slashes]; rfl),
    Int.zero_add]

theorem textBalance_slash {cs : List Char} (single : cs.head? ≠ some '/') :
    textBalance false ('/' :: cs) = textBalance false cs := by
  have alone := (head?_line cs).not.2 single
  rw [textBalance_cons (by decide), braceBalanceFrom, if_neg (by simp only [alone]; decide)]
  rfl

/-- The characters that mean nothing to the count. -/
def isPlain (c : Char) : Bool := c ∉ ['\n', '"', '/', '\x7b', '\x7d']

theorem textBalance_plain {text : List Char} (plain : ∀ c ∈ text, isPlain c = true)
    (rest : List Char) : textBalance false (text ++ rest) = textBalance false rest := by
  induction text with
  | nil => rfl
  | cons c text ih =>
    rw [List.forall_mem_cons] at plain
    obtain ⟨feed, quote, slash, opening, closing⟩ :
        c ≠ '\n' ∧ c ≠ '"' ∧ c ≠ '/' ∧ c ≠ '\x7b' ∧ c ≠ '\x7d' := by
      simpa [isPlain] using plain.1
    rw [← ih plain.2, List.cons_append, textBalance_cons feed, braceBalanceFrom]
    simp [quote, slash, opening, closing, textBalance]

theorem textBalance_string {inner : List Char} (quote : '"' ∉ inner) (feed : '\n' ∉ inner)
    (rest : List Char) : textBalance true (inner ++ '"' :: rest) = textBalance false rest := by
  induction inner with
  | nil => exact textBalance_quote true rest
  | cons c inner ih =>
    rw [List.mem_cons, not_or] at quote feed
    rw [List.cons_append, textBalance_inside (Ne.symm feed.1) (Ne.symm quote.1),
      ih quote.2 feed.2]

theorem isPlain_of {p : Char → Bool} (others : ['\n', '"', '/', '\x7b', '\x7d'].all (!p ·) = true)
    {c : Char} (member : p c = true) : isPlain c = true := by
  refine decide_eq_true fun special => ?_
  have not_member := List.all_eq_true.1 others c special
  rw [member] at not_member
  cases not_member

theorem textBalance_skip (comment : Bool) (line : Nat) (cs : List Char) :
    (if comment then balanceOfLines (Text.splitLines cs).tail else textBalance false cs) =
      textBalance false (skip comment line cs).2 := by
  fun_induction skip comment line cs with
  | case1 comment line => cases comment <;> rfl
  | case2 comment line cs ih =>
    rw [tail_splitLines_newline, balanceOfLines_splitLines, textBalance_newline, ite_self]
    exact ih
  | case3 line c cs other ih =>
    rw [tail_splitLines other]
    exact ih
  | case4 comment line c cs other outside space ih =>
    have plain : isPlain c = true :=
      @isPlain_of (fun c => isSpace c && c ≠ '\n') (by decide) c (by simp [space, other])
    rw [if_neg outside]
    exact (@textBalance_plain [c] (by simpa using plain) cs).trans ih
  | case5 comment line c cs other outside space slashes ih =>
    rw [if_neg outside, slashes.1, textBalance_comment slashes.2]
    exact ih
  | case6 comment line c cs other outside space slashes => rw [if_neg outside]

/-- A lexeme is a string, one of the signs that the count looks at, or nothing to it. -/
inductive Counted : Lexeme → Prop where
  | string {inner : List Char} (quote : '"' ∉ inner) : Counted ⟨.string, '"' :: inner ++ ['"']⟩
  | slash {t : Terminal} (none : t.brace = 0) : Counted ⟨t, ['/']⟩
  | opening {t : Terminal} (one : t.brace = 1) : Counted ⟨t, ['\x7b']⟩
  | closing {t : Terminal} (one : t.brace = -1) : Counted ⟨t, ['\x7d']⟩
  | plain {t : Terminal} {text : List Char} (all : ∀ c ∈ text, isPlain c = true)
    (none : t.brace = 0) : Counted ⟨t, text⟩

theorem brace_wordTerminal (accepts : Terminal → Bool) (word : List Char) :
    (wordTerminal accepts word).brace = 0 := by
  have no_brace : ∀ entry ∈ words, entry.2.brace = 0 := by decide
  unfold wordTerminal
  split
  · next entry found =>
    split
    · exact no_brace entry (List.mem_of_find?_eq_some found)
    · rfl
  · rfl

theorem counted_of_lexed {accepts : Terminal → Bool} {cs : List Char} {lexeme : Lexeme}
    (lexed : Lexed accepts cs lexeme) : Counted lexeme := by
  cases lexed with
  | @number c cs digit =>
    have spells := @spells_takeNumber c cs digit
    generalize takeNumber (c :: cs) = text at spells
    refine .plain (fun d member => ?_) rfl
    have point : isPlain '.' = true := by decide
    have number (d : Char) : Text.isDigit d = true → isPlain d = true := isPlain_of (by decide)
    cases spells with
    | whole _ all => exact number d (all d member)
    | fraction _ all _ all' =>
      rcases List.mem_append.1 member with first | second
      · exact number d (all d first)
      · rcases List.mem_cons.1 second with rfl | third
        · exact point
        · exact number d (all' d third)
  | string _ plain => exact .string plain
  | word =>
    exact .plain (fun d member => isPlain_of (by decide) (List.mem_takeWhile_imp member))
      (brace_wordTerminal _ _)
  | @keyword _ text terminal listed =>
    have shape : ∀ entry ∈ words, entry.1.all isPlain = true ∧ entry.2.brace = 0 := by decide
    exact .plain (List.all_eq_true.1 (shape _ listed).1) (shape _ listed).2
  | @sign _ text terminal listed =>
    have shape : ∀ entry ∈ signs, entry.1 = ['/'] ∧ entry.2.brace = 0 ∨
        entry.1 = ['\x7b'] ∧ entry.2.brace = 1 ∨ entry.1 = ['\x7d'] ∧ entry.2.brace = -1 ∨
          entry.1.all isPlain = true ∧ entry.2.brace = 0 := by decide
    rcases shape _ listed with ⟨rfl, none⟩ | ⟨rfl, one⟩ | ⟨rfl, one⟩ | ⟨all, none⟩
    · exact .slash none
    · exact .opening one
    · exact .closing one
    · exact .plain (List.all_eq_true.1 all) none

theorem Counted.one_line {lexeme : Lexeme} (counted : Counted lexeme)
    (strings : lexeme.terminal = .string → '\n' ∉ lexeme.text) : '\n' ∉ lexeme.text := by
  cases counted with
  | string => exact strings rfl
  | slash | opening | closing => simp
  | plain all =>
    intro member
    exact absurd (all _ member) (by decide)

theorem Counted.textBalance {lexeme : Lexeme} (counted : Counted lexeme) {rest : List Char}
    (one_line : '\n' ∉ lexeme.text)
    (outside : ∀ cs, lexeme.text ++ rest = '/' :: cs → cs.head? ≠ some '/') :
    textBalance false (lexeme.text ++ rest) =
      lexeme.terminal.brace + textBalance false rest := by
  cases counted with
  | string quote =>
    simp only [List.mem_append, List.mem_cons, not_or] at one_line
    rw [List.cons_append, List.cons_append, textBalance_quote, List.append_assoc]
    exact (textBalance_string quote one_line.1.2 rest).trans (Int.zero_add _).symm
  | slash none => rw [none, Int.zero_add]; exact textBalance_slash (outside rest rfl)
  | opening one => rw [one]; exact textBalance_open rest
  | closing one => rw [one]; exact textBalance_close rest
  | plain all none => rw [none, Int.zero_add]; exact textBalance_plain all rest

/-- The characters have the balance of the lexemes. -/
theorem textBalance_of_locating {state final : State} {place : Nat} {cs : List Char}
    {lexemes : List Located} (locating : Locating state place cs lexemes final)
    (one_line : ∀ l ∈ lexemes, '\n' ∉ l.lexeme.text) : textBalance false cs = braces lexemes := by
  induction locating with
  | @done _ _ cs skipped =>
    have balance := textBalance_skip false 0 cs
    rw [skipped] at balance
    exact balance
  | @step _ _ _ _ front text rest t lexemes skipped found _ _ ih =>
    rw [List.forall_mem_cons] at one_line
    have balance := textBalance_skip false 0 (front ++ (text ++ rest))
    have counted := counted_of_lexed (lexed_of_lexeme? found)
    rw [skipped] at balance
    rw [braces_cons, ← ih one_line.2]
    refine Eq.trans balance (counted.textBalance one_line.1 fun cs whole second => ?_)
    have skipped := skipped 0
    rw [whole] at skipped
    exact (endsInComment_skip skipped).2 ⟨rfl, second⟩

theorem length_splitLines (cs : List Char) :
    (Text.splitLines cs).length = Text.newlines cs + 1 := by
  fun_induction Text.splitLines cs with
  | case1 => rfl
  | case2 cs ih => simp [ih, Text.newlines]
  | case3 c cs other none ih => exact absurd none (splitLines_ne_nil cs)
  | case4 c cs other line rest split ih =>
    rw [split] at ih
    simpa [Text.newlines, other] using ih

/-- What stands in front of the line feed that ends a line. -/
theorem exists_front {cs : List Char} {k : Nat} (some_lines : 0 < k)
    (more_lines : k < (Text.splitLines cs).length) :
    ∃ front more, cs = front ++ '\n' :: more ∧
      Text.splitLines front = (Text.splitLines cs).take k ∧ Text.newlines front + 1 = k := by
  fun_induction Text.splitLines cs generalizing k with
  | case1 =>
    rw [List.length_singleton] at more_lines
    omega
  | case2 cs ih =>
    cases k with
    | zero => cases some_lines
    | succ k =>
      by_cases first : k = 0
      · subst first
        exact ⟨[], cs, rfl, rfl, rfl⟩
      · obtain ⟨front, more, rfl, lines, rfl⟩ :=
          @ih k (Nat.pos_of_ne_zero first) (Nat.lt_of_succ_lt_succ more_lines)
        exact ⟨'\n' :: front, more, rfl, by simp [Text.splitLines, lines], by simp [Text.newlines]⟩
  | case3 c cs other none ih => exact absurd none (splitLines_ne_nil cs)
  | case4 c cs other line rest split ih =>
    rw [split] at ih
    obtain ⟨front, more, rfl, lines, rfl⟩ := ih some_lines more_lines
    rw [List.take_succ_cons] at lines
    refine ⟨c :: front, more, rfl, ?_, by simp [Text.newlines, other]⟩
    rw [Text.splitLines, if_neg other, lines, List.take_succ_cons]

/-- The first lines of a text are read by themselves, with the lexemes that stand on them. -/
theorem locating_lines {state final : State} {cs : List Char} {lexemes : List Located}
    (locating : Locating state 0 cs lexemes final)
    (one_line : ∀ l ∈ lexemes, '\n' ∉ l.lexeme.text) (k : Nat) :
    ∃ mid, Locating state 0 (['\n'].intercalate ((Text.splitLines cs).take k))
      (lexemes.filter (lineAt cs ·.place ≤ k)) mid := by
  by_cases none : k = 0
  · subst none
    have empty : lexemes.filter (lineAt cs ·.place ≤ 0) = [] := by
      simp [lineAt]
    rw [empty]
    exact ⟨state, .done fun _ => rfl⟩
  by_cases whole : (Text.splitLines cs).length ≤ k
  · have every : ∀ l ∈ lexemes, lineAt cs l.place ≤ k := by
      intro l _
      have fewer : Text.newlines (cs.take l.place) ≤ Text.newlines cs :=
        (List.take_sublist _ _).count_le _
      rw [length_splitLines] at whole
      rw [lineAt]
      omega
    rw [List.take_of_length_le whole, intercalate_splitLines,
      List.filter_eq_self.2 (by simpa using every)]
    exact ⟨final, locating⟩
  · obtain ⟨front, more, rfl, lines, rfl⟩ :=
      exists_front (Nat.pos_of_ne_zero none) (Nat.lt_of_not_le whole)
    obtain ⟨mid, first, second, rfl, before, behind⟩ := locating.cut_newline one_line
    rw [Nat.zero_add] at behind
    rw [← lines, intercalate_splitLines, before.filter_lines behind]
    exact ⟨mid, before⟩

theorem splitLines_take {cs : List Char} {k : Nat} (some_lines : 0 < k) :
    Text.splitLines (['\n'].intercalate ((Text.splitLines cs).take k)) =
      (Text.splitLines cs).take k := by
  by_cases whole : (Text.splitLines cs).length ≤ k
  · rw [List.take_of_length_le whole, intercalate_splitLines]
  · obtain ⟨front, more, -, lines, -⟩ := exists_front some_lines (Nat.lt_of_not_le whole)
    rw [← lines, intercalate_splitLines]

/-- The characters of the first lines, and the line feeds between them. -/
def firstLines (source : String) (k : Nat) : List Char :=
  ['\n'].intercalate ((Text.splitLines source.toList).take k)

/-- What the prompt counts up to the end of a line. -/
def balanceUpTo (source : String) (k : Nat) : Int :=
  (((linesOf source).take k).map braceBalance).sum

theorem balanceUpTo_eq (source : String) (k : Nat) :
    balanceUpTo source k = textBalance false (firstLines source k) := by
  have lines : balanceUpTo source k = balanceOfLines ((Text.splitLines source.toList).take k) := by
    have same : braceBalance ∘ String.ofList = braceBalanceFrom false :=
      funext fun cs => congrArg (braceBalanceFrom false) String.toList_ofList
    rw [balanceUpTo, linesOf, ← List.map_take, List.map_map, same, balanceOfLines]
  by_cases none : k = 0
  · subst none
    rfl
  · rw [lines, firstLines, ← balanceOfLines_splitLines, splitLines_take (Nat.pos_of_ne_zero none)]

/-- First lines that are read by themselves are counted as their lexemes are, and the blocks that
they leave open are as many. -/
theorem balanceUpTo_of_locating {source : String} {k : Nat} {lexemes : List Located}
    {state : State}
    (part : Locating (.declaration ⟨[], []⟩) 0 (firstLines source k) lexemes state)
    (one_line : ∀ l ∈ lexemes, '\n' ∉ l.lexeme.text) :
    balanceUpTo source k = braces lexemes ∧ balanceUpTo source k = state.openBlocks := by
  have balance : balanceUpTo source k = braces lexemes :=
    (balanceUpTo_eq source k).trans (textBalance_of_locating part one_line)
  refine ⟨balance, ?_⟩
  rw [balance, part.openBlocks]
  exact (Int.zero_add _).symm

def onLines (source : String) (k : Nat) (lexemes : List Located) : List Located :=
  lexemes.filter (lineAt source.toList ·.place ≤ k)

/-- Where no string of a program goes over the end of a line, the prompt counts the braces that the
parser finds: after each line it has the number of blocks that are open there. So the count is
never negative, and at the end it is zero. -/
theorem braces_are_counted {source : String} {p : Program} (parsed : parse source = .ok p) :
    ∃ placement, locate? source = some placement ∧
      p = placement.tree.lined (lineAt source.toList) ∧
      ((∀ l ∈ placement.lexemes, l.lexeme.terminal = .string → '\n' ∉ l.lexeme.text) →
        (∀ k, balanceUpTo source k = braces (onLines source k placement.lexemes) ∧
          (∃ state,
            locateFrom (.declaration ⟨[], []⟩) 0 (firstLines source k) =
              some (onLines source k placement.lexemes, state) ∧
            balanceUpTo source k = state.openBlocks) ∧
          0 ≤ balanceUpTo source k) ∧
        ∀ k, (linesOf source).length ≤ k → balanceUpTo source k = 0) := by
  obtain ⟨placement, located, lined⟩ := exists_placement parsed
  refine ⟨placement, located, lined, fun strings => ?_⟩
  obtain ⟨final, locating, complete⟩ := locate?_eq_some located
  have one_line : ∀ l ∈ placement.lexemes, '\n' ∉ l.lexeme.text := by
    intro l member
    obtain ⟨accepts, cs, found⟩ := locating.found l member
    exact (counted_of_lexed (lexed_of_lexeme? found)).one_line (strings l member)
  constructor
  · intro k
    obtain ⟨state, part⟩ := locating_lines locating one_line k
    obtain ⟨balance, blocks⟩ :=
      balanceUpTo_of_locating part fun l member => one_line l (List.mem_filter.1 member).1
    refine ⟨balance, ⟨state, locateFrom_of_locating part, blocks⟩, ?_⟩
    rw [blocks]
    exact Int.natCast_nonneg _
  · intro k all
    have whole : firstLines source k = source.toList := by
      rw [linesOf, List.length_map] at all
      rw [firstLines, List.take_of_length_le all, intercalate_splitLines]
    rw [← whole] at locating
    rw [(balanceUpTo_of_locating locating one_line).2, openBlocks_of_program? complete]
    rfl

/-- Nested blocks over five lines, with braces and slashes in strings, braces and quotes in
comments, and a comment next to the sign of a division. -/
def bracedSource : String :=
  "var a = \"\x7d//\"; // \"\x7b\nif (a) \x7b\nprint a / // \x7d\na; \x7b\n\x7d\x7d"

def bracedProgram : Program :=
  ⟨[.declare (nameToken ['a'] 1) (some (.literal (.text "\x7d//"))),
    .ifThen (.var (nameToken ['a'] 2)) (.block [.print (.binary (.var (nameToken ['a'] 3))
      (operatorToken .divide 3) (.var (nameToken ['a'] 4))), .block []])]⟩

theorem braces_are_counted_branch :
    parse bracedSource = .ok bracedProgram ∧
    ∃ placement, locate? bracedSource = some placement ∧
      (∀ l ∈ placement.lexemes, l.lexeme.terminal = .string → '\n' ∉ l.lexeme.text) ∧
      (List.range 6).map (balanceUpTo bracedSource) = [0, 0, 1, 1, 2, 0] ∧
      (List.range 6).map (fun k => braces (onLines bracedSource k placement.lexemes)) =
        [0, 0, 1, 1, 2, 0] := by
  have parsed : parse bracedSource = .ok bracedProgram := by cbv
  obtain ⟨placement, located, -, agrees⟩ := braces_are_counted parsed
  have strings : ((locate? bracedSource).map fun placement => placement.lexemes.all fun l =>
      l.lexeme.terminal ≠ .string || '\n' ∉ l.lexeme.text) = some true := by cbv
  rw [located, Option.map_some, Option.some.injEq, List.all_eq_true] at strings
  have one_line : ∀ l ∈ placement.lexemes, l.lexeme.terminal = .string →
      '\n' ∉ l.lexeme.text := by
    intro l member string
    simpa [string] using strings l member
  have counted : (List.range 6).map (balanceUpTo bracedSource) = [0, 0, 1, 1, 2, 0] := by decide
  refine ⟨parsed, placement, located, one_line, counted, ?_⟩
  rw [← counted]
  exact List.map_congr_left fun k _ => (((agrees one_line).1 k).1).symm

end TreeWalk.Prompt
