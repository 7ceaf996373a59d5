import Mathlib.Data.List.Find
import TreeWalk.Proofs.Source.Moves
import TreeWalk.Text.Blank

/-!
How a text is read. The parser skips, takes a lexeme of those that may stand there, and moves, until
nothing is left; a text is a program if the state it ends in is that of a complete one. No lexeme
reaches beyond the end of a text where a blank or a semicolon follows it. Blanks are skipped, or
there is no reading.
-/

set_option autoImplicit false

namespace TreeWalk.Source

/-- The parser reads a text that starts on a line, from one state to the state at the end. -/
inductive Reading : State → Nat → List Char → State → Prop where
  | done {state : State} {line here : Nat} {cs : List Char}
    (skipped : skip false line cs = (here, [])) : Reading state line cs state
  | step {state next final : State} {line here : Nat} {cs rest : List Char} {c : Char}
    {lexeme : Lexeme} (skipped : skip false line cs = (here, c :: rest))
    (found : lexeme? state.slot.accepts (c :: rest) = some lexeme)
    (move : Move lexeme here state next)
    (tail : Reading next (here + Text.newlines lexeme.text)
      ((c :: rest).drop lexeme.text.length) final) : Reading state line cs final

theorem reading_of_parseFrom {state : State} {last line : Nat} {cs : List Char} {p : Program}
    (h : parseFrom state last line cs = .ok p) :
    ∃ final : State, Reading state line cs final ∧ final.program? = some p := by
  fun_induction parseFrom state last line cs with
  | case1 state last line cs here empty program complete =>
    cases h
    exact ⟨state, .done empty, complete⟩
  | case2 => cases h
  | case3 => cases h
  | case4 => cases h
  | case5 state last line cs here c rest skipped lexeme found next stepped ih =>
    obtain ⟨final, reading, complete⟩ := ih h
    exact ⟨final, .step skipped found (move_of_step stepped) reading, complete⟩

theorem parseFrom_of_reading {state final : State} {line : Nat} {cs : List Char} {p : Program}
    (reading : Reading state line cs final) (complete : final.program? = some p) (last : Nat) :
    parseFrom state last line cs = .ok p := by
  induction reading generalizing last with
  | done skipped => exact parseFrom_end skipped complete
  | step skipped found move _ ih =>
    rw [parseFrom_step skipped found (step_of_move move)]
    exact ih complete _

/-- A text is a program if its reading ends in a complete one. -/
theorem parse_eq_ok_iff {source : String} {p : Program} :
    parse source = .ok p ↔
      ∃ final : State, Reading (.declaration ⟨[], []⟩) 1 source.toList final ∧
        final.program? = some p := by
  constructor
  · exact reading_of_parseFrom
  · rintro ⟨final, reading, complete⟩
    exact parseFrom_of_reading reading complete 1

/-- Only what is left after skipping matters. -/
theorem Reading.of_skip {state final : State} {line line' : Nat} {cs cs' : List Char}
    (reading : Reading state line cs final) (same : skip false line' cs' = skip false line cs) :
    Reading state line' cs' final := by
  cases reading with
  | done skipped => exact .done (same.trans skipped)
  | step skipped found move tail => exact .step (same.trans skipped) found move tail

/-- A blank is in no lexeme but a string, and in no comment sign. -/
theorem blank_outside {c : Char} (blank : Text.isBlank c = true) :
    Text.isDigit c = false ∧ c ≠ '"' ∧ c ≠ '/' ∧ isNameChar c = false ∧ isNameStart c = false ∧
      ∀ entry ∈ signs, entry.1.head? ≠ some c := by
  have all : ∀ n ∈ Text.blanks, Text.isDigit (.ofNat n) = false ∧ Char.ofNat n ≠ '"' ∧
      Char.ofNat n ≠ '/' ∧ isNameChar (.ofNat n) = false ∧ isNameStart (.ofNat n) = false ∧
      ∀ entry ∈ signs, entry.1.head? ≠ some (Char.ofNat n) := by decide
  have found := all c.toNat (List.contains_iff_mem.1 blank)
  rwa [Char.ofNat_toNat] at found

/-- A character that no lexeme but a string goes on with, and that is not part of a comment sign. -/
structure Stops (b : Char) : Prop where
  digit : Text.isDigit b = false
  nameChar : isNameChar b = false
  point : b ≠ '.'
  slash : b ≠ '/'
  spelled : ∀ entry ∈ words ++ signs, b ∉ entry.1.tail

theorem stops_semicolon : Stops ';' where
  digit := by decide
  nameChar := by decide
  point := by decide
  slash := by decide
  spelled := by decide

theorem stops_of_blank {b : Char} (blank : Text.isBlank b = true) : Stops b := by
  obtain ⟨digit, -, slash, nameChar, -, -⟩ := blank_outside blank
  have all : ∀ n ∈ Text.blanks, Char.ofNat n ≠ '.' ∧
      ∀ entry ∈ words ++ signs, Char.ofNat n ∉ entry.1.tail := by decide
  have found := all b.toNat (List.contains_iff_mem.1 blank)
  rw [Char.ofNat_toNat] at found
  exact ⟨digit, nameChar, found.1, slash, found.2⟩

theorem blank_of_space {b : Char} (space : isSpace b = true) : Text.isBlank b = true := by
  obtain rfl | rfl | rfl | rfl | rfl :
      b = ' ' ∨ b = '\t' ∨ b = '\x0c' ∨ b = '\r' ∨ b = '\n' := by
    simpa [isSpace, or_assoc] using space
  all_goals decide

/-- A text ends in a comment. Outside of strings two slashes start one, and a line feed ends it. -/
def endsInComment (inString inComment : Bool) : List Char → Bool
  | [] => inComment
  | c :: cs =>
    if inComment then endsInComment false (c ≠ '\n') cs
    else if c = '"' then endsInComment (!inString) false cs
    else if inString then endsInComment true false cs
    else endsInComment false (c = '/' ∧ cs.head? = some '/') cs

/-- Outside of strings a character that is no quote and no slash changes nothing, but that a line
feed ends a comment. -/
theorem endsInComment_cons {c : Char} (quote : c ≠ '"') (slash : c ≠ '/') (inComment : Bool)
    (cs : List Char) :
    endsInComment false inComment (c :: cs) =
      endsInComment false (inComment && c ≠ '\n') cs := by
  cases inComment <;> simp [endsInComment, quote, slash]

/-- Behind a text that is skipped as a whole skipping goes on, inside of a comment or not. -/
theorem skip_through {comment : Bool} {line here : Nat} {cs : List Char}
    (skipped : skip comment line cs = (here, [])) (more : List Char) :
    skip comment line (cs ++ more) = skip (endsInComment false comment cs) here more := by
  fun_induction skip comment line cs with
  | case1 comment line =>
    cases skipped
    rfl
  | case2 comment line cs ih =>
    rw [List.cons_append, skip, if_pos rfl, ih skipped,
      endsInComment_cons (by decide) (by decide)]
    simp
  | case3 line c cs other ih =>
    rw [List.cons_append, skip, if_neg other, if_pos rfl, ih skipped, endsInComment, if_pos rfl]
    simp [other]
  | case4 comment line c cs other outside space ih =>
    have apart := stops_of_blank (blank_of_space space)
    rw [List.cons_append, skip, if_neg other, if_neg outside, if_pos space, ih skipped,
      endsInComment_cons (blank_outside (blank_of_space space)).2.1 apart.slash]
    simp [outside]
  | case5 comment line c cs other outside space slashes ih =>
    have still : c = '/' ∧ (cs ++ more).head? = some '/' := by
      refine ⟨slashes.1, ?_⟩
      rw [List.head?_append, slashes.2]
      rfl
    have quote : c ≠ '"' := by
      rw [slashes.1]
      decide
    rw [List.cons_append, skip, if_neg other, if_neg outside, if_neg space, if_pos still,
      ih skipped, endsInComment, if_neg outside, if_neg quote, if_neg Bool.false_ne_true,
      decide_eq_true slashes]
  | case6 => cases skipped

/-- No more is skipped of a text where something follows it that does not make a comment of a slash
at its end. -/
theorem skip_before {comment : Bool} {line here : Nat} {cs rest : List Char} {c b : Char}
    (skipped : skip comment line cs = (here, c :: rest)) (noSlash : b ≠ '/') (more : List Char) :
    skip comment line (cs ++ b :: more) = (here, c :: rest ++ b :: more) := by
  fun_induction skip comment line cs with
  | case1 => cases skipped
  | case2 comment line cs ih =>
    rw [List.cons_append, skip, if_pos rfl]
    exact ih skipped
  | case3 line c cs other ih =>
    rw [List.cons_append, skip, if_neg other, if_pos rfl]
    exact ih skipped
  | case4 comment line c cs other outside space ih =>
    rw [List.cons_append, skip, if_neg other, if_neg outside, if_pos space]
    exact ih skipped
  | case5 comment line c cs other outside space slashes ih =>
    have still : c = '/' ∧ (cs ++ b :: more).head? = some '/' := by
      refine ⟨slashes.1, ?_⟩
      rw [List.head?_append, slashes.2]
      rfl
    rw [List.cons_append, skip, if_neg other, if_neg outside, if_neg space, if_pos still]
    exact ih skipped
  | case6 comment line c cs other outside space slashes =>
    cases skipped
    have still : ¬ (c = '/' ∧ (rest ++ b :: more).head? = some '/') := by
      rintro ⟨slash, second⟩
      cases rest with
      | nil => exact noSlash (Option.some.inj second)
      | cons d rest => exact slashes ⟨slash, second⟩
    rw [List.cons_append, skip, if_neg other, if_neg outside, if_neg space, if_neg still]

/-- What is skipped of a text and of what follows it behind a line feed. -/
theorem skip_newline (comment : Bool) (line : Nat) (cs more : List Char) :
    skip comment line (cs ++ '\n' :: more) =
      match skip comment line cs with
      | (here, []) => skip false (here + 1) more
      | (here, c :: rest) => (here, c :: rest ++ '\n' :: more) := by
  split
  · next here skipped => rw [skip_through skipped, skip, if_pos rfl]
  · next here c rest skipped => exact skip_before skipped (by decide) more

theorem takeWhile_stop {p : Char → Bool} {b : Char} (stops : p b = false) (cs more : List Char) :
    (cs ++ b :: more).takeWhile p = cs.takeWhile p := by
  induction cs with
  | nil => simp [stops]
  | cons c cs ih => simp only [List.cons_append, List.takeWhile_cons, ih]

theorem dropWhile_stop {p : Char → Bool} {b : Char} (stops : p b = false) (cs more : List Char) :
    (cs ++ b :: more).dropWhile p = cs.dropWhile p ++ b :: more := by
  induction cs with
  | nil => simp [stops]
  | cons c cs ih =>
    simp only [List.cons_append, List.dropWhile_cons, ih]
    split <;> rfl

theorem takeNumber_stop {b : Char} (digit : Text.isDigit b = false) (noPoint : b ≠ '.')
    (cs more : List Char) : takeNumber (cs ++ b :: more) = takeNumber cs := by
  simp only [takeNumber, takeWhile_stop digit, dropWhile_stop digit]
  cases cs.dropWhile Text.isDigit with
  | nil =>
    split
    · next same => exact absurd (List.cons.inj same).1 noPoint
    · rfl
  | cons c rest =>
    rw [List.cons_append]
    by_cases point : c = '.'
    · subst point
      simp only [takeWhile_stop digit]
    · split
      · next same => exact absurd (List.cons.inj same).1 point
      · split
        · next same => exact absurd (List.cons.inj same).1 point
        · rfl

theorem prefix_stop {text cs more : List Char} {c b : Char} (absent : b ∉ text.tail) :
    text <+: c :: cs ++ b :: more ↔ text <+: c :: cs := by
  constructor
  · intro head
    rcases List.prefix_or_prefix_of_prefix head (List.prefix_append (c :: cs) _) with
      inside | ⟨beyond, rfl⟩
    · exact inside
    · cases beyond with
      | nil => simp
      | cons d beyond =>
        rw [List.prefix_append_right_inj, List.cons_prefix_cons] at head
        rw [head.1] at absent
        simp at absent
  · intro head
    exact head.trans (List.prefix_append (c :: cs) _)

theorem spelled?_stop {table : List (List Char × Terminal)} {b : Char}
    (absent : ∀ entry ∈ table, b ∉ entry.1.tail) (accepts : Terminal → Bool) (c : Char)
    (cs more : List Char) :
    spelled? accepts table (c :: cs ++ b :: more) = spelled? accepts table (c :: cs) := by
  unfold spelled?
  congr 1
  apply List.find?_congr
  intro entry member
  congr 1
  rw [Bool.eq_iff_iff, List.isPrefixOf_iff_prefix, List.isPrefixOf_iff_prefix]
  exact prefix_stop (absent entry member)

/-- A lexeme that is no string is the same one where such a character follows the text. -/
theorem Stops.lexeme?_append {b : Char} (stops : Stops b) (accepts : Terminal → Bool) {c : Char}
    (quote : c ≠ '"') (cs more : List Char) :
    lexeme? accepts (c :: cs ++ b :: more) = lexeme? accepts (c :: cs) := by
  have absent := List.forall_mem_append.1 stops.spelled
  have number := takeNumber_stop stops.digit stops.point (c :: cs) more
  have word := takeWhile_stop stops.nameChar (c :: cs) more
  have wordSpelled := spelled?_stop absent.1 accepts c cs more
  have signSpelled := spelled?_stop absent.2 accepts c cs more
  rw [List.cons_append] at number word wordSpelled signSpelled ⊢
  simp only [lexeme?, quote, if_false, number, word, wordSpelled, signSpelled]

theorem Stops.lexeme? {b : Char} (stops : Stops b) {accepts : Terminal → Bool} {c : Char}
    {cs : List Char} {lexeme : Lexeme} (found : lexeme? accepts (c :: cs) = some lexeme)
    (more : List Char) : Source.lexeme? accepts (c :: cs ++ b :: more) = some lexeme := by
  by_cases quote : c = '"'
  · -- Only a string could reach beyond the text, and this one is closed.
    subst quote
    have digit : Text.isDigit '"' = false := by decide
    rw [List.cons_append]
    simp only [Source.lexeme?, digit, Bool.false_eq_true, if_false, if_true] at found ⊢
    split at found
    · next accepted =>
      obtain ⟨text, taken, rfl⟩ := Option.map_eq_some_iff.1 found
      obtain ⟨inner, rest, rfl, plain, rfl⟩ := takeString?_eq_some_iff.1 taken
      have joined : inner ++ '"' :: rest ++ b :: more =
          inner ++ '"' :: (rest ++ b :: more) := by simp
      have long := takeString?_eq_some_iff.2 ⟨inner, _, joined, plain, rfl⟩
      rw [if_pos accepted, long, Option.map_some]
    · cases found
  · rw [stops.lexeme?_append accepts quote]
    exact found

theorem lexeme?_stop {accepts : Terminal → Bool} {c b : Char} {cs : List Char} {lexeme : Lexeme}
    (found : lexeme? accepts (c :: cs) = some lexeme) (space : isSpace b = true)
    (more : List Char) : lexeme? accepts (c :: cs ++ b :: more) = some lexeme :=
  (stops_of_blank (blank_of_space space)).lexeme? found more

theorem lexeme?_sign_none {accepts : Terminal → Bool} {c : Char} {cs : List Char}
    (digit : Text.isDigit c = false) (quote : c ≠ '"') (start : isNameStart c = false)
    (sign : ∀ entry ∈ signs, entry.1.head? ≠ some c) : lexeme? accepts (c :: cs) = none := by
  simp only [lexeme?, digit, quote, start, Bool.false_eq_true, if_false, spelled?,
    Option.map_eq_none_iff, List.find?_eq_none]
  have spelt : ∀ entry ∈ signs, entry.1 ≠ [] := by decide
  intro entry member
  have other := sign entry member
  obtain ⟨d, ds, spelling⟩ := List.exists_cons_of_ne_nil (spelt entry member)
  rw [Bool.and_eq_true, List.isPrefixOf_iff_prefix, spelling, List.cons_prefix_cons]
  rintro ⟨-, rfl, -⟩
  rw [spelling] at other
  exact other rfl

theorem Reading.behind_blank {state final : State} {line : Nat} {c : Char} {cs : List Char}
    (blank : Text.isBlank c = true) (reading : Reading state line (c :: cs) final) :
    Reading state (line + Text.newlines [c]) cs final := by
  obtain ⟨digit, quote, slash, -, start, sign⟩ := blank_outside blank
  by_cases feed : c = '\n'
  · apply reading.of_skip
    rw [skip, if_pos feed, feed]
    rfl
  · by_cases space : isSpace c = true
    · apply reading.of_skip
      rw [skip, if_neg feed, if_neg Bool.false_ne_true, if_pos space, Text.newlines,
        List.count_singleton, if_neg (by simpa using feed)]
      rfl
    · -- Nothing skips the character, and nothing takes it.
      have kept : skip false line (c :: cs) = (line, c :: cs) := by
        rw [skip, if_neg feed, if_neg Bool.false_ne_true, if_neg space, if_neg (by simp [slash])]
      cases reading with
      | done skipped =>
        rw [kept] at skipped
        cases skipped
      | step skipped found =>
        rw [kept] at skipped
        cases skipped
        rw [lexeme?_sign_none digit quote start sign] at found
        cases found

theorem Reading.behind_blanks {state final : State} {line : Nat} {blanks cs : List Char}
    (all : ∀ c ∈ blanks, Text.isBlank c = true)
    (reading : Reading state line (blanks ++ cs) final) :
    Reading state (line + Text.newlines blanks) cs final := by
  induction blanks generalizing line with
  | nil => exact reading
  | cons c blanks ih =>
    rw [List.forall_mem_cons] at all
    have rest := ih all.2 (reading.behind_blank all.1)
    rw [Text.newlines, ← List.singleton_append, List.count_append, ← Nat.add_assoc]
    exact rest

theorem Reading.eq_of_blanks {state final : State} {line : Nat} {blanks : List Char}
    (all : ∀ c ∈ blanks, Text.isBlank c = true) (reading : Reading state line blanks final) :
    final = state := by
  rw [← List.append_nil blanks] at reading
  cases reading.behind_blanks all with
  | done => rfl
  | step skipped => cases skipped

end TreeWalk.Source
