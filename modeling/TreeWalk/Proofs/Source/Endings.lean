import TreeWalk.Proofs.Source.Refusal

/-!
How a text ends. A reading can be cut in front of a line feed that no string goes on behind, and in
front of blanks at the end. Behind a line feed the parser goes on as if the text in front of it were
all. So it does where a semicolon follows the text, unless that ends in a comment: then the
semicolon is part of it.
-/

set_option autoImplicit false

namespace TreeWalk.Source

/-- A lexeme is found in a text by itself if no string can be closed behind it. -/
theorem Stops.lexeme?_cut {b : Char} (stops : Stops b) {accepts : Terminal → Bool} {c : Char}
    {cs more : List Char} {lexeme : Lexeme} (noQuote : '"' ∉ b :: more)
    (found : Source.lexeme? accepts (c :: cs ++ b :: more) = some lexeme) :
    Source.lexeme? accepts (c :: cs) = some lexeme := by
  by_cases quote : c = '"'
  · subst quote
    have digit : Text.isDigit '"' = false := by decide
    have long := found
    rw [List.cons_append] at found
    simp only [Source.lexeme?, digit, Bool.false_eq_true, if_false, if_true] at found
    split at found
    · next accepted =>
      obtain ⟨text, taken, rfl⟩ := Option.map_eq_some_iff.1 found
      obtain ⟨inner, rest, whole, plain, rfl⟩ := takeString?_eq_some_iff.1 taken
      have closed : '"' ∈ cs := by
        have member : '"' ∈ cs ++ b :: more := by simp [whole]
        exact (List.mem_append.1 member).resolve_right noQuote
      obtain ⟨inner', rest', rfl, plain'⟩ := List.eq_append_cons_of_mem closed
      have short : Source.lexeme? accepts ('"' :: (inner' ++ '"' :: rest')) =
          some ⟨.string, '"' :: inner' ++ ['"']⟩ := by
        simp only [Source.lexeme?, digit, Bool.false_eq_true, if_false, if_true, if_pos accepted,
          takeString?_eq_some_iff.2 ⟨inner', rest', rfl, plain', rfl⟩, Option.map_some]
      rw [short, ← long, stops.lexeme? short]
    · cases found
  · rwa [stops.lexeme?_append accepts quote] at found

/-- A reading comes to a state where the text is cut off, and goes on from there with what is
skipped at the end of the text. -/
theorem Reading.split {b : Char} (stops : Stops b) {state final : State} {line : Nat}
    {cs more : List Char} (noQuote : '"' ∉ b :: more)
    (reading : Reading state line (cs ++ b :: more) final) :
    ∃ (mid : State) (here there : Nat) (tail : List Char), Reading state line cs mid ∧
      skip false here tail = (there, []) ∧ Reading mid here (tail ++ b :: more) final := by
  generalize whole : cs ++ b :: more = text at reading
  induction reading generalizing cs with
  | @done state line _ text skipped =>
    subst whole
    rcases left : skip false line cs with ⟨here, _ | ⟨c, rest⟩⟩
    · exact ⟨state, line, here, cs, .done left, left, .done skipped⟩
    · rw [skip_before left stops.slash] at skipped
      cases skipped
  | @step state next final line here text _ _ lexeme skipped found move tail ih =>
    subst whole
    rcases left : skip false line cs with ⟨here', _ | ⟨c, rest⟩⟩
    · exact ⟨state, line, here', cs, .done left, left, .step skipped found move tail⟩
    · rw [skip_before left stops.slash] at skipped
      cases skipped
      have alone := stops.lexeme?_cut noQuote found
      have head := (lexed_of_lexeme? alone).head
      obtain ⟨mid, line', there, tail', front, gap, back⟩ :=
        ih (List.drop_append_of_le_length head.length_le).symm
      exact ⟨mid, line', there, tail', .step left alone move front, gap, back⟩

/-- A reading can be cut at a line feed, if no string goes on behind it. -/
theorem Reading.split_newline {state final : State} {line : Nat} {cs more : List Char}
    (noQuote : '"' ∉ more) (reading : Reading state line (cs ++ '\n' :: more) final) :
    ∃ (mid : State) (here : Nat), Reading state line cs mid ∧ Reading mid here more final := by
  obtain ⟨mid, here, there, tail, front, gap, back⟩ :=
    reading.split (stops_of_blank (by decide)) (by simpa using noQuote)
  refine ⟨mid, there + 1, front, back.of_skip ?_⟩
  rw [skip_newline, gap]

theorem Reading.cut_blanks {state final : State} {line : Nat} {cs blanks : List Char}
    (all : ∀ c ∈ blanks, Text.isBlank c = true)
    (reading : Reading state line (cs ++ blanks) final) : Reading state line cs final := by
  cases blanks with
  | nil => rwa [List.append_nil] at reading
  | cons b more =>
    have noQuote : '"' ∉ b :: more := fun member => (blank_outside (all _ member)).2.1 rfl
    obtain ⟨mid, here, there, tail, front, gap, back⟩ :=
      reading.split (stops_of_blank (all b List.mem_cons_self)) noQuote
    cases back with
    | done => exact front
    | @step _ _ _ _ _ _ rest c _ skipped found =>
      -- What is left starts with a blank, and no lexeme does.
      have suffix := skip_suffix (endsInComment false false tail) there (b :: more)
      rw [← skip_through gap, skipped] at suffix
      obtain ⟨digit, quote, -, -, start, sign⟩ :=
        blank_outside (all c (suffix.mem List.mem_cons_self))
      rw [lexeme?_sign_none digit quote start sign] at found
      cases found

/-- What is left after skipping is outside of a comment. -/
theorem endsInComment_skip {comment : Bool} {line here : Nat} {cs rest : List Char} {c : Char}
    (skipped : skip comment line cs = (here, c :: rest)) :
    endsInComment false comment cs = endsInComment false false (c :: rest) ∧
      ¬ (c = '/' ∧ rest.head? = some '/') := by
  fun_induction skip comment line cs with
  | case1 => cases skipped
  | case2 comment line cs ih =>
    rw [endsInComment_cons (by decide) (by decide)]
    simpa using ih skipped
  | case3 line d cs other ih =>
    rw [endsInComment, if_pos rfl]
    simpa [other] using ih skipped
  | case4 comment line d cs other outside space ih =>
    rw [Bool.not_eq_true] at outside
    rw [endsInComment_cons (blank_outside (blank_of_space space)).2.1
      (stops_of_blank (blank_of_space space)).slash, outside, Bool.false_and]
    exact ih skipped
  | case5 comment line d cs other outside space slashes ih =>
    have quote : d ≠ '"' := by
      rw [slashes.1]
      decide
    rw [endsInComment, if_neg outside, if_neg quote, if_neg Bool.false_ne_true,
      decide_eq_true slashes]
    exact ih skipped
  | case6 comment line d cs other outside space slashes =>
    cases skipped
    rw [Bool.not_eq_true] at outside
    rw [outside]
    exact ⟨rfl, slashes⟩

theorem endsInComment_plain {text : List Char} (noQuote : '"' ∉ text) (noSlash : '/' ∉ text)
    (rest : List Char) :
    endsInComment false false (text ++ rest) = endsInComment false false rest := by
  induction text with
  | nil => rfl
  | cons c text ih =>
    rw [List.mem_cons, not_or] at noQuote noSlash
    rw [List.cons_append, endsInComment_cons (Ne.symm noQuote.1) (Ne.symm noSlash.1),
      Bool.false_and, ih noQuote.2 noSlash.2]

theorem endsInComment_string {inner : List Char} (plain : '"' ∉ inner) (rest : List Char) :
    endsInComment true false (inner ++ '"' :: rest) = endsInComment false false rest := by
  induction inner with
  | nil => rfl
  | cons c inner ih =>
    rw [List.mem_cons, not_or] at plain
    rw [List.cons_append, endsInComment, if_neg Bool.false_ne_true, if_neg (Ne.symm plain.1),
      if_pos rfl, ih plain.2]

/-- Only a string has a quote in it, and only the sign of a division has a slash. -/
theorem plain_of_lexed {accepts : Terminal → Bool} {cs : List Char} {lexeme : Lexeme}
    (lexed : Lexed accepts cs lexeme) :
    (∃ inner, '"' ∉ inner ∧ lexeme.text = '"' :: inner ++ ['"']) ∨ lexeme.text = ['/'] ∨
      '"' ∉ lexeme.text ∧ '/' ∉ lexeme.text := by
  have apart {p : Char → Bool} {text : List Char} (all : ∀ c ∈ text, p c = true)
      (quote : p '"' = false) (slash : p '/' = false) : '"' ∉ text ∧ '/' ∉ text := by
    constructor
    · intro member
      exact Bool.false_ne_true (quote.symm.trans (all _ member))
    · intro member
      exact Bool.false_ne_true (slash.symm.trans (all _ member))
  cases lexed with
  | @number c cs digit =>
    have spells := @spells_takeNumber c cs digit
    generalize takeNumber (c :: cs) = text at spells
    right
    right
    cases spells with
    | whole _ all => exact apart all (by decide) (by decide)
    | fraction _ all _ all' =>
      obtain ⟨quote, slash⟩ := apart all (by decide) (by decide)
      obtain ⟨quote', slash'⟩ := apart all' (by decide) (by decide)
      simp [quote, slash, quote', slash']
  | @string inner rest plain => exact .inl ⟨inner, plain, rfl⟩
  | word =>
    right
    right
    exact apart (fun c member => List.mem_takeWhile_imp member) (by decide) (by decide)
  | keyword listed =>
    have shape : ∀ entry ∈ words, '"' ∉ entry.1 ∧ '/' ∉ entry.1 := by decide
    exact .inr (.inr (shape _ listed))
  | sign listed =>
    have shape : ∀ entry ∈ signs, entry.1 = ['/'] ∨ '"' ∉ entry.1 ∧ '/' ∉ entry.1 := by decide
    exact .inr (shape _ listed)

/-- A comment does not start in a lexeme. -/
theorem endsInComment_lexeme {accepts : Terminal → Bool} {c : Char} {cs : List Char}
    {lexeme : Lexeme} (found : lexeme? accepts (c :: cs) = some lexeme)
    (outside : ¬ (c = '/' ∧ cs.head? = some '/')) :
    endsInComment false false (c :: cs) =
      endsInComment false false ((c :: cs).drop lexeme.text.length) := by
  have lexed := lexed_of_lexeme? found
  obtain ⟨rest, whole⟩ := lexed.head
  rcases plain_of_lexed lexed with ⟨inner, plain, text⟩ | slash | ⟨noQuote, noSlash⟩
  · rw [← whole, List.drop_left, text, List.cons_append, List.cons_append, endsInComment,
      if_neg Bool.false_ne_true, if_pos rfl, List.append_assoc]
    exact endsInComment_string plain rest
  · rw [slash] at whole ⊢
    cases whole
    rw [endsInComment, if_neg Bool.false_ne_true, if_neg (by decide), if_neg Bool.false_ne_true,
      decide_eq_false outside]
    rfl
  · rw [← whole, List.drop_left, endsInComment_plain noQuote noSlash]

/-- A text is read on with what follows it. If the text ends in a comment, that takes its part of
what follows. -/
theorem Reading.append {b : Char} (stops : Stops b) {state mid final : State} {line there : Nat}
    {cs more after : List Char} (first : Reading state line cs mid)
    (goesOn : skip (endsInComment false false cs) (line + Text.newlines cs) (b :: more) =
      skip false there after)
    (second : Reading mid there after final) : Reading state line (cs ++ b :: more) final := by
  induction first with
  | @done state line here cs skipped =>
    have lines := newlines_skip false line cs
    rw [skipped] at lines
    have behind : here = line + Text.newlines cs := by simpa [Text.newlines] using lines
    apply second.of_skip
    rw [skip_through skipped, behind, goesOn]
  | @step state next mid line here cs rest c lexeme skipped found move tail ih =>
    have lines := newlines_skip false line cs
    have head := (lexed_of_lexeme? found).head
    have split := newlines_drop head
    rw [skipped] at lines
    have dropped : (c :: rest ++ b :: more).drop lexeme.text.length =
        (c :: rest).drop lexeme.text.length ++ b :: more :=
      List.drop_append_of_le_length head.length_le
    have same : here + Text.newlines lexeme.text +
        Text.newlines ((c :: rest).drop lexeme.text.length) = line + Text.newlines cs := by
      simp only at lines
      omega
    have comment : endsInComment false false cs =
        endsInComment false false ((c :: rest).drop lexeme.text.length) := by
      obtain ⟨left, outside⟩ := endsInComment_skip skipped
      rw [left, endsInComment_lexeme found outside]
    rw [comment, ← same] at goesOn
    have behind := ih goesOn second
    rw [← dropped] at behind
    exact .step (skip_before skipped stops.slash more) (stops.lexeme? found more) move behind

/-- A text is read on behind a line feed as the rest is from the state where the text ends. -/
theorem Reading.newline {state mid final : State} {line : Nat} {cs more : List Char}
    (first : Reading state line cs mid)
    (second : Reading mid (line + Text.newlines cs + 1) more final) :
    Reading state line (cs ++ '\n' :: more) final :=
  first.append (stops_of_blank (by decide)) (by rw [skip, if_pos rfl]) second

/-- A text that does not end in a comment is read on with a semicolon behind it. -/
theorem Reading.semicolon {state mid final : State} {line : Nat} {cs more : List Char}
    (first : Reading state line cs mid) (outside : endsInComment false false cs = false)
    (second : Reading mid (line + Text.newlines cs) (';' :: more) final) :
    Reading state line (cs ++ ';' :: more) final :=
  first.append stops_semicolon (by rw [outside]) second

/-- A comment at the end of a text takes the semicolon. -/
theorem Reading.comment {state mid : State} {line : Nat} {cs : List Char}
    (first : Reading state line cs mid) (inside : endsInComment false false cs = true) :
    Reading state line (cs ++ [';']) mid := by
  have skipped (here : Nat) : skip true here [';'] = skip false here [] := rfl
  exact first.append stops_semicolon (by rw [inside, skipped]) (.done rfl)

end TreeWalk.Source
