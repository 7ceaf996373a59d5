import TreeWalk.Proofs.Source.Places

/-!
Layout does not matter. Where a lexeme starts, or where the text ends, more blanks and comments can
be put in, the first of them a blank: the lexeme before them ends there as it did, and what was
skipped before is skipped still. The parser takes the same lexemes and makes the same tree, with
those tokens further down that stand behind the new lines.
-/

set_option autoImplicit false

namespace TreeWalk.Source

/-- Blanks, and comments that a line feed ends. -/
inductive Gap : List Char → Prop where
  | nil : Gap []
  | blank {c : Char} {cs : List Char} (space : isSpace c = true) (tail : Gap cs) : Gap (c :: cs)
  | comment {text cs : List Char} (one_line : '\n' ∉ text) (tail : Gap cs) :
    Gap ('/' :: '/' :: text ++ '\n' :: cs)

/-- A comment ends with its line. -/
theorem skip_line {text : List Char} (one_line : '\n' ∉ text) (line : Nat) (rest : List Char) :
    skip true line (text ++ '\n' :: rest) = skip false (line + 1) rest := by
  rw [skip_comment one_line, skip, if_pos rfl]

theorem skip_slashes (line : Nat) (cs : List Char) :
    skip false line ('/' :: '/' :: cs) = skip true line cs := by
  simp [skip, isSpace]

theorem Gap.skip_append {gap : List Char} (h : Gap gap) (line : Nat) (rest : List Char) :
    skip false line (gap ++ rest) = skip false (line + Text.newlines gap) rest := by
  induction h generalizing line with
  | nil => rfl
  | @blank c cs space tail ih =>
    have first := skip_blanks (List.forall_mem_singleton.2 space) line (cs ++ rest)
    have lines := newlines_append [c] cs
    rw [List.singleton_append] at first lines
    rw [List.cons_append, first, ih, lines, Nat.add_assoc]
  | @comment text cs one_line tail ih =>
    have lines : Text.newlines ('/' :: '/' :: text ++ '\n' :: cs) = 1 + Text.newlines cs := by
      simp [Text.newlines, List.count_eq_zero.2 one_line, Nat.add_comm]
    rw [List.append_assoc, List.cons_append, List.cons_append, List.cons_append, skip_slashes,
      skip_line one_line, ih, lines, Nat.add_assoc]

/-- A gap at the end of a text is skipped inside of a comment too: the comment goes on in it to the
end of a line. -/
theorem Gap.skip_end {gap : List Char} (h : Gap gap) (inside : Bool) (line : Nat) :
    skip inside line gap = (line + Text.newlines gap, []) := by
  have all : (skip inside line gap).2 = [] := by
    induction h generalizing inside line with
    | nil => rw [skip]
    | @blank c cs space tail ih =>
      rw [skip]
      split
      · exact ih false _
      split
      · exact ih true _
      · exact ih false _
    | @comment text cs one_line tail ih =>
      cases inside with
      | false =>
        rw [List.cons_append, List.cons_append, skip_slashes, skip_line one_line]
        exact ih false _
      | true =>
        have longer : '\n' ∉ '/' :: '/' :: text := by simpa using one_line
        rw [skip_line longer]
        exact ih false _
  have lines := newlines_skip inside line gap
  rw [all] at lines
  exact Prod.ext lines all

theorem skip_true_ne (line here : Nat) (c : Char) (cs : List Char) :
    skip true line (c :: cs) ≠ (here, c :: cs) := by
  intro kept
  have shorter : (skip true line (c :: cs)).2.length ≤ cs.length := by
    rw [skip]
    split
    · exact length_skip_le false _ cs
    · exact length_skip_le true _ cs
  rw [kept, List.length_cons] at shorter
  omega

/-- A gap behind what is skipped is skipped with it. -/
theorem Gap.skip_insert {gap front after : List Char} (h : Gap gap) {line : Nat}
    (skipped : skip false line (front ++ after) = (line + Text.newlines front, after)) :
    skip false line (front ++ (gap ++ after)) = (line + Text.newlines (front ++ gap), after) := by
  have alone := @skip_of_append false line _ front [] after skipped
  rw [skip_through alone] at skipped ⊢
  rw [newlines_append, ← Nat.add_assoc]
  generalize endsInComment false false front = inside at skipped ⊢
  -- Only the end of the text can be inside of a comment: a lexeme that follows is outside.
  cases after with
  | nil =>
    rw [List.append_nil]
    exact h.skip_end inside _
  | cons c after =>
    cases inside with
    | false => rw [h.skip_append, skip_later, skipped]
    | true => exact absurd skipped (skip_true_ne _ _ c after)

/-- The parser comes to a lexeme before the gap as it does without it. -/
theorem skip_lexeme_before {line here : Nat} {ahead text front after : List Char} {b : Char}
    (space : isSpace b = true) (nonempty : text ≠ [])
    (skipped : skip false line (ahead ++ (text ++ (front ++ after))) =
      (here, text ++ (front ++ after))) (gap : List Char) :
    skip false line (ahead ++ (text ++ (front ++ (b :: gap ++ after)))) =
      (here, text ++ (front ++ (b :: gap ++ after))) := by
  have noSlash := (stops_of_blank (blank_of_space space)).slash
  obtain ⟨d, ds, rfl⟩ := List.exists_cons_of_ne_nil nonempty
  have joined (cs : List Char) : ahead ++ (d :: ds ++ (front ++ cs)) =
      ahead ++ (d :: (ds ++ front)) ++ cs := by simp
  have joined' (cs : List Char) : d :: ds ++ (front ++ cs) = d :: (ds ++ front) ++ cs := by simp
  rw [joined, joined'] at skipped ⊢
  exact skip_before (skip_of_append skipped) noSlash (gap ++ after)

theorem lexeme?_before {accepts : Terminal → Bool} {t : Terminal} {text front after : List Char}
    {b : Char} (space : isSpace b = true)
    (found : lexeme? accepts (text ++ (front ++ after)) = some ⟨t, text⟩) (gap : List Char) :
    lexeme? accepts (text ++ (front ++ (b :: gap ++ after))) = some ⟨t, text⟩ := by
  rw [← List.append_assoc] at found ⊢
  have alone := lexeme?_of_append found (List.prefix_append text front)
  obtain ⟨d, ds, same⟩ : ∃ d ds, text ++ front = d :: ds := by
    obtain ⟨d, ds, first⟩ := List.exists_cons_of_ne_nil (lexeme?_text_ne_nil found)
    exact ⟨d, ds ++ front, by rw [show text = d :: ds from first, List.cons_append]⟩
  rw [same] at alone ⊢
  exact lexeme?_stop alone space (gap ++ after)

/-- Where a lexeme is taken, the gap is right before it or somewhere behind it. -/
theorem Locating.split_at {next final : State} {place : Nat} {t : Terminal}
    {front after ahead text rest : List Char} {lexemes : List Located}
    (tail : Locating next (place + ahead.length + text.length) rest lexemes final)
    (whole : front ++ after = ahead ++ (text ++ rest))
    (boundary : after = [] ∨ ∃ l ∈ ⟨⟨t, text⟩, place + ahead.length⟩ :: lexemes,
      l.place = place + front.length) :
    front = ahead ∧ after = text ++ rest ∨
      ∃ front', front = ahead ++ (text ++ front') ∧ rest = front' ++ after ∧
        (after = [] ∨ ∃ l ∈ lexemes,
          l.place = place + ahead.length + text.length + front'.length) := by
  have behind (long : (ahead ++ text).length ≤ front.length) :
      ∃ front', front = ahead ++ (text ++ front') ∧ rest = front' ++ after := by
    rw [← List.append_assoc] at whole
    obtain ⟨front', rfl⟩ := List.prefix_of_prefix_length_le (List.prefix_append _ rest)
      ⟨after, whole⟩ long
    rw [List.append_assoc (ahead ++ text)] at whole
    exact ⟨front', List.append_assoc _ _ _, (List.append_cancel_left whole).symm⟩
  rcases boundary with rfl | ⟨l, member, at_front⟩
  · right
    have lengths := congrArg List.length whole
    simp only [List.length_append, List.length_nil] at lengths
    obtain ⟨front', split, left⟩ := behind (by rw [List.length_append]; omega)
    exact ⟨front', split, left, .inl rfl⟩
  · rcases List.mem_cons.1 member with rfl | later
    · left
      exact List.append_inj whole (Nat.add_left_cancel at_front).symm
    · right
      obtain ⟨n, at_place, -⟩ := tail.lexeme_at l later
      obtain ⟨front', rfl, left⟩ := behind (by rw [List.length_append]; omega)
      simp only [List.length_append] at at_front
      exact ⟨front', rfl, left, .inr ⟨l, later, by omega⟩⟩

/-- A text with a gap put in is read with the lines that its places have then. -/
theorem Locating.reading_insert {lineOf : Nat → Nat} {state final : State} {place line : Nat}
    {front after gap : List Char} {b : Char} {lexemes : List Located}
    (locating : Locating state place (front ++ after) lexemes final)
    (boundary : after = [] ∨ ∃ l ∈ lexemes, l.place = place + front.length)
    (space : isSpace b = true) (h : Gap gap)
    (before : ∀ front' rest, front = front' ++ rest → rest ≠ [] →
      lineOf (place + front'.length) = line + Text.newlines front')
    (behind : LinesOf lineOf (place + front.length)
      (line + Text.newlines (front ++ b :: gap)) after) :
    Reading (state.lined lineOf) line (front ++ (b :: gap ++ after)) (final.lined lineOf) := by
  generalize whole : front ++ after = cs at locating
  induction locating generalizing front line with
  | @done state place cs skipped =>
    obtain rfl : after = [] := boundary.resolve_right nofun
    subst whole
    have ends := skipped line
    rw [newlines_append, show Text.newlines [] = 0 from rfl, Nat.add_zero] at ends
    exact .done ((Gap.blank space h).skip_insert ends)
  | @step state next final place ahead text rest t lexemes skipped found stepped tail ih =>
    rcases tail.split_at whole boundary with ⟨rfl, rfl⟩ | ⟨front', rfl, rfl, boundary⟩
    · -- From here on the text is as it was, with all lines shifted.
      have here := behind [] _ rfl
      have skipped' := (Gap.blank space h).skip_insert (skipped line)
      rw [List.length_nil, Nat.add_zero] at here
      refine .take_lined (by rw [skipped', here]; rfl) found stepped (tail.reading ?_)
      rw [here]
      exact behind.behind
    · -- This lexeme is taken on the line that it had.
      have nonempty : text ≠ [] := lexeme?_text_ne_nil found
      have here := before ahead (text ++ front') rfl (by simp [nonempty])
      rw [List.append_assoc, List.append_assoc]
      refine .take_lined ?_ (lexeme?_before space found gap) stepped (ih ?_ ?_ ?_ rfl)
      · rw [skip_lexeme_before space nonempty (skipped line), here]
      · exact boundary
      · rintro front'' rest' rfl more
        have later := before (ahead ++ (text ++ front'')) rest' (by simp) more
        rw [here]
        simpa only [List.length_append, newlines_append, Nat.add_assoc] using later
      · rw [here]
        simpa only [List.length_append, newlines_append, Nat.add_assoc] using behind

/-- The lines of the places of a text when so many new lines are put in at a place. -/
def shifted (cs : List Char) (start lines place : Nat) : Nat :=
  lineAt cs place + if start ≤ place then lines else 0

theorem shifted_before {front rest after : List Char} (more : rest ≠ []) (lines : Nat) :
    shifted (front ++ rest ++ after) (front ++ rest).length lines front.length =
      1 + Text.newlines front := by
  have shorter : ¬ (front ++ rest).length ≤ front.length := by
    have := List.length_pos_iff.2 more
    rw [List.length_append]
    omega
  rw [shifted, if_neg shorter, List.append_assoc, lineAt, List.take_left, Nat.add_zero]

theorem linesOf_shifted (front gap after : List Char) :
    LinesOf (shifted (front ++ after) front.length (Text.newlines gap)) front.length
      (1 + Text.newlines (front ++ gap)) after := by
  rintro front' rest rfl
  rw [shifted, if_pos (Nat.le_add_right _ _), lineAt, ← List.append_assoc, ← List.length_append,
    List.take_left, newlines_append, newlines_append]
  omega

/-- Blanks and comments can be put in wherever a lexeme starts or the text ends: the tree of the
program stays as it is, and of its tokens those behind get as many lines more as were put in. -/
theorem parse_insert_gap {source : String} {p : Program} (parsed : parse source = .ok p) :
    ∃ placement, locate? source = some placement ∧ placement.Of source ∧
      p = placement.tree.lined (lineAt source.toList) ∧
      ∀ (before after : String) (b : Char) (gap : List Char), source = before ++ after →
        (after = "" ∨ ∃ l ∈ placement.lexemes, l.place = before.length) →
        isSpace b = true → Gap gap →
        parse (before ++ String.ofList (b :: gap) ++ after) =
          .ok (placement.tree.lined
            (shifted source.toList before.length (Text.newlines (b :: gap)))) := by
  obtain ⟨placement, located, lines⟩ := exists_placement parsed
  refine ⟨placement, located, placement_of_locate? located, lines, ?_⟩
  rintro before after b gap rfl boundary space h
  obtain ⟨final, locating, complete⟩ := locate?_eq_some located
  rw [String.toList_append] at locating ⊢
  rw [← String.length_toList] at boundary ⊢
  generalize shift :
    shifted (before.toList ++ after.toList) before.toList.length (Text.newlines (b :: gap)) =
      lineOf
  have reading : Reading (.lined lineOf (.declaration ⟨[], []⟩)) 1
      (before.toList ++ (b :: gap ++ after.toList)) (final.lined lineOf) := by
    apply locating.reading_insert (by simpa using boundary) space h
    · intro front rest split more
      rw [← shift, split, Nat.zero_add, shifted_before more]
    · rw [← shift, Nat.zero_add]
      exact linesOf_shifted _ _ _
  apply parse_eq_ok_iff.2
  refine ⟨final.lined lineOf, ?_, ?_⟩
  · rw [String.toList_append, String.toList_append, String.toList_ofList, List.append_assoc]
    exact reading
  · rw [program?_lined, complete]
    rfl

/-- A comment with an open quote is put in before a slash, and nothing but a line feed where the
text ends in a comment. -/
theorem parse_insert_gap_slash :
    let tree (line : Nat) : Program := ⟨[.print (.logical (.literal (.text "//"))
      (operatorToken .or 1) (.binary (.var (nameToken ['x'] 1)) (operatorToken .divide line)
        (.var (nameToken ['y'] line))))]⟩
    parse "print \"//\"orx\n/y;//" = .ok (tree 2) ∧
    parse ("print \"//\"orx\n" ++ String.ofList [' ', '/', '/', '"', '\n'] ++ "/y;//") =
      .ok (tree 3) ∧
    parse ("print \"//\"orx\n/y;//" ++ String.ofList ['\n'] ++ "") = .ok (tree 2) := by
  intro tree
  have parsed : parse "print \"//\"orx\n/y;//" = .ok (tree 2) := by cbv
  obtain ⟨placement, located, -, -, inserts⟩ := parse_insert_gap parsed
  have places : locate? "print \"//\"orx\n/y;//" = some
      { lexemes :=
          [⟨⟨.keyword .print, "print".toList⟩, 0⟩, ⟨⟨.string, "\"//\"".toList⟩, 6⟩,
            ⟨⟨.operator .or, "or".toList⟩, 10⟩, ⟨⟨.name, ['x']⟩, 12⟩,
            ⟨⟨.operator .divide, ['/']⟩, 14⟩, ⟨⟨.name, ['y']⟩, 15⟩, ⟨⟨.mark .semicolon, [';']⟩, 16⟩]
        tree := ⟨[.print (.logical (.literal (.text "//")) (operatorToken .or 10)
          (.binary (.var (nameToken ['x'] 12)) (operatorToken .divide 14)
            (.var (nameToken ['y'] 15))))]⟩ } := by cbv
  rw [located] at places
  cases places
  have slash := inserts "print \"//\"orx\n" "/y;//" ' ' ['/', '/', '"', '\n'] rfl
    (.inr ⟨⟨⟨.operator .divide, ['/']⟩, 14⟩, by decide, rfl⟩) rfl
    (@Gap.comment ['"'] [] (by decide) .nil)
  have ends := inserts "print \"//\"orx\n/y;//" "" '\n' [] rfl (.inl rfl) rfl .nil
  exact ⟨parsed, slash, ends⟩

end TreeWalk.Source
