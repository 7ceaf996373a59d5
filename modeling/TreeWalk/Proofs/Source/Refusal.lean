import TreeWalk.Proofs.Source.Reading
import TreeWalk.Proofs.Source.Tokens

/-!
Where a text is refused. The parser comes to a place in the text at which it cannot go on, and its
error is about what stands there. The text in front of that place is read by itself, to the state in
which the parser gave up: what was skipped and taken there does not depend on what follows.
-/

set_option autoImplicit false

namespace TreeWalk.Source

theorem skip_suffix (comment : Bool) (line : Nat) (cs : List Char) :
    (skip comment line cs).2 <:+ cs := by
  fun_induction skip comment line cs with
  | case1 => exact List.suffix_refl _
  | case2 _ _ cs ih | case3 _ _ cs _ ih | case4 _ _ _ cs _ _ _ ih | case5 _ _ _ cs _ _ _ _ ih =>
    exact ih.trans (List.suffix_cons _ cs)
  | case6 => exact List.suffix_refl _

/-- The same is skipped of a text that is cut off behind it. -/
theorem skip_of_append {comment : Bool} {line here : Nat} {cs kept after : List Char}
    (skipped : skip comment line (cs ++ after) = (here, kept ++ after)) :
    skip comment line cs = (here, kept) := by
  have rest : (skip comment line cs).2 = kept := by
    replace skipped := congrArg Prod.snd skipped
    fun_induction skip comment line cs with
    | case1 comment line =>
      have shorter := length_skip_le comment line after
      rw [List.nil_append] at skipped
      rw [skipped, List.length_append] at shorter
      exact (List.eq_nil_of_length_eq_zero (by omega)).symm
    | case2 comment line cs ih =>
      rw [List.cons_append, skip, if_pos rfl] at skipped
      exact ih skipped
    | case3 line c cs other ih =>
      rw [List.cons_append, skip, if_neg other, if_pos rfl] at skipped
      exact ih skipped
    | case4 comment line c cs other outside space ih =>
      rw [List.cons_append, skip, if_neg other, if_neg outside, if_pos space] at skipped
      exact ih skipped
    | case5 comment line c cs other outside space slashes ih =>
      have still : c = '/' ∧ (cs ++ after).head? = some '/' := by
        refine ⟨slashes.1, ?_⟩
        rw [List.head?_append, slashes.2]
        rfl
      rw [List.cons_append, skip, if_neg other, if_neg outside, if_neg space, if_pos still]
        at skipped
      exact ih skipped
    | case6 comment line c cs other outside space slashes =>
      rw [List.cons_append, skip, if_neg other, if_neg outside, if_neg space] at skipped
      split at skipped
      · next still =>
        -- The text is cut off between the slashes of a comment, and the comment goes on behind it.
        cases cs with
        | cons d cs => exact absurd still slashes
        | nil =>
          obtain ⟨after', rfl⟩ := List.head?_eq_some_iff.1 still.2
          have shorter := length_skip_le true line after'
          rw [List.nil_append, skip, if_neg (by decide), if_pos rfl] at skipped
          rw [skipped, List.length_append, List.length_cons] at shorter
          omega
      · exact List.append_cancel_right skipped
  have lines := newlines_skip comment line cs
  have lines' := newlines_skip comment line (cs ++ after)
  rw [skipped] at lines'
  rw [rest] at lines
  simp only [Text.newlines, List.count_append] at lines lines'
  exact Prod.ext (by dsimp only; omega) rest

theorem skip_front {line here : Nat} {cs kept : List Char}
    (skipped : skip false line cs = (here, kept)) :
    ∃ front, cs = front ++ kept ∧ here = line + Text.newlines front := by
  have suffix := skip_suffix false line cs
  have lines := newlines_skip false line cs
  rw [skipped] at suffix lines
  obtain ⟨front, rfl⟩ := suffix
  refine ⟨front, rfl, ?_⟩
  simp only [Text.newlines, List.count_append] at lines ⊢
  omega

theorem takeNumber_of_append {c : Char} {cs more : List Char} (digit : Text.isDigit c = true)
    (head : takeNumber (c :: cs ++ more) <+: c :: cs) :
    takeNumber (c :: cs ++ more) = takeNumber (c :: cs) := by
  have long := length_le_takeNumber (@spells_takeNumber c (cs ++ more) digit) head
  have short := length_le_takeNumber (@spells_takeNumber c cs digit)
    ((takeNumber_head _).trans (List.prefix_append _ more))
  exact (List.prefix_of_prefix_length_le head (takeNumber_head _) long).eq_of_length
    (Nat.le_antisymm long short)

theorem takeWhile_of_append {p : Char → Bool} {cs more : List Char}
    (head : (cs ++ more).takeWhile p <+: cs) : (cs ++ more).takeWhile p = cs.takeWhile p := by
  rw [List.takeWhile_append] at head ⊢
  split
  · next whole =>
    rw [if_pos whole] at head
    have shorter := head.length_le
    rw [List.length_append] at shorter
    rw [List.eq_nil_of_length_eq_zero (by omega : (more.takeWhile p).length = 0), List.append_nil]
    have front : cs.takeWhile p <+: cs := List.takeWhile_prefix p
    exact (front.eq_of_length whole).symm
  · rfl

theorem takeString?_of_append {cs more text : List Char}
    (taken : takeString? ('"' :: cs ++ more) = some text) (head : text <+: '"' :: cs) :
    takeString? ('"' :: cs) = some text := by
  obtain ⟨inner, rest, split, plain, rfl⟩ := takeString?_eq_some_iff.1 taken
  rw [List.cons_append, List.cons_prefix_cons] at head
  obtain ⟨tail, rfl⟩ := head.2
  exact takeString?_eq_some_iff.2 ⟨inner, tail, by simp, plain, rfl⟩

theorem spelled?_of_append {accepts : Terminal → Bool} {table : List (List Char × Terminal)}
    {cs more : List Char} {lexeme : Lexeme}
    (found : spelled? accepts table (cs ++ more) = some lexeme) (head : lexeme.text <+: cs) :
    spelled? accepts table cs = some lexeme := by
  obtain ⟨entry, first, rfl⟩ := Option.map_eq_some_iff.1 found
  rw [List.find?_eq_some_iff_append] at first
  obtain ⟨holds, before, after, split, earlier⟩ := first
  rw [spelled?, Option.map_eq_some_iff]
  refine ⟨entry, List.find?_eq_some_iff_append.2 ⟨?_, before, after, split, ?_⟩, rfl⟩
  · rw [Bool.and_eq_true] at holds ⊢
    exact ⟨holds.1, List.isPrefixOf_iff_prefix.2 head⟩
  · intro other member
    have none := earlier other member
    simp only [Bool.not_and, Bool.or_eq_true, Bool.not_eq_true'] at none ⊢
    refine none.imp_right fun absent => ?_
    rw [Bool.eq_false_iff] at absent ⊢
    intro begins
    have front := List.isPrefixOf_iff_prefix.1 begins
    have longer := front.trans (List.prefix_append cs more)
    exact absent <| List.isPrefixOf_iff_prefix.2 longer

theorem lexeme?_of_append {accepts : Terminal → Bool} {cs more : List Char} {lexeme : Lexeme}
    (found : lexeme? accepts (cs ++ more) = some lexeme) (head : lexeme.text <+: cs) :
    lexeme? accepts cs = some lexeme := by
  cases cs with
  | nil => exact absurd (List.prefix_nil.1 head) (lexeme?_text_ne_nil found)
  | cons c cs =>
    rw [List.cons_append] at found
    unfold lexeme? at found ⊢
    dsimp only at found ⊢
    split at found
    · next digit =>
      rw [if_pos digit]
      split at found
      · next accepted =>
        cases found
        have same := takeNumber_of_append digit head
        rw [List.cons_append] at same
        rw [if_pos accepted, same]
      · cases found
    · next digit =>
      rw [if_neg digit]
      split at found
      · next quote =>
        subst quote
        rw [if_pos rfl]
        split at found
        · next accepted =>
          obtain ⟨text, taken, rfl⟩ := Option.map_eq_some_iff.1 found
          rw [if_pos accepted, takeString?_of_append taken head, Option.map_some]
        · cases found
      · next quote =>
        rw [if_neg quote]
        split at found
        · next start =>
          rw [if_pos start]
          split at found
          · next accepted =>
            cases found
            have same := @takeWhile_of_append isNameChar (c :: cs) more head
            rw [List.cons_append] at same
            rw [if_pos accepted, same]
          · next other =>
            rw [if_neg other]
            exact spelled?_of_append found head
        · next start =>
          rw [if_neg start]
          exact spelled?_of_append found head

/-- Reading a text from a state, with the lexeme before it on the line `last`, the parser cannot go
on at the head of `rest`. -/
inductive Refusal : State → Nat → Nat → List Char → List Char → SyntaxError → Prop where
  | atEnd {state : State} {last line here : Nat} {cs : List Char}
    (skipped : skip false line cs = (here, [])) (incomplete : state.program? = none) :
    Refusal state last line cs [] (.unexpectedEnd last)
  | unread {state : State} {last line here : Nat} {cs rest : List Char} {c : Char}
    (skipped : skip false line cs = (here, c :: rest))
    (missing : lexeme? state.slot.accepts (c :: rest) = none) :
    Refusal state last line cs (c :: rest) (misplaced c rest here)
  | unmoved {state : State} {last line here : Nat} {cs rest : List Char} {c : Char}
    {lexeme : Lexeme} (skipped : skip false line cs = (here, c :: rest))
    (found : lexeme? state.slot.accepts (c :: rest) = some lexeme)
    (stuck : step state lexeme here = none) :
    Refusal state last line cs (c :: rest) (.unexpectedToken (String.ofList lexeme.text) here)
  | later {state next : State} {last line here : Nat} {cs rest rest' : List Char} {c : Char}
    {lexeme : Lexeme} {e : SyntaxError} (skipped : skip false line cs = (here, c :: rest))
    (found : lexeme? state.slot.accepts (c :: rest) = some lexeme)
    (move : Move lexeme here state next)
    (tail : Refusal next here (here + Text.newlines lexeme.text)
      ((c :: rest).drop lexeme.text.length) rest' e) :
    Refusal state last line cs rest' e

theorem refusal_of_parseFrom {state : State} {last line : Nat} {cs : List Char} {e : SyntaxError}
    (h : parseFrom state last line cs = .error e) : ∃ rest, Refusal state last line cs rest e := by
  fun_induction parseFrom state last line cs with
  | case1 => cases h
  | case2 state last line cs here empty incomplete =>
    cases h
    exact ⟨[], .atEnd empty incomplete⟩
  | case3 state last line cs here c rest skipped missing =>
    cases h
    exact ⟨c :: rest, .unread skipped missing⟩
  | case4 state last line cs here c rest skipped lexeme found stuck =>
    cases h
    exact ⟨c :: rest, .unmoved skipped found stuck⟩
  | case5 state last line cs here c rest skipped lexeme found next stepped ih =>
    obtain ⟨rest', refusal⟩ := ih h
    exact ⟨rest', .later skipped found (move_of_step stepped) refusal⟩

/-- The error is about what stands at the head of the rest, which starts on the line. -/
def SyntaxError.StandsAt (line : Nat) (rest : List Char) : SyntaxError → Prop
  | .unexpectedEnd _ => rest = []
  | .unexpectedToken text here => text ≠ "" ∧ text.toList <+: rest ∧ here = line
  | .unexpectedCharacter c here => rest.head? = some c ∧ here = line

theorem standsAt_of_lexeme? {accepts : Terminal → Bool} {cs : List Char} {lexeme : Lexeme}
    (found : lexeme? accepts cs = some lexeme) (line : Nat) :
    (SyntaxError.unexpectedToken (String.ofList lexeme.text) line).StandsAt line cs := by
  refine ⟨?_, ?_, rfl⟩
  · intro empty
    exact lexeme?_text_ne_nil found (String.ofList_eq_empty_iff.1 empty)
  · rw [String.toList_ofList]
    exact (lexed_of_lexeme? found).head

theorem standsAt_misplaced (c : Char) (rest : List Char) (line : Nat) :
    (misplaced c rest line).StandsAt line (c :: rest) := by
  unfold misplaced
  split
  · next found => exact standsAt_of_lexeme? found line
  · exact ⟨rfl, rfl⟩

/-- The text in front of a refusal is read by itself. -/
theorem Refusal.reading {state : State} {last line : Nat} {cs rest : List Char} {e : SyntaxError}
    (refusal : Refusal state last line cs rest e) :
    ∃ before mid, cs = before ++ rest ∧ Reading state line before mid ∧
      e.StandsAt (line + Text.newlines before) rest := by
  induction refusal with
  | @atEnd state last line here cs skipped =>
    exact ⟨cs, state, (List.append_nil cs).symm, .done skipped, rfl⟩
  | @unread state last line here cs rest c skipped missing =>
    obtain ⟨front, rfl, rfl⟩ := skip_front skipped
    exact ⟨front, state, rfl, .done (@skip_of_append false line _ front [] _ skipped),
      standsAt_misplaced c rest _⟩
  | @unmoved state last line here cs rest c lexeme skipped found stuck =>
    obtain ⟨front, rfl, rfl⟩ := skip_front skipped
    exact ⟨front, state, rfl, .done (@skip_of_append false line _ front [] _ skipped),
      standsAt_of_lexeme? found _⟩
  | @later state next last line here cs rest rest' c lexeme e skipped found move _ ih =>
    obtain ⟨before, mid, dropped, reading, stands⟩ := ih
    obtain ⟨front, rfl, rfl⟩ := skip_front skipped
    -- The lexeme and what was read behind it, in front of the refusal.
    have split : c :: rest = lexeme.text ++ before ++ rest' := by
      rw [List.append_assoc, ← dropped]
      exact (List.prefix_iff_eq_append.1 (lexed_of_lexeme? found).head).symm
    rw [split] at skipped found ⊢
    have taken := lexeme?_of_append found (List.prefix_append _ _)
    rw [← List.append_assoc] at skipped
    have near := skip_of_append skipped
    obtain ⟨d, ds, first⟩ := List.exists_cons_of_ne_nil (lexeme?_text_ne_nil found)
    have whole : lexeme.text ++ before = d :: (ds ++ before) := by rw [first, List.cons_append]
    refine ⟨front ++ (lexeme.text ++ before), mid, (List.append_assoc _ _ _).symm, ?_, ?_⟩
    · have behind : (lexeme.text ++ before).drop lexeme.text.length = before := List.drop_left
      rw [← behind, whole] at reading
      rw [whole] at near taken ⊢
      exact .step near taken move reading
    · rw [Text.newlines, List.count_append, List.count_append, ← Nat.add_assoc, ← Nat.add_assoc]
      exact stands

end TreeWalk.Source
