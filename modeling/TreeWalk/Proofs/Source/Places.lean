import TreeWalk.Proofs.Source.Concatenation
import TreeWalk.Proofs.Source.Refusal

/-!
Places of lexemes. The parser can tell where a lexeme stands by the number of characters before it
as well as by its line. It then takes the same lexemes and makes the same tree, with places in the
tokens; and the tree of a program is that tree with the line of each place.
-/

set_option autoImplicit false

namespace TreeWalk

/-- The token with the line of its place, where it has a place for its line. -/
def Token.lined (lineOf : Nat → Nat) (t : Token) : Token := { t with line := lineOf t.line.toNat }

def Program.lined (lineOf : Nat → Nat) : Program → Program :=
  Program.mapTokens (.lined lineOf) (.lined lineOf)

namespace Source

/-- A lexeme and the number of characters before it. -/
structure Located where
  lexeme : Lexeme
  place : Nat
  deriving DecidableEq, Repr

/-- Reads on from a state behind so many characters, with places for lines. It gives the lexemes
that were taken and the state where the text ends. -/
def locateFrom (state : State) (place : Nat) (cs : List Char) : Option (List Located × State) :=
  match _skipped : skip false 0 cs with
  | (_, []) => some ([], state)
  | (_, c :: rest) =>
    match _found : lexeme? state.slot.accepts (c :: rest) with
    | none => none
    | some lexeme =>
      match step state lexeme (place + (cs.length - (c :: rest).length)) with
      | none => none
      | some next =>
        (locateFrom next (place + (cs.length - (c :: rest).length) + lexeme.text.length)
            ((c :: rest).drop lexeme.text.length)).map fun (lexemes, final) =>
          (⟨lexeme, place + (cs.length - (c :: rest).length)⟩ :: lexemes, final)
termination_by cs.length
decreasing_by
  have shorter := length_skip_le false 0 cs
  rw [_skipped] at shorter
  have nonempty := List.length_pos_iff.2 (lexeme?_text_ne_nil _found)
  simp only [List.length_drop, List.length_cons] at shorter ⊢
  omega

/-- The lexemes of a program with their places, and its tree with places for lines. -/
structure Placement where
  lexemes : List Located
  tree : Program

def locate? (source : String) : Option Placement := do
  let (lexemes, final) ← locateFrom (.declaration ⟨[], []⟩) 0 source.toList
  let tree ← final.program?
  return ⟨lexemes, tree⟩

/-- The lexemes stand in the text at their places, and the tokens at places of lexemes. -/
structure Placement.Of (source : String) (placement : Placement) : Prop where
  lexemes : ∀ l ∈ placement.lexemes, l.lexeme.text <+: source.toList.drop l.place
  tokens : ∀ t ∈ placement.tree.tokens, ∃ l ∈ placement.lexemes, t.line = l.place

/-- The line of a place in a text. -/
def lineAt (cs : List Char) (place : Nat) : Nat := 1 + Text.newlines (cs.take place)

theorem newlines_append (cs cs' : List Char) :
    Text.newlines (cs ++ cs') = Text.newlines cs + Text.newlines cs' :=
  List.count_append

/-- The places of a text, which starts at a place and on a line, are on these lines. -/
def LinesOf (lineOf : Nat → Nat) (place line : Nat) (cs : List Char) : Prop :=
  ∀ front rest, cs = front ++ rest → lineOf (place + front.length) = line + Text.newlines front

theorem linesOf_lineAt (cs : List Char) : LinesOf (lineAt cs) 0 1 cs := by
  rintro front rest rfl
  rw [lineAt, Nat.zero_add, List.take_left]

theorem LinesOf.behind {lineOf : Nat → Nat} {place line : Nat} {front cs : List Char}
    (lines : LinesOf lineOf place line (front ++ cs)) :
    LinesOf lineOf (place + front.length) (line + Text.newlines front) cs := by
  rintro front' rest rfl
  have all := lines (front ++ front') rest (List.append_assoc _ _ _).symm
  rw [List.length_append, ← Nat.add_assoc] at all
  rw [all, newlines_append, Nat.add_assoc]

theorem relines_lined (lineOf : Nat → Nat) (place : Nat) :
    Relines (Token.lined lineOf) place (lineOf place) :=
  ⟨fun _ => rfl, fun _ => rfl, fun _ => rfl⟩

/-- The state with the lines of the places of its tokens. -/
def State.lined (lineOf : Nat → Nat) : State → State := State.mapTokens [] (.lined lineOf)

theorem slot_lined (lineOf : Nat → Nat) (state : State) : (state.lined lineOf).slot = state.slot :=
  slot_mapTokens [] _ state

theorem step_lined (lineOf : Nat → Nat) (state : State) (lexeme : Lexeme) (place : Nat) :
    step (state.lined lineOf) lexeme (lineOf place) =
      (step state lexeme place).map (State.lined lineOf) :=
  step_mapTokens (relines_lined lineOf place) state lexeme

theorem skip_from_zero {here : Nat} {cs kept : List Char}
    (skipped : skip false 0 cs = (here, kept)) :
    ∃ front, cs = front ++ kept ∧
      ∀ line, skip false line cs = (line + Text.newlines front, kept) := by
  obtain ⟨front, rfl, rfl⟩ := skip_front skipped
  refine ⟨front, rfl, fun line => ?_⟩
  rw [← Nat.zero_add line, skip_later, skipped, Nat.zero_add, Nat.zero_add, Nat.add_comm]

theorem places_ahead (place : Nat) (front kept : List Char) :
    place + ((front ++ kept).length - kept.length) = place + front.length := by
  rw [List.length_append]
  omega

/-- The parser takes these lexemes from a text that starts at a place, and comes to the state. -/
inductive Locating : State → Nat → List Char → List Located → State → Prop where
  | done {state : State} {place : Nat} {cs : List Char}
    (skipped : ∀ line, skip false line cs = (line + Text.newlines cs, [])) :
    Locating state place cs [] state
  | step {state next final : State} {place : Nat} {front text rest : List Char} {t : Terminal}
    {lexemes : List Located}
    (skipped : ∀ line, skip false line (front ++ (text ++ rest)) =
      (line + Text.newlines front, text ++ rest))
    (found : lexeme? state.slot.accepts (text ++ rest) = some ⟨t, text⟩)
    (stepped : Source.step state ⟨t, text⟩ (place + front.length) = some next)
    (tail : Locating next (place + front.length + text.length) rest lexemes final) :
    Locating state place (front ++ (text ++ rest)) (⟨⟨t, text⟩, place + front.length⟩ :: lexemes)
      final

theorem locating_of_locateFrom {state final : State} {place : Nat} {cs : List Char}
    {lexemes : List Located} (located : locateFrom state place cs = some (lexemes, final)) :
    Locating state place cs lexemes final := by
  fun_induction locateFrom state place cs generalizing lexemes with
  | case1 state place cs here skipped =>
    cases located
    obtain ⟨front, rfl, skipped'⟩ := skip_from_zero skipped
    rw [List.append_nil] at skipped' ⊢
    exact .done skipped'
  | case2 => cases located
  | case3 => cases located
  | case4 state place cs _ c rest skipped lexeme found next stepped ih =>
    obtain ⟨⟨lexemes', final'⟩, later, same⟩ := Option.map_eq_some_iff.1 located
    cases same
    obtain ⟨front, rfl, skipped'⟩ := skip_from_zero skipped
    obtain ⟨t, text⟩ := lexeme
    obtain ⟨tail, split⟩ := (lexed_of_lexeme? found).head
    have locating := ih later
    rw [places_ahead] at stepped locating ⊢
    rw [← split, List.drop_left] at locating
    rw [← split] at skipped' found ⊢
    exact .step skipped' found stepped locating

theorem Locating.lexeme_at {state final : State} {place : Nat} {cs : List Char}
    {lexemes : List Located} (locating : Locating state place cs lexemes final) :
    ∀ l ∈ lexemes, ∃ n, l.place = place + n ∧ l.lexeme.text <+: cs.drop n := by
  induction locating with
  | done => exact nofun
  | @step state next final place front text rest t lexemes _ _ _ _ ih =>
    rw [List.forall_mem_cons]
    constructor
    · refine ⟨front.length, rfl, ?_⟩
      rw [List.drop_left]
      exact List.prefix_append text rest
    · intro l member
      obtain ⟨n, at_place, head⟩ := ih l member
      refine ⟨front.length + (text.length + n), by omega, ?_⟩
      rwa [← List.drop_drop, List.drop_left, ← List.drop_drop, List.drop_left]

/-- The tokens of the state at the end have a property if those do that are made of the lexemes. -/
theorem Locating.each {P : Token → Prop} {state final : State} {place : Nat} {cs : List Char}
    {lexemes : List Located} (locating : Locating state place cs lexemes final)
    (made : ∀ l ∈ lexemes, ∀ kind text, P ⟨kind, text, l.place⟩)
    (each : ∀ t ∈ state.tokens, P t) : ∀ t ∈ final.tokens, P t := by
  induction locating with
  | done => exact each
  | step _ _ stepped _ ih =>
    rw [List.forall_mem_cons] at made
    exact ih made.2 ((move_of_step stepped).forall_tokens (made.1 _ _) (fun _ => made.1 _ _) each)

/-- A text that starts with a lexeme has a first character, and then the rest behind the lexeme. -/
theorem exists_cons_of_lexeme? {accepts : Terminal → Bool} {text rest : List Char} {t : Terminal}
    (found : lexeme? accepts (text ++ rest) = some ⟨t, text⟩) :
    ∃ c more, text ++ rest = c :: more ∧ (c :: more).drop text.length = rest := by
  obtain ⟨c, text', first⟩ := List.exists_cons_of_ne_nil (lexeme?_text_ne_nil found)
  have whole : text ++ rest = c :: (text' ++ rest) := by
    rw [show text = c :: text' from first, List.cons_append]
  refine ⟨c, text' ++ rest, whole, ?_⟩
  rw [← whole, List.drop_left]

theorem locateFrom_of_locating {state final : State} {place : Nat} {cs : List Char}
    {lexemes : List Located} (locating : Locating state place cs lexemes final) :
    locateFrom state place cs = some (lexemes, final) := by
  induction locating with
  | done skipped =>
    rw [locateFrom]
    split
    · rfl
    · next same =>
      rw [skipped] at same
      cases same
  | @step state next final place front text rest t lexemes skipped found stepped tail ih =>
    obtain ⟨c, more, whole, -⟩ := exists_cons_of_lexeme? found
    rw [locateFrom]
    split
    · next none =>
      rw [skipped, whole] at none
      cases none
    · next same =>
      rw [skipped, whole] at same
      cases same
      split
      · next missing =>
        rw [← whole, found] at missing
        cases missing
      · next lexeme found' =>
        rw [← whole, found] at found'
        cases found'
        rw [← whole, places_ahead, stepped]
        dsimp only
        rw [List.drop_left, ih]
        rfl

theorem Reading.take {state next final : State} {line here : Nat} {cs text rest : List Char}
    {t : Terminal} (skipped : skip false line cs = (here, text ++ rest))
    (found : lexeme? state.slot.accepts (text ++ rest) = some ⟨t, text⟩)
    (stepped : Source.step state ⟨t, text⟩ here = some next)
    (tail : Reading next (here + Text.newlines text) rest final) :
    Reading state line cs final := by
  obtain ⟨c, more, whole, behind⟩ := exists_cons_of_lexeme? found
  rw [whole] at skipped found
  rw [← behind] at tail
  exact .step skipped found (move_of_step stepped) tail

theorem Reading.take_lined {lineOf : Nat → Nat} {state next final : State} {line place : Nat}
    {cs text rest : List Char} {t : Terminal}
    (skipped : skip false line cs = (lineOf place, text ++ rest))
    (found : lexeme? state.slot.accepts (text ++ rest) = some ⟨t, text⟩)
    (stepped : Source.step state ⟨t, text⟩ place = some next)
    (tail : Reading (next.lined lineOf) (lineOf place + Text.newlines text) rest final) :
    Reading (state.lined lineOf) line cs final := by
  refine .take skipped (by rwa [slot_lined]) ?_ tail
  rw [step_lined, stepped]
  rfl

theorem Locating.reading {lineOf : Nat → Nat} {state final : State} {place line : Nat}
    {cs : List Char} {lexemes : List Located} (locating : Locating state place cs lexemes final)
    (lines : LinesOf lineOf place line cs) :
    Reading (state.lined lineOf) line cs (final.lined lineOf) := by
  induction locating generalizing line with
  | done skipped => exact .done (skipped line)
  | @step state next final place front text rest t lexemes skipped found stepped tail ih =>
    have here := lines front _ rfl
    refine .take_lined (by rw [skipped, here]) found stepped (ih ?_)
    rw [here]
    exact lines.behind.behind

theorem Reading.next {state final : State} {line here : Nat} {cs rest : List Char} {c : Char}
    (reading : Reading state line cs final) (skipped : skip false line cs = (here, c :: rest)) :
    ∃ lexeme next, lexeme? state.slot.accepts (c :: rest) = some lexeme ∧
      Source.step state lexeme here = some next ∧
      Reading next (here + Text.newlines lexeme.text) ((c :: rest).drop lexeme.text.length)
        final := by
  cases reading with
  | done empty =>
    rw [skipped] at empty
    cases empty
  | step same found move tail =>
    rw [skipped] at same
    cases same
    exact ⟨_, _, found, step_of_move move, tail⟩

/-- A text that is read with lines is read with places. -/
theorem exists_locateFrom {lineOf : Nat → Nat} {state final : State} {place line : Nat}
    {cs : List Char} (lines : LinesOf lineOf place line cs)
    (reading : Reading (state.lined lineOf) line cs final) :
    ∃ lexemes final', locateFrom state place cs = some (lexemes, final') ∧
      final = final'.lined lineOf := by
  -- Over the reading with places: where it has to stop, the reading with lines would have had to.
  fun_induction locateFrom state place cs generalizing line with
  | case1 state place cs _ skipped =>
    obtain ⟨front, -, skipped'⟩ := skip_from_zero skipped
    cases reading with
    | done => exact ⟨[], state, rfl, rfl⟩
    | step same =>
      rw [skipped'] at same
      cases same
  | case2 state place cs _ c rest skipped missing =>
    obtain ⟨front, -, skipped'⟩ := skip_from_zero skipped
    obtain ⟨lexeme, next, found, -⟩ := reading.next (skipped' line)
    rw [slot_lined, missing] at found
    cases found
  | case3 state place cs _ c rest skipped lexeme found stuck =>
    obtain ⟨front, rfl, skipped'⟩ := skip_from_zero skipped
    obtain ⟨lexeme', next, found', stepped, -⟩ := reading.next (skipped' line)
    rw [slot_lined, found] at found'
    cases found'
    rw [← lines front _ rfl, step_lined, ← places_ahead, stuck] at stepped
    cases stepped
  | case4 state place cs _ c rest skipped lexeme found next stepped ih =>
    obtain ⟨front, rfl, skipped'⟩ := skip_from_zero skipped
    obtain ⟨lexeme', next', found', stepped', tail⟩ := reading.next (skipped' line)
    rw [slot_lined, found] at found'
    cases found'
    rw [← lines front _ rfl, step_lined, ← places_ahead, stepped] at stepped'
    cases stepped'
    obtain ⟨behind, split⟩ := (lexed_of_lexeme? found).head
    rw [← split] at lines
    have behindLines := lines.behind.behind
    obtain ⟨lexemes, final', located, same⟩ :=
      ih (by rwa [places_ahead, ← split, List.drop_left]) tail
    exact ⟨_, final', by rw [located]; rfl, same⟩

theorem program?_lined (lineOf : Nat → Nat) (state : State) :
    (state.lined lineOf).program? = state.program?.map (Program.lined lineOf) :=
  program?_mapTokens state

theorem locate?_eq_some {source : String} {placement : Placement}
    (located : locate? source = some placement) :
    ∃ final, Locating (.declaration ⟨[], []⟩) 0 source.toList placement.lexemes final ∧
      final.program? = some placement.tree := by
  obtain ⟨⟨lexemes, final⟩, found, later⟩ := Option.bind_eq_some_iff.1 located
  obtain ⟨tree, complete, same⟩ := Option.bind_eq_some_iff.1 later
  cases same
  exact ⟨final, locating_of_locateFrom found, complete⟩

theorem placement_of_locate? {source : String} {placement : Placement}
    (located : locate? source = some placement) : placement.Of source := by
  obtain ⟨final, locating, complete⟩ := locate?_eq_some located
  constructor
  · intro l member
    obtain ⟨n, at_place, head⟩ := locating.lexeme_at l member
    rwa [at_place, Nat.zero_add]
  · show ∀ t ∈ placement.tree.tokens, _
    rw [tokens_of_program? complete]
    refine locating.each ?_ nofun
    intro l member _ _
    exact ⟨l, member, rfl⟩

/-- The tree of a program has the lines of the places that its tokens have. -/
theorem exists_placement {source : String} {p : Program} (parsed : parse source = .ok p) :
    ∃ placement, locate? source = some placement ∧
      p = placement.tree.lined (lineAt source.toList) := by
  obtain ⟨final, reading, complete⟩ := parse_eq_ok_iff.1 parsed
  have lines := linesOf_lineAt source.toList
  obtain ⟨lexemes, final', located, rfl⟩ :=
    @exists_locateFrom _ (.declaration ⟨[], []⟩) _ _ _ _ lines reading
  rw [program?_lined] at complete
  obtain ⟨tree, complete', rfl⟩ := Option.map_eq_some_iff.1 complete
  refine ⟨⟨lexemes, tree⟩, ?_, rfl⟩
  simp only [locate?, located, Option.bind_eq_bind, Option.bind_some, complete', Option.pure_def]

end Source

end TreeWalk
