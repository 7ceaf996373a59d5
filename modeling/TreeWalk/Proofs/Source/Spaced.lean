import TreeWalk.Proofs.Source.Tokens

/-!
Lexemes with blanks between them. A lexeme ends at a blank, so the plain reading of a text in which
a blank follows every lexeme gives these lexemes back.
-/

set_option autoImplicit false

namespace TreeWalk.Source

def Keyword.lexeme (k : Keyword) : Lexeme := ⟨.keyword k, k.spelling.toList⟩
def Mark.lexeme (m : Mark) : Lexeme := ⟨.mark m, m.spelling.toList⟩
def signLexeme (k : Kind) : Lexeme := ⟨.operator k, k.symbol.toList⟩

/-- The text in which a blank follows every lexeme. -/
def spaced (lexemes : List Lexeme) : List Char := lexemes.flatMap fun l => l.text ++ [' ']

/-- The lexemes of such a text with their lines. -/
def placed : Nat → List Lexeme → List Placed
  | _, [] => []
  | line, l :: lexemes => ⟨l, line⟩ :: placed (line + Text.newlines l.text) lexemes

theorem no_blank_of_spells {t : Terminal} {text : List Char} (spells : Spells t text)
    (other : t ≠ .string) : ' ' ∉ text := by
  have digits {cs : List Char} (all : ∀ c ∈ cs, Text.isDigit c = true) : ' ' ∉ cs := by
    intro member
    exact absurd (all ' ' member) (by decide)
  cases spells with
  | keyword k => cases k <;> decide
  | operator k => cases k <;> decide
  | mark m => cases m <;> decide
  | whole _ all => exact digits all
  | fraction _ all_whole _ all_fraction =>
    simp [digits all_whole, digits all_fraction]
  | string => exact absurd rfl other
  | @name c cs start all =>
    rw [List.mem_cons, not_or]
    constructor
    · rintro rfl
      exact absurd start (by decide)
    · intro member
      exact absurd (all ' ' member) (by decide)

theorem string_of_spells {t : Terminal} {cs : List Char} (spells : Spells t ('"' :: cs)) :
    ∃ inner, '"' ∉ inner ∧ cs = inner ++ ['"'] := by
  have digits {ds tail : List Char} (nonempty : ds ≠ []) (all : ∀ c ∈ ds, Text.isDigit c = true) :
      '"' :: cs ≠ ds ++ tail := by
    cases ds with
    | nil => exact absurd rfl nonempty
    | cons d ds =>
      rintro ⟨⟩
      exact absurd (all '"' List.mem_cons_self) (by decide)
  generalize whole : '"' :: cs = text at spells
  cases spells with
  | keyword k => cases k <;> simp [Keyword.spelling] at whole
  | operator k => cases k <;> simp [Kind.symbol] at whole
  | mark m => cases m <;> simp [Mark.spelling] at whole
  | whole nonempty all => exact absurd (whole.trans (List.append_nil _).symm) (digits nonempty all)
  | fraction nonempty all => exact absurd whole (digits nonempty all)
  | @string inner plain =>
    cases whole
    exact ⟨inner, plain, rfl⟩
  | name start =>
    cases whole
    exact absurd start (by decide)

/-- No lexeme goes on behind another and a blank. -/
theorem not_spells_blank {t t' : Terminal} {text more : List Char} (spells : Spells t text) :
    ¬ Spells t' (text ++ ' ' :: more) := by
  intro longer
  by_cases quote : text.head? = some '"'
  · obtain ⟨cs, rfl⟩ := List.head?_eq_some_iff.1 quote
    obtain ⟨inner, plain, rfl⟩ := string_of_spells spells
    rw [List.cons_append] at longer
    obtain ⟨inner', plain', same⟩ := string_of_spells longer
    rw [List.append_assoc, List.singleton_append] at same
    have agree := congrArg (List.takeWhile (· ≠ '"')) same
    rw [takeWhile_quote plain, takeWhile_quote plain'] at agree
    rw [agree, List.append_cancel_left_eq] at same
    cases same
  · refine no_blank_of_spells longer ?_ (List.mem_append_right _ List.mem_cons_self)
    rintro rfl
    obtain ⟨c, cs, rfl, -, -⟩ := head_of_spells spells
    generalize whole : (c :: cs) ++ ' ' :: more = text' at longer
    generalize kind : Terminal.string = t' at longer
    cases longer with
    | keyword | operator | mark | whole | fraction | name => cases kind
    | string => exact quote (congrArg some (List.cons.inj whole).1)

theorem longest_of_blank {t : Terminal} {text : List Char} (spells : Spells t text)
    (rest : List Char) : Longest text (' ' :: rest) := by
  intro longer head piece
  by_contra short
  have inside : text <+: longer :=
    List.prefix_of_prefix_length_le ⟨_, rfl⟩ head (Nat.le_of_lt (Nat.not_le.1 short))
  obtain ⟨more, rfl⟩ := inside
  rw [List.prefix_append_right_inj] at head
  cases more with
  | nil => simp at short
  | cons d more =>
    obtain ⟨rfl, -⟩ := List.cons_prefix_cons.1 head
    rcases piece with ignored | ⟨t', longer⟩
    · obtain ⟨c, cs, rfl, space, slash⟩ := head_of_spells spells
      generalize whole : (c :: cs) ++ ' ' :: more = cs' at ignored
      cases ignored with
      | blank _ all =>
        rw [← whole] at all
        rw [all c List.mem_cons_self] at space
        cases space
      | comment =>
        rw [List.cons_append, List.cons.injEq] at whole
        rw [slash whole.1] at whole
        cases whole.2
    · exact not_spells_blank spells longer

/-- A single blank ends where the next lexeme starts. -/
theorem longest_blank {rest : List Char} (next : ∀ c ∈ rest.head?, isSpace c = false) :
    Longest [' '] rest := by
  intro longer head piece
  by_contra short
  have inside : [' '] <+: longer :=
    List.prefix_of_prefix_length_le ⟨_, rfl⟩ head (Nat.le_of_lt (Nat.not_le.1 short))
  obtain ⟨more, rfl⟩ := inside
  rw [List.prefix_append_right_inj] at head
  cases more with
  | nil => simp at short
  | cons d more =>
    obtain ⟨tail, rfl⟩ := head
    have inked : isSpace d = false := next d rfl
    rcases piece with ignored | ⟨t', longer⟩
    · generalize whole : [' '] ++ d :: more = cs' at ignored
      cases ignored with
      | blank _ all =>
        rw [← whole] at all
        rw [all d (by simp)] at inked
        cases inked
      | comment => cases whole
    · obtain ⟨c, cs, same, space, -⟩ := head_of_spells longer
      cases same
      cases space

theorem head?_spaced {lexemes : List Lexeme} (spells : ∀ l ∈ lexemes, Spells l.terminal l.text) :
    ∀ c ∈ (spaced lexemes).head?, isSpace c = false := by
  cases lexemes with
  | nil => simp [spaced]
  | cons l lexemes =>
    obtain ⟨c, cs, same, space, -⟩ := head_of_spells (spells l List.mem_cons_self)
    intro d first
    rw [spaced, List.flatMap_cons, same] at first
    cases first
    exact space

/-- The plain reading of a text in which a blank follows every lexeme. -/
theorem tokens_spaced {lexemes : List Lexeme}
    (spells : ∀ l ∈ lexemes, Spells l.terminal l.text) (line : Nat) :
    Tokens line (spaced lexemes) (placed line lexemes) := by
  induction lexemes generalizing line with
  | nil => exact .nil line
  | cons l lexemes ih =>
    have first := spells l List.mem_cons_self
    have later : ∀ l ∈ lexemes, Spells l.terminal l.text :=
      fun l member => spells l (List.mem_cons_of_mem _ member)
    have rest : Tokens (line + Text.newlines l.text) ([' '] ++ spaced lexemes)
        (placed (line + Text.newlines l.text) lexemes) :=
      .ignore (.blank (by decide) (List.all_eq_true.1 (by decide)))
        (longest_blank (head?_spaced later)) (ih later _)
    rw [spaced, List.flatMap_cons, List.append_assoc]
    exact .lexeme first (longest_of_blank first _) rest

end TreeWalk.Source
