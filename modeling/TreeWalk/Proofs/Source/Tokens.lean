import Mathlib
import TreeWalk.Proofs.Source.Moves
import TreeWalk.Proofs.Text.Digit

/-!
The plain reading of a text as lexemes: at each place the longest piece is taken, ten words are
reserved, and blanks and comments are left out. It knows nothing of the parser. Where the parser may
take the lexeme that comes next in this reading, it takes that one and no other.
-/

set_option autoImplicit false

namespace TreeWalk.Source

/-- The words that are no names. -/
def reserved : List String :=
  ["var", "print", "if", "else", "while", "true", "false", "null", "or", "and"]

/-- How the terminals are spelled. -/
inductive Spells : Terminal → List Char → Prop where
  | keyword (k : Keyword) : Spells (.keyword k) k.spelling.toList
  | operator (k : Kind) (sign : k ≠ .identifier) : Spells (.operator k) k.symbol.toList
  | mark (m : Mark) : Spells (.mark m) m.spelling.toList
  | whole {digits : List Char} (some_digits : digits ≠ [])
    (all : ∀ c ∈ digits, Text.isDigit c = true) : Spells .number digits
  | fraction {whole fraction : List Char} (some_whole : whole ≠ [])
    (all_whole : ∀ c ∈ whole, Text.isDigit c = true) (some_fraction : fraction ≠ [])
    (all_fraction : ∀ c ∈ fraction, Text.isDigit c = true) :
    Spells .number (whole ++ '.' :: fraction)
  | string {inner : List Char} (plain : '"' ∉ inner) : Spells .string ('"' :: inner ++ ['"'])
  | name {c : Char} {cs : List Char} (start : isNameStart c = true)
    (all : ∀ d ∈ cs, isNameChar d = true) (free : String.ofList (c :: cs) ∉ reserved) :
    Spells .name (c :: cs)

/-- What is left out: blanks, and comments, which end before the end of the line. -/
inductive Ignored : List Char → Prop where
  | blank {cs : List Char} (nonempty : cs ≠ []) (all : ∀ c ∈ cs, isSpace c = true) : Ignored cs
  | comment {cs : List Char} (one_line : '\n' ∉ cs) : Ignored ('/' :: '/' :: cs)

/-- What a text is made of. -/
def Piece (cs : List Char) : Prop := Ignored cs ∨ ∃ t, Spells t cs

/-- No piece at the head of the text is longer than the one before `rest`. -/
def Longest (text rest : List Char) : Prop :=
  ∀ longer, longer <+: text ++ rest → Piece longer → longer.length ≤ text.length

structure Placed where
  lexeme : Lexeme
  line : Nat

/-- The lexemes of a text whose first character stands on a line. -/
inductive Tokens : Nat → List Char → List Placed → Prop where
  | nil (line : Nat) : Tokens line [] []
  | ignore {line : Nat} {text rest : List Char} {ts : List Placed} (ignored : Ignored text)
    (longest : Longest text rest) (tail : Tokens (line + Text.newlines text) rest ts) :
    Tokens line (text ++ rest) ts
  | lexeme {line : Nat} {t : Terminal} {text rest : List Char} {ts : List Placed}
    (spells : Spells t text) (longest : Longest text rest)
    (tail : Tokens (line + Text.newlines text) rest ts) :
    Tokens line (text ++ rest) (⟨⟨t, text⟩, line⟩ :: ts)

theorem spells_of_mem_words : ∀ entry ∈ words, Spells entry.2 entry.1 := by
  simp only [words, List.map_cons, List.map_nil, List.cons_append, List.nil_append,
    List.forall_mem_cons, List.not_mem_nil, false_imp_iff, implies_true, and_true]
  refine ⟨.keyword _, .keyword _, .keyword _, .keyword _, .keyword _, .keyword _, .keyword _,
    .keyword _, .operator _ (by decide), .operator _ (by decide)⟩

theorem spells_of_mem_signs : ∀ entry ∈ signs, Spells entry.2 entry.1 := by
  simp only [signs, List.map_cons, List.map_nil, List.cons_append, List.nil_append,
    List.forall_mem_cons, List.not_mem_nil, false_imp_iff, implies_true, and_true]
  refine ⟨.operator _ (by decide), .operator _ (by decide), .operator _ (by decide),
    .operator _ (by decide), .operator _ (by decide), .operator _ (by decide),
    .operator _ (by decide), .operator _ (by decide), .operator _ (by decide),
    .operator _ (by decide), .operator _ (by decide), .mark _, .mark _, .mark _, .mark _, .mark _,
    .mark _⟩

theorem mem_words (k : Keyword) : (k.spelling.toList, Terminal.keyword k) ∈ words := by
  cases k <;> decide

theorem mem_words_or_signs (k : Kind) (sign : k ≠ .identifier) :
    (k.symbol.toList, Terminal.operator k) ∈ words ∨
      (k.symbol.toList, Terminal.operator k) ∈ signs := by
  cases k with
  | identifier => exact absurd rfl sign
  | and => exact .inl (by decide)
  | or => exact .inl (by decide)
  | _ => exact .inr (by decide)

theorem mem_signs (m : Mark) : (m.spelling.toList, Terminal.mark m) ∈ signs := by
  cases m <;> decide

theorem reserved_of_mem_words : ∀ entry ∈ words, String.ofList entry.1 ∈ reserved := by
  decide

theorem listed_of_mem_reserved :
    ∀ s ∈ reserved, (words.find? fun entry => entry.1 = s.toList).isSome = true := by
  decide

/-- A word is a name unless it is reserved, and then it is listed. -/
theorem piece_of_word {c : Char} {cs : List Char} (start : isNameStart c = true)
    (all : ∀ d ∈ cs, isNameChar d = true) : Piece (c :: cs) := by
  by_cases free : String.ofList (c :: cs) ∈ reserved
  · obtain ⟨entry, found⟩ := Option.isSome_iff_exists.1 (listed_of_mem_reserved _ free)
    have same := List.find?_some found
    rw [decide_eq_true_eq, String.toList_ofList] at same
    have spells := spells_of_mem_words entry (List.mem_of_find?_eq_some found)
    rw [same] at spells
    exact .inr ⟨_, spells⟩
  · exact .inr ⟨.name, .name start all free⟩

/-- No spelling in these tables begins a later one. -/
theorem words_pairwise : words.Pairwise fun first second => ¬ first.1 <+: second.1 := by
  decide

theorem signs_pairwise : signs.Pairwise fun first second => ¬ first.1 <+: second.1 := by
  decide

/-- Of a table, the longest spelling that begins the text is found, if it may stand there. -/
theorem spelled?_of_longest {accepts : Terminal → Bool} {table : List (List Char × Terminal)}
    {text rest : List Char} {t : Terminal} (listed : (text, t) ∈ table)
    (spellings : ∀ entry ∈ table, Spells entry.2 entry.1)
    (ordered : table.Pairwise fun first second => ¬ first.1 <+: second.1)
    (longest : Longest text rest) (accepted : accepts t = true) :
    spelled? accepts table (text ++ rest) = some ⟨t, text⟩ := by
  obtain ⟨before, after, split⟩ := List.append_of_mem listed
  have earlier : ∀ entry ∈ before, ¬ entry.1 <+: text := by
    intro entry member
    rw [split, List.pairwise_append] at ordered
    exact ordered.2.2 entry member (text, t) List.mem_cons_self
  have found : table.find? (fun entry => accepts entry.2 && entry.1.isPrefixOf (text ++ rest)) =
      some (text, t) := by
    rw [List.find?_eq_some_iff_append]
    refine ⟨by simp [accepted], before, after, split, ?_⟩
    intro entry member
    rw [Bool.not_eq_true', Bool.and_eq_false_iff]
    right
    rw [Bool.eq_false_iff]
    intro head
    have head := List.isPrefixOf_iff_prefix.1 head
    have spells := spellings entry (split ▸ List.mem_append_left _ member)
    have short := longest entry.1 head (.inr ⟨_, spells⟩)
    exact earlier entry member (List.prefix_of_prefix_length_le head ⟨rest, rfl⟩ short)
  rw [spelled?, found]
  rfl

theorem forall_ascii {P : Char → Prop} (h : ∀ n : Fin 128, P (Char.ofNat n)) {c : Char}
    (ascii : c.toNat < 128) : P c := by
  have holds := h ⟨c.toNat, ascii⟩
  rwa [Char.ofNat_toNat] at holds

theorem toNat_lt_of_isNameStart {c : Char} (h : isNameStart c = true) : c.toNat < 128 := by
  simp only [isNameStart, Char.isAlpha, Char.isUpper, Char.isLower, Bool.or_eq_true,
    Bool.and_eq_true, decide_eq_true_eq] at h
  rcases h with (upper | lower) | underscore
  · have := UInt32.le_iff_toNat_le.1 upper.2
    exact Nat.lt_of_le_of_lt this (by decide)
  · have := UInt32.le_iff_toNat_le.1 lower.2
    exact Nat.lt_of_le_of_lt this (by decide)
  · rw [underscore]
    decide

/-- A character that starts a word starts nothing else. -/
theorem nameStart_apart {c : Char} (h : isNameStart c = true) :
    Text.isDigit c = false ∧ c ≠ '"' ∧ isSpace c = false ∧ c ≠ '/' ∧ isNameChar c = true := by
  have ascii := toNat_lt_of_isNameStart h
  revert h
  exact @forall_ascii (fun c => isNameStart c = true → Text.isDigit c = false ∧ c ≠ '"' ∧
    isSpace c = false ∧ c ≠ '/' ∧ isNameChar c = true) (by decide) c ascii

theorem isSpace_of_isDigit {c : Char} (digit : Text.isDigit c = true) : isSpace c = false := by
  rw [Bool.eq_false_iff]
  intro space
  simp only [isSpace, Bool.or_eq_true, decide_eq_true_eq] at space
  rcases space with (((rfl | rfl) | rfl) | rfl) | rfl <;> exact absurd digit (by decide)

/-- The first character of a lexeme; a slash stands alone. -/
theorem head_of_spells {t : Terminal} {text : List Char} (h : Spells t text) :
    ∃ c cs, text = c :: cs ∧ isSpace c = false ∧ (c = '/' → cs = []) := by
  have digits {cs : List Char} (nonempty : cs ≠ []) (all : ∀ c ∈ cs, Text.isDigit c = true) :
      ∃ c tail, cs = c :: tail ∧ isSpace c = false ∧ c ≠ '/' := by
    cases cs with
    | nil => exact absurd rfl nonempty
    | cons c cs =>
      have digit := all c List.mem_cons_self
      refine ⟨c, cs, rfl, isSpace_of_isDigit digit, ?_⟩
      rintro rfl
      exact absurd digit (by decide)
  cases h with
  | keyword k => cases k <;> exact ⟨_, _, rfl, rfl, by decide⟩
  | operator k => cases k <;> exact ⟨_, _, rfl, rfl, by decide⟩
  | mark m => cases m <;> exact ⟨_, _, rfl, rfl, by decide⟩
  | whole nonempty all =>
    obtain ⟨c, cs, rfl, space, slash⟩ := digits nonempty all
    exact ⟨c, cs, rfl, space, fun same => absurd same slash⟩
  | fraction nonempty all =>
    obtain ⟨c, cs, rfl, space, slash⟩ := digits nonempty all
    exact ⟨c, _, rfl, space, fun same => absurd same slash⟩
  | string => exact ⟨_, _, rfl, rfl, fun same => absurd same (by decide)⟩
  | name start =>
    have apart := nameStart_apart start
    exact ⟨_, _, rfl, apart.2.2.1, fun same => absurd same apart.2.2.2.1⟩

theorem skip_blanks {blanks : List Char} (all : ∀ c ∈ blanks, isSpace c = true) (line : Nat)
    (rest : List Char) :
    skip false line (blanks ++ rest) = skip false (line + Text.newlines blanks) rest := by
  induction blanks generalizing line with
  | nil => rfl
  | cons c cs ih =>
    rw [List.forall_mem_cons] at all
    rw [List.cons_append, skip]
    by_cases feed : c = '\n'
    · rw [if_pos feed, ih all.2, feed, Text.newlines, Text.newlines, List.count_cons_self]
      congr 1
      omega
    · rw [if_neg feed, if_neg (by decide), if_pos all.1, ih all.2, Text.newlines, Text.newlines,
        List.count_cons_of_ne feed]

theorem skip_comment {cs : List Char} (one_line : '\n' ∉ cs) (line : Nat) (rest : List Char) :
    skip true line (cs ++ rest) = skip true line rest := by
  induction cs with
  | nil => rfl
  | cons c cs ih =>
    rw [List.mem_cons, not_or] at one_line
    rw [List.cons_append, skip, if_neg (Ne.symm one_line.1), if_pos rfl, ih one_line.2]

theorem skip_ignored {text rest : List Char} (ignored : Ignored text) (longest : Longest text rest)
    (line : Nat) :
    skip false line (text ++ rest) = skip false (line + Text.newlines text) rest := by
  cases ignored with
  | blank nonempty all => exact skip_blanks all line rest
  | @comment cs one_line =>
    -- The comment goes on to the end of its line, or it would not be the longest piece.
    have ends : skip true line rest = skip false line rest := by
      cases rest with
      | nil => rfl
      | cons c rest =>
        by_cases feed : c = '\n'
        · rw [skip, skip, if_pos feed, if_pos feed]
        · have longer : Piece ('/' :: '/' :: (cs ++ [c])) := by
            refine .inl (.comment ?_)
            rw [List.mem_append, List.mem_singleton, not_or]
            exact ⟨one_line, Ne.symm feed⟩
          have short := longest _ ⟨rest, by simp⟩ longer
          simp at short
    have lines : Text.newlines ('/' :: '/' :: cs) = 0 := by
      rw [Text.newlines, List.count_eq_zero]
      simpa using one_line
    rw [lines, Nat.add_zero, ← ends, ← skip_comment one_line line rest]
    simp [skip, isSpace]

theorem skip_spells {t : Terminal} {text rest : List Char} (spells : Spells t text)
    (longest : Longest text rest) (line : Nat) :
    skip false line (text ++ rest) = (line, text ++ rest) := by
  obtain ⟨c, cs, rfl, space, slash⟩ := head_of_spells spells
  have feed : c ≠ '\n' := by
    rintro rfl
    cases space
  have comment : ¬ (c = '/' ∧ (cs ++ rest).head? = some '/') := by
    rintro ⟨same, second⟩
    rw [slash same, List.nil_append] at second
    cases rest with
    | nil => cases second
    | cons d rest =>
      cases second
      have longer : Piece ['/', '/'] := .inl (.comment (by simp))
      have short := longest _ ⟨rest, by simp [same, slash same]⟩ longer
      simp [slash same] at short
  rw [List.cons_append, skip, if_neg feed, if_neg (by decide), space, if_neg (by decide),
    if_neg comment]

theorem spells_takeNumber {c : Char} {cs : List Char} (digit : Text.isDigit c = true) :
    Spells .number (takeNumber (c :: cs)) := by
  have some_whole : (c :: cs).takeWhile Text.isDigit ≠ [] := by
    rw [List.takeWhile_cons_of_pos digit]
    exact List.cons_ne_nil _ _
  have all (ds : List Char) : ∀ d ∈ ds.takeWhile Text.isDigit, Text.isDigit d = true :=
    fun d member => List.mem_takeWhile_imp member
  unfold takeNumber
  simp only
  split
  · next rest point =>
    split
    · exact .whole some_whole (all _)
    · next some_fraction =>
      rw [List.isEmpty_iff] at some_fraction
      exact .fraction some_whole (all _) some_fraction (all _)
  · exact .whole some_whole (all _)

theorem length_le_takeNumber {text cs : List Char} (spells : Spells .number text)
    (head : text <+: cs) : text.length ≤ (takeNumber cs).length := by
  obtain ⟨rest, rfl⟩ := head
  have whole_le {cs : List Char} : (cs.takeWhile Text.isDigit).length ≤ (takeNumber cs).length := by
    unfold takeNumber
    simp only
    split
    · split
      · exact Nat.le_refl _
      · rw [List.length_append]
        exact Nat.le_add_right _ _
    · exact Nat.le_refl _
  generalize same : Terminal.number = t at spells
  cases spells with
  | whole some_digits all =>
    refine Nat.le_trans ?_ whole_le
    rw [List.takeWhile_append_of_pos all, List.length_append]
    exact Nat.le_add_right _ _
  | @fraction whole fraction some_whole all_whole some_fraction all_fraction =>
    have point : Text.isDigit '.' = false := by decide
    have first : (whole ++ '.' :: (fraction ++ rest)).takeWhile Text.isDigit = whole := by
      rw [List.takeWhile_append_of_pos all_whole, List.takeWhile_cons_of_neg (by simp [point]),
        List.append_nil]
    have second : (whole ++ '.' :: (fraction ++ rest)).dropWhile Text.isDigit =
        '.' :: (fraction ++ rest) := by
      rw [List.dropWhile_append_of_pos all_whole, List.dropWhile_cons_of_neg (by simp [point])]
    have some_digits : fraction ++ rest.takeWhile Text.isDigit ≠ [] := by
      simp [some_fraction]
    rw [List.append_assoc, List.cons_append]
    simp only [takeNumber, first, second, List.takeWhile_append_of_pos all_fraction,
      List.isEmpty_iff, some_digits, if_false]
    simp only [List.length_append, List.length_cons]
    omega
  | keyword => cases same
  | operator => cases same
  | mark => cases same
  | string => cases same
  | name => cases same

theorem takeNumber_of_longest {text rest : List Char} (spells : Spells .number text)
    (longest : Longest text rest) {c : Char} {cs : List Char} (split : text ++ rest = c :: cs)
    (digit : Text.isDigit c = true) : takeNumber (text ++ rest) = text := by
  have taken := takeNumber_head (text ++ rest)
  have long := length_le_takeNumber spells ⟨rest, rfl⟩
  have short := longest _ taken (.inr ⟨.number, by
    rw [split]
    exact spells_takeNumber digit⟩)
  have same := List.prefix_of_prefix_length_le taken ⟨rest, rfl⟩ short
  exact same.eq_of_length (Nat.le_antisymm short long)

theorem takeWhile_of_longest {c : Char} {cs rest : List Char} (start : isNameStart c = true)
    (all : ∀ d ∈ cs, isNameChar d = true) (longest : Longest (c :: cs) rest) :
    (c :: cs ++ rest).takeWhile isNameChar = c :: cs := by
  have inside : ∀ d ∈ c :: cs, isNameChar d = true :=
    List.forall_mem_cons.2 ⟨(nameStart_apart start).2.2.2.2, all⟩
  rw [List.takeWhile_append_of_pos inside]
  cases rest with
  | nil => simp
  | cons d rest =>
    by_cases inner : isNameChar d = true
    · have longer : Piece (c :: (cs ++ [d])) := by
        apply piece_of_word start
        rw [List.forall_mem_append, List.forall_mem_singleton]
        exact ⟨all, inner⟩
      have short := longest _ ⟨rest, by simp⟩ longer
      simp at short
    · rw [List.takeWhile_cons_of_neg inner, List.append_nil]

theorem words_shape : ∀ entry ∈ words, (entry.1.head?.any isNameStart = true) ∧
    (entry.1.all isNameChar = true) ∧
      words.find? (fun other => other.1 = entry.1) = some entry := by
  decide

theorem signs_shape : ∀ entry ∈ signs, entry.1.head?.any (fun c =>
    !Text.isDigit c && c ≠ '"' && !isNameStart c) = true := by
  decide

theorem lexeme?_of_word {accepts : Terminal → Bool} {text rest : List Char} {t : Terminal}
    (listed : (text, t) ∈ words) (longest : Longest text rest) (accepted : accepts t = true) :
    lexeme? accepts (text ++ rest) = some ⟨t, text⟩ := by
  obtain ⟨start, all, found⟩ := words_shape _ listed
  have spelled := spelled?_of_longest listed spells_of_mem_words words_pairwise longest accepted
  cases text with
  | nil => cases start
  | cons c cs =>
    simp only [List.head?_cons, Option.any_some] at start
    have apart := nameStart_apart start
    have inside : ∀ d ∈ cs, isNameChar d = true := by
      simp only [List.all_cons, Bool.and_eq_true, List.all_eq_true] at all
      exact all.2
    have word := takeWhile_of_longest start inside longest
    rw [List.cons_append] at word spelled ⊢
    simp only [lexeme?, apart.1, apart.2.1, start, if_false, if_true, Bool.false_eq_true, word,
      spelled, wordTerminal, found, accepted]
    split <;> rfl

theorem lexeme?_of_sign {accepts : Terminal → Bool} {text rest : List Char} {t : Terminal}
    (listed : (text, t) ∈ signs) (longest : Longest text rest) (accepted : accepts t = true) :
    lexeme? accepts (text ++ rest) = some ⟨t, text⟩ := by
  have shape := signs_shape _ listed
  have spelled := spelled?_of_longest listed spells_of_mem_signs signs_pairwise longest accepted
  cases text with
  | nil => cases shape
  | cons c cs =>
    simp only [List.head?_cons, Option.any_some, Bool.and_eq_true, Bool.not_eq_true',
      decide_eq_true_eq] at shape
    obtain ⟨⟨digit, quote⟩, start⟩ := shape
    rw [List.cons_append] at spelled ⊢
    simp only [lexeme?, digit, quote, start, if_false, Bool.false_eq_true, spelled]

theorem lexeme?_of_number {accepts : Terminal → Bool} {text tail rest : List Char}
    (spells : Spells .number (text ++ tail)) (some_digits : text ≠ [])
    (all : ∀ c ∈ text, Text.isDigit c = true) (longest : Longest (text ++ tail) rest)
    (accepted : accepts .number = true) :
    lexeme? accepts (text ++ tail ++ rest) = some ⟨.number, text ++ tail⟩ := by
  cases text with
  | nil => exact absurd rfl some_digits
  | cons c cs =>
    have digit := all c List.mem_cons_self
    have taken := takeNumber_of_longest spells longest rfl digit
    rw [List.cons_append, List.cons_append] at taken ⊢
    simp only [lexeme?, digit, if_true, accepted, taken]

/-- Whatever else may stand at a place, the lexeme of the plain reading is taken there if it may
stand there too. -/
theorem lexeme?_of_longest {accepts : Terminal → Bool} {t : Terminal} {text rest : List Char}
    (spells : Spells t text) (longest : Longest text rest) (accepted : accepts t = true) :
    lexeme? accepts (text ++ rest) = some ⟨t, text⟩ := by
  cases spells with
  | keyword k => exact lexeme?_of_word (mem_words k) longest accepted
  | operator k sign =>
    rcases mem_words_or_signs k sign with word | sign
    · exact lexeme?_of_word word longest accepted
    · exact lexeme?_of_sign sign longest accepted
  | mark m => exact lexeme?_of_sign (mem_signs m) longest accepted
  | whole some_digits all =>
    have spells := Spells.whole some_digits all
    rw [← List.append_nil text] at spells longest ⊢
    exact lexeme?_of_number spells some_digits all longest accepted
  | fraction some_whole all_whole some_fraction all_fraction =>
    have spells := Spells.fraction some_whole all_whole some_fraction all_fraction
    exact lexeme?_of_number spells some_whole all_whole longest accepted
  | @string inner plain =>
    have taken := takeString?_eq_some_iff.2 ⟨inner, rest, rfl, plain, rfl⟩
    have digit : Text.isDigit '"' = false := by decide
    rw [List.append_assoc, List.cons_append, List.singleton_append]
    simp only [lexeme?, digit, Bool.false_eq_true, if_false, if_true, accepted, taken,
      Option.map_some]
  | @name c cs start all free =>
    have apart := nameStart_apart start
    have word := takeWhile_of_longest start all longest
    have unlisted : words.find? (fun entry => entry.1 = c :: cs) = none := by
      rw [List.find?_eq_none]
      intro entry member same
      rw [decide_eq_true_eq] at same
      exact free (same ▸ reserved_of_mem_words entry member)
    rw [List.cons_append] at word ⊢
    simp only [lexeme?, apart.1, apart.2.1, start, if_false, if_true, Bool.false_eq_true, word,
      accepted, wordTerminal, unlisted]

/-- How a plain reading goes on: it is at an end, or a lexeme comes behind what is skipped. -/
inductive Ahead (line : Nat) (cs : List Char) : List Placed → Prop where
  | finished (here : Nat) (skipped : skip false line cs = (here, [])) : Ahead line cs []
  | lexeme {here : Nat} {t : Terminal} {text rest : List Char} {ts : List Placed}
    (skipped : skip false line cs = (here, text ++ rest)) (spells : Spells t text)
    (longest : Longest text rest) (tail : Tokens (here + Text.newlines text) rest ts) :
    Ahead line cs (⟨⟨t, text⟩, here⟩ :: ts)

theorem Tokens.ahead {line : Nat} {cs : List Char} {ts : List Placed} (h : Tokens line cs ts) :
    Ahead line cs ts := by
  induction h with
  | nil line => exact .finished line rfl
  | @ignore line text rest ts ignored longest tail ih =>
    have skipped := skip_ignored ignored longest line
    cases ih with
    | finished here same => exact .finished here (skipped.trans same)
    | lexeme same spells longest more => exact .lexeme (skipped.trans same) spells longest more
  | @lexeme line t text rest ts spells longest tail ih =>
    exact .lexeme (skip_spells spells longest line) spells longest tail

/-- The parser takes lexemes one after the other. -/
inductive Runs : State → List Placed → State → Prop where
  | nil (state : State) : Runs state [] state
  | cons {state next final : State} {t : Placed} {ts : List Placed}
    (move : Move t.lexeme t.line state next) (tail : Runs next ts final) :
    Runs state (t :: ts) final

theorem Runs.append {first second third : State} {ts ts' : List Placed} (h : Runs first ts second)
    (h' : Runs second ts' third) : Runs first (ts ++ ts') third := by
  induction h with
  | nil => exact h'
  | cons move _ ih => exact .cons move (ih h')

/-- A run over the plain reading of a text is what the parser does with the text. -/
theorem parseFrom_of_runs {state final : State} {last line : Nat} {cs : List Char}
    {ts : List Placed} {p : Program} (tokens : Tokens line cs ts) (runs : Runs state ts final)
    (complete : final.program? = some p) : parseFrom state last line cs = .ok p := by
  induction runs generalizing last line cs with
  | nil state =>
    cases tokens.ahead with
    | finished here skipped => exact parseFrom_end skipped complete
  | @cons state next final t ts move tail ih =>
    cases tokens.ahead with
    | @lexeme here t text rest ts skipped spells longest more =>
      obtain ⟨c, cs', rfl, _⟩ := head_of_spells spells
      have found := lexeme?_of_longest spells longest move.accepted
      have stepped := step_of_move move
      have dropped : (c :: cs' ++ rest).drop (c :: cs').length = rest := List.drop_left
      calc
        parseFrom state last line cs =
            parseFrom next here (here + Text.newlines (c :: cs'))
              ((c :: cs' ++ rest).drop (c :: cs').length) := parseFrom_step skipped found stepped
        _ = parseFrom next here (here + Text.newlines (c :: cs')) rest := by rw [dropped]
        _ = .ok p := ih more complete

end TreeWalk.Source
