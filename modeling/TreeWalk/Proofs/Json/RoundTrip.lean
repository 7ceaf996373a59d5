import TreeWalk.Proofs.Json.Number

/-!
Documents that are written and read again. Reading a written value leaves the stack as it was, so
a document is read as the value it was made from, if no integer in it is too long for the reader, no
object has a key twice, no text holds half of a pair and it is no deeper than may be.
-/

set_option autoImplicit false

namespace TreeWalk.Json

theorem hexFour?_hex : ∀ n : Fin 0x20, hexFour? (Text.hex 4 n) = some n.val := by
  decide

theorem hexFour?_append {cs : List Char} (four : cs.length = 4) (rest : List Char) :
    hexFour? (cs ++ rest) = hexFour? cs := by
  match cs, four with
  | [a, b, c, d], _ => rfl

theorem length_hex (width n : Nat) : (Text.hex width n).length = width := by
  induction width generalizing n with
  | zero => rfl
  | succ width ih => rw [Text.hex, List.length_append, ih, List.length_singleton]

/-- A control character is read from its number; the string goes on after it. -/
theorem unicodeEscape_hex {c : Char} (control : c.toNat < 0x20) {rest : List Char}
    (more : rest ≠ []) : unicodeEscape (Text.hex 4 c.toNat ++ rest) = .ok (.char c, 4) := by
  have length := length_hex 4 c.toNat
  have long : ¬ (Text.hex 4 c.toNat ++ rest).length < 5 := by
    have := List.length_pos_of_ne_nil more
    rw [List.length_append, length]
    omega
  have value : hexFour? (Text.hex 4 c.toNat ++ rest) = some c.toNat := by
    rw [hexFour?_append length]
    exact hexFour?_hex ⟨c.toNat, control⟩
  have high : isHighSurrogate c.toNat = false := by
    simp only [isHighSurrogate, Bool.and_eq_false_iff, decide_eq_false_iff_not]
    omega
  have char : CodePoint.ofUnit c.toNat = .char c := by
    have below : ¬ (c.toNat - CodePoint.firstHalf < 0x800 ∧ CodePoint.firstHalf ≤ c.toNat) := by
      unfold CodePoint.firstHalf
      omega
    rw [CodePoint.ofUnit, dif_neg below, Char.ofNat_toNat]
  unfold unicodeEscape
  rw [if_neg long, value]
  simp only [high, Bool.false_eq_true, false_and, if_false, char]
  split <;> rfl

section

variable {start : Nat} {c e : Char} {cs rest : List Char} {tail : Text}

theorem readChars_plainEscape (h : readChars start cs = .ok (tail, rest))
    (letter : plainEscape? e = some c) (other : e ≠ 'u') :
    readChars start ('\\' :: e :: cs) = .ok (.char c :: tail, rest) := by
  simp [readChars, letter, other, h]

theorem readChars_unicodeEscape (h : readChars start cs = .ok (tail, rest))
    (control : c.toNat < 0x20) :
    readChars start ('\\' :: 'u' :: (Text.hex 4 c.toNat ++ cs)) = .ok (.char c :: tail, rest) := by
  have more : cs ≠ [] := by
    intro empty
    rw [empty, readChars] at h
    cases h
  have dropped : (Text.hex 4 c.toNat ++ cs).drop 4 = cs := List.drop_left' (length_hex 4 c.toNat)
  rw [readChars]
  simp only [Char.reduceEq, if_false, if_true, unicodeEscape_hex control more, dropped, h]

theorem readChars_plain (h : readChars start cs = .ok (tail, rest)) (quote : c ≠ '"')
    (backslash : c ≠ '\\') (printable : ¬ c.toNat < 0x20) :
    readChars start (c :: cs) = .ok (.char c :: tail, rest) := by
  unfold readChars
  simp only [quote, backslash, printable, if_false, h]

theorem escapeChar_cases (c : Char) :
    (∃ e, plainEscape? e = some c ∧ e ≠ 'u' ∧ escapeChar c = ['\\', e]) ∨
    (c.toNat < 0x20 ∧ escapeChar c = '\\' :: 'u' :: Text.hex 4 c.toNat) ∨
    (c ≠ '"' ∧ c ≠ '\\' ∧ ¬ c.toNat < 0x20 ∧ escapeChar c = [c]) := by
  unfold escapeChar
  split
  · next same => exact .inl ⟨'"', by rw [same]; rfl, by decide, rfl⟩
  split
  · next same => exact .inl ⟨'\\', by rw [same]; rfl, by decide, rfl⟩
  split
  · next same => exact .inl ⟨'n', by rw [same]; rfl, by decide, rfl⟩
  split
  · next same => exact .inl ⟨'r', by rw [same]; rfl, by decide, rfl⟩
  split
  · next same => exact .inl ⟨'t', by rw [same]; rfl, by decide, rfl⟩
  split
  · next same => exact .inl ⟨'f', by rw [same]; rfl, by decide, rfl⟩
  split
  · next same => exact .inl ⟨'b', by rw [same]; rfl, by decide, rfl⟩
  split
  · next control => exact .inr (.inl ⟨control, rfl⟩)
  · next quote backslash _ _ _ _ _ printable =>
    exact .inr (.inr ⟨quote, backslash, printable, rfl⟩)

/-- The reading of a string goes on behind one written character. -/
theorem readChars_escapeChar (h : readChars start cs = .ok (tail, rest)) (c : Char) :
    readChars start (escapeChar c ++ cs) = .ok (.char c :: tail, rest) := by
  rcases escapeChar_cases c with ⟨e, letter, other, written⟩ | ⟨control, written⟩ |
    ⟨quote, backslash, printable, written⟩
  · rw [written]
    exact readChars_plainEscape h letter other
  · rw [written]
    exact readChars_unicodeEscape h control
  · rw [written]
    exact readChars_plain h quote backslash printable

end

theorem readChars_escaped (start : Nat) {s : Text} (whole : s.encodable = true)
    (rest : List Char) :
    readChars start (s.flatMap escapePoint ++ '"' :: rest) = .ok (s, rest) := by
  induction s with
  | nil =>
    unfold readChars
    rfl
  | cons point s ih =>
    rw [Text.encodable, List.all_cons, Bool.and_eq_true] at whole
    rw [List.flatMap_cons, List.append_assoc]
    cases point with
    | half n => cases whole.1
    | char c => exact readChars_escapeChar (ih whole.2) c

section

variable {deepest : Option Nat}

theorem readFrom_step {mode next : Mode} {stack after : List Frame} {cs rest : List Char}
    (h : step deepest mode stack (skipSpace cs) = .ok (next, after, rest)) :
    readFrom deepest mode stack cs = readFrom deepest next after rest := by
  rw [readFrom.eq_2]
  · split
    · next failed =>
      rw [h] at failed
      cases failed
    · next same =>
      rw [h] at same
      cases same
      rfl
  · intro value finished empty
    subst finished empty
    simp [step, readNext] at h

/-- Spaces in front of the text make no difference. -/
theorem readFrom_congr {mode : Mode} {stack : List Frame} {cs cs' : List Char}
    (same : skipSpace cs = skipSpace cs') :
    readFrom deepest mode stack cs = readFrom deepest mode stack cs' := by
  unfold readFrom
  rw [same]

theorem skipSpace_newline (depth : Nat) (cs : List Char) :
    skipSpace (newline depth ++ cs) = skipSpace cs := by
  have blanks : ∀ c ∈ newline depth, isSpace c = true := by
    intro c member
    rcases List.mem_cons.1 member with rfl | member
    · rfl
    · rw [List.eq_of_mem_replicate member]
      rfl
  exact List.dropWhile_append_of_pos blanks

theorem readFrom_newline (mode : Mode) (stack : List Frame) (depth : Nat) (cs : List Char) :
    readFrom deepest mode stack (newline depth ++ cs) = readFrom deepest mode stack cs :=
  readFrom_congr (skipSpace_newline depth cs)

theorem skipSpace_of_head {c : Char} (h : isSpace c = false) (cs : List Char) :
    skipSpace (c :: cs) = c :: cs := by
  simp [skipSpace, h]

end

mutual

/-- Values that the reader gives back: no integer is too long, no key stands twice and no text holds
half of a pair. -/
def Readable : Json → Prop
  | .number n => Fits n
  | .text s => s.encodable = true
  | .list items => ReadableItems items
  | .object fields => (fields.map Prod.fst).Nodup ∧ ReadableFields fields
  | .null | .bool _ => True

def ReadableItems : List Json → Prop
  | [] => True
  | item :: items => Readable item ∧ ReadableItems items

def ReadableFields : List (Text × Json) → Prop
  | [] => True
  | (key, value) :: fields => key.encodable = true ∧ Readable value ∧ ReadableFields fields

end

mutual

/-- How many lists and objects are open at the innermost part of a value. -/
def depth : Json → Nat
  | .list items => depthItems items + 1
  | .object fields => depthFields fields + 1
  | .null | .bool _ | .number _ | .text _ => 0

def depthItems : List Json → Nat
  | [] => 0
  | item :: items => max (depth item) (depthItems items)

def depthFields : List (Text × Json) → Nat
  | [] => 0
  | (_, value) :: fields => max (depth value) (depthFields fields)

end

/-- So many lists and objects may be open at once. -/
def Holds (deepest : Option Nat) (opened : Nat) : Prop := ∀ most ∈ deepest, opened ≤ most

theorem holds_none (opened : Nat) : Holds none opened := nofun

theorem Holds.le {deepest : Option Nat} {opened fewer : Nat} (holds : Holds deepest opened)
    (le : fewer ≤ opened) : Holds deepest fewer :=
  fun most member => le.trans (holds most member)

theorem Holds.isOpenable {deepest : Option Nat} {stack : List Frame}
    (holds : Holds deepest (stack.length + 1)) : isOpenable deepest stack = true := by
  cases deepest with
  | none => rfl
  | some most =>
    have less : stack.length + 1 ≤ most := holds most rfl
    simpa [Json.isOpenable] using less

/-- The first character of a value that holds no other one. -/
inductive Plain : List Char → Prop where
  | intro {c : Char} (cs : List Char) (space : isSpace c = false)
    (bracket : c ≠ '[' ∧ c ≠ ']' ∧ c ≠ '\x7b') (mark : c ≠ '\uFEFF') : Plain (c :: cs)

theorem Plain.append {cs : List Char} (h : Plain cs) (rest : List Char) : Plain (cs ++ rest) := by
  obtain ⟨cs, space, bracket, mark⟩ := h
  exact .intro (cs ++ rest) space bracket mark

theorem Plain.skipSpace {cs : List Char} (h : Plain cs) : skipSpace cs = cs := by
  obtain ⟨cs, space⟩ := h
  exact skipSpace_of_head space cs

theorem DigitFirst.plain {cs : List Char} (h : DigitFirst cs) : Plain cs := by
  have other {c : Char} (hc : c.isDigit = false) : cs.head? ≠ some c := h.head_ne hc
  cases cs with
  | nil =>
    obtain ⟨c, first, _⟩ := h
    cases first
  | cons d cs =>
    simp only [List.head?_cons, ne_eq, Option.some.injEq] at other
    refine .intro cs ?_ ⟨other rfl, other rfl, other rfl⟩ (other rfl)
    simp [isSpace, @other ' ' rfl, @other '\t' rfl, @other '\n' rfl, @other '\r' rfl]

theorem plain_minus (cs : List Char) : Plain ('-' :: cs) := .intro cs rfl (by decide) (by decide)

theorem plain_writeNumber (n : Number) : Plain (writeNumber n) := by
  cases n with
  | whole n =>
    cases n with
    | ofNat m =>
      rw [writeNumber, toList_toString_ofNat, ← List.append_nil (Nat.toDigits 10 m)]
      exact (DigitFirst.toDigits m []).plain
    | negSucc m =>
      rw [writeNumber, toList_toString_negSucc]
      exact plain_minus _
  | double x =>
    unfold writeNumber
    simp only
    split
    · exact .intro _ rfl (by decide) (by decide)
    · next negative _ =>
      cases negative with
      | false => exact .intro _ rfl (by decide) (by decide)
      | true => exact plain_minus _
    · next negative _ _ h =>
      obtain ⟨cs, _, text, first, _⟩ := text_eq_signed h
      rw [text, Number.signed, String.toList_ofList]
      cases negative with
      | false => exact first.plain
      | true => exact plain_minus cs

theorem plain_writeString (s : Text) : Plain (writeString s) :=
  .intro _ rfl (by decide) (by decide)

theorem Plain.head {cs : List Char} (h : Plain cs) :
    ∃ c tail, cs = c :: tail ∧ isSpace c = false ∧ c ≠ ']' ∧ c ≠ '\uFEFF' := by
  obtain ⟨cs, space, bracket, mark⟩ := h
  exact ⟨_, cs, rfl, space, bracket.2.1, mark⟩

/-- A written value starts with no space, not like the end of a list and with no mark. -/
theorem head_write (depth : Nat) (v : Json) :
    ∃ c tail, write depth v = c :: tail ∧ isSpace c = false ∧ c ≠ ']' ∧ c ≠ '\uFEFF' := by
  match v with
  | .null => exact ⟨_, _, rfl, rfl, by decide⟩
  | .bool true => exact ⟨_, _, rfl, rfl, by decide⟩
  | .bool false => exact ⟨_, _, rfl, rfl, by decide⟩
  | .number n => exact (plain_writeNumber n).head
  | .text s => exact ⟨_, _, rfl, rfl, by decide⟩
  | .list [] => exact ⟨_, _, rfl, rfl, by decide⟩
  | .list (_ :: _) => exact ⟨_, _, rfl, rfl, by decide⟩
  | .object [] => exact ⟨_, _, rfl, rfl, by decide⟩
  | .object (_ :: _) => exact ⟨_, _, rfl, rfl, by decide⟩

section

variable {deepest : Option Nat}

/-- The first item of a list is read like any other value. -/
theorem readFrom_firstItem (stack : List Frame) (depth : Nat) (v : Json) (rest : List Char) :
    readFrom deepest .firstItem stack (write depth v ++ rest) =
      readFrom deepest .value (.list [] :: stack) (write depth v ++ rest) := by
  obtain ⟨c, tail, written, space, bracket, _⟩ := head_write depth v
  have opened : step deepest .firstItem stack (c :: (tail ++ rest)) =
      step deepest .value (.list [] :: stack) (c :: (tail ++ rest)) := by
    simp only [step]
    split
    · next same =>
      injection same with same
      exact absurd same bracket
    · rfl
  rw [readFrom.eq_2 _ _ _ _ (by simp), readFrom.eq_2 _ _ _ _ (by simp), written, List.cons_append,
    skipSpace_of_head space, opened]

theorem readFrom_scalar {stack : List Frame} {cs rest : List Char} {v : Json} (plain : Plain cs)
    (h : readScalar cs = .ok (v, rest)) :
    readFrom deepest .value stack cs = readFrom deepest (.after v) stack rest := by
  apply readFrom_step
  rw [plain.skipSpace]
  obtain ⟨cs, _, bracket⟩ := plain
  simp only [step, readValue]
  split
  · next same =>
    injection same with same
    exact absurd same bracket.2.2
  · next same =>
    injection same with same
    exact absurd same bracket.1
  · rw [h]

theorem readScalar_writeString {s : Text} (whole : s.encodable = true) (rest : List Char) :
    readScalar (writeString s ++ rest) = .ok (.text s, rest) := by
  have read := readChars_escaped (writeString s ++ rest).length whole rest
  simp only [writeString, List.cons_append, List.append_assoc, List.nil_append] at read ⊢
  simp only [readScalar, read]

theorem readFrom_key (done : List (Text × Json)) (stack : List Frame) {key : Text}
    (whole : key.encodable = true) (rest : List Char) :
    readFrom deepest (.name done) stack (writeString key ++ ':' :: ' ' :: rest) =
      readFrom deepest .value (.field done key :: stack) rest := by
  have read := readChars_escaped (writeString key ++ ':' :: ' ' :: rest).length whole
    (':' :: ' ' :: rest)
  have blank : skipSpace (' ' :: rest) = skipSpace rest := rfl
  rw [← readFrom_congr blank]
  apply readFrom_step
  rw [((plain_writeString key).append _).skipSpace]
  simp only [writeString, List.cons_append, List.append_assoc, List.nil_append] at read ⊢
  simp only [step, readName, read]
  rw [skipSpace_of_head rfl]
  rfl

theorem readFrom_firstName (stack : List Frame) (key : Text) (rest : List Char) :
    readFrom deepest .firstName stack (writeString key ++ rest) =
      readFrom deepest (.name []) stack (writeString key ++ rest) := by
  rw [readFrom.eq_2 _ _ _ _ (by simp), readFrom.eq_2 _ _ _ _ (by simp),
    ((plain_writeString key).append rest).skipSpace]
  rfl

theorem readFrom_open_list {stack : List Frame} (holds : Holds deepest (stack.length + 1))
    (rest : List Char) :
    readFrom deepest .value stack ('[' :: rest) = readFrom deepest .firstItem stack rest := by
  apply readFrom_step
  rw [skipSpace_of_head rfl]
  simp only [step, readValue, holds.isOpenable, if_true]

theorem readFrom_open_object {stack : List Frame} (holds : Holds deepest (stack.length + 1))
    (rest : List Char) :
    readFrom deepest .value stack ('\x7b' :: rest) = readFrom deepest .firstName stack rest := by
  apply readFrom_step
  rw [skipSpace_of_head rfl]
  simp only [step, readValue, holds.isOpenable, if_true]

end

theorem insertField_new {key : Text} {done : List (Text × Json)}
    (absent : key ∉ done.map Prod.fst) (value : Json) :
    insertField key value done = done ++ [(key, value)] := by
  induction done with
  | nil => rfl
  | cons field done ih =>
    simp only [List.map_cons, List.mem_cons, not_or] at absent
    rw [insertField, if_neg (Ne.symm absent.1), ih absent.2, List.cons_append]

theorem ends_writeItems (depth outer : Nat) (items : List Json) (rest : List Char) :
    Ends (writeItems depth items ++ (newline outer ++ rest)) := by
  cases items with
  | nil => exact .newline _
  | cons item items => exact .comma _

theorem ends_writeFields (depth outer : Nat) (fields : List (Text × Json)) (rest : List Char) :
    Ends (writeFields depth fields ++ (newline outer ++ rest)) := by
  cases fields with
  | nil => exact .newline _
  | cons field fields => exact .comma _

mutual

/-- Reading a written value leaves the stack as it was. -/
theorem readFrom_write {deepest : Option Nat} (depth : Nat) (stack : List Frame)
    (rest : List Char) (ends : Ends rest) : ∀ v : Json, Readable v →
      Holds deepest (stack.length + v.depth) →
      readFrom deepest .value stack (write depth v ++ rest) = readFrom deepest (.after v) stack rest
  | .null, _, _ => readFrom_scalar (.intro _ rfl (by decide) (by decide)) rfl
  | .bool true, _, _ => readFrom_scalar (.intro _ rfl (by decide) (by decide)) rfl
  | .bool false, _, _ => readFrom_scalar (.intro _ rfl (by decide) (by decide)) rfl
  | .number n, h, _ => by
    rw [Readable] at h
    exact readFrom_scalar ((plain_writeNumber n).append rest) (readScalar_writeNumber h ends)
  | .text s, h, _ => by
    rw [Readable] at h
    exact readFrom_scalar ((plain_writeString s).append rest) (readScalar_writeString h rest)
  | .list [], _, holds => by
    rw [write, List.cons_append, readFrom_open_list holds]
    exact readFrom_step rfl
  | .list (item :: items), h, holds => by
    rw [Readable, ReadableItems] at h
    rw [Json.depth, depthItems] at holds
    have ends := ends_writeItems (depth + 1) depth items (']' :: rest)
    simp only [write, List.cons_append, List.append_assoc, List.nil_append]
    rw [readFrom_open_list (holds.le (by omega)), readFrom_newline, readFrom_firstItem,
      readFrom_write (depth + 1) _ _ ends item h.1
        (holds.le (by rw [List.length_cons]; omega)),
      readFrom_writeItems depth stack rest item [] items h.2 (holds.le (by omega))]
    rfl
  | .object [], _, holds => by
    rw [write, List.cons_append, readFrom_open_object holds]
    exact readFrom_step rfl
  | .object ((key, value) :: fields), h, holds => by
    rw [Readable, ReadableFields] at h
    rw [Json.depth, depthFields] at holds
    have ends := ends_writeFields (depth + 1) depth fields ('\x7d' :: rest)
    simp only [write, List.cons_append, List.append_assoc, List.nil_append]
    rw [readFrom_open_object (holds.le (by omega)), readFrom_newline, readFrom_firstName,
      readFrom_key _ _ h.2.1,
      readFrom_write (depth + 1) _ _ ends value h.2.2.1
        (holds.le (by rw [List.length_cons]; omega)),
      readFrom_writeFields depth stack rest key value [] fields h.1 h.2.2.2 (holds.le (by omega))]
    rfl

theorem readFrom_writeItems {deepest : Option Nat} (depth : Nat) (stack : List Frame)
    (rest : List Char) (v : Json) (done : List Json) : ∀ items : List Json, ReadableItems items →
      Holds deepest (stack.length + 1 + depthItems items) →
      readFrom deepest (.after v) (.list done :: stack)
        (writeItems (depth + 1) items ++ (newline depth ++ ']' :: rest)) =
        readFrom deepest (.after (.list (done.reverse ++ v :: items))) stack rest
  | [], _, _ => by
    rw [writeItems, List.nil_append, readFrom_newline]
    refine (readFrom_step rfl).trans ?_
    rw [List.reverse_cons]
  | item :: items, h, holds => by
    rw [ReadableItems] at h
    rw [depthItems] at holds
    have next : readFrom deepest (.after v) (.list done :: stack)
        (writeItems (depth + 1) (item :: items) ++ (newline depth ++ ']' :: rest)) =
        readFrom deepest .value (.list (v :: done) :: stack) (newline (depth + 1) ++
          (write (depth + 1) item ++
            (writeItems (depth + 1) items ++ (newline depth ++ ']' :: rest)))) := by
      apply readFrom_step
      simp only [writeItems, List.cons_append, List.append_assoc]
      rfl
    have ends := ends_writeItems (depth + 1) depth items (']' :: rest)
    rw [next, readFrom_newline,
      readFrom_write (depth + 1) _ _ ends item h.1
        (holds.le (by rw [List.length_cons]; omega)),
      readFrom_writeItems depth stack rest item (v :: done) items h.2 (holds.le (by omega))]
    simp

theorem readFrom_writeFields {deepest : Option Nat} (depth : Nat) (stack : List Frame)
    (rest : List Char) (key : Text) (v : Json) (done : List (Text × Json)) :
    ∀ fields : List (Text × Json),
      ((done ++ (key, v) :: fields).map Prod.fst).Nodup → ReadableFields fields →
      Holds deepest (stack.length + 1 + depthFields fields) →
      readFrom deepest (.after v) (.field done key :: stack)
        (writeFields (depth + 1) fields ++ (newline depth ++ '\x7d' :: rest)) =
        readFrom deepest (.after (.object (done ++ (key, v) :: fields))) stack rest
  | [], distinct, _, _ => by
    have absent : key ∉ done.map Prod.fst := by
      simp only [List.map_append, List.map_cons, List.nodup_append] at distinct
      intro member
      exact distinct.2.2 key member key List.mem_cons_self rfl
    rw [writeFields, List.nil_append, readFrom_newline]
    refine (readFrom_step rfl).trans ?_
    rw [insertField_new absent]
  | (name, value) :: fields, distinct, h, holds => by
    rw [ReadableFields] at h
    rw [depthFields] at holds
    have absent : key ∉ done.map Prod.fst := by
      simp only [List.map_append, List.map_cons, List.nodup_append] at distinct
      intro member
      exact distinct.2.2 key member key List.mem_cons_self rfl
    have next : readFrom deepest (.after v) (.field done key :: stack)
        (writeFields (depth + 1) ((name, value) :: fields) ++ (newline depth ++ '\x7d' :: rest)) =
        readFrom deepest (.name (insertField key v done)) stack (newline (depth + 1) ++
          (writeString name ++ ':' :: ' ' :: (write (depth + 1) value ++
            (writeFields (depth + 1) fields ++ (newline depth ++ '\x7d' :: rest))))) := by
      apply readFrom_step
      simp only [writeFields, List.cons_append, List.append_assoc, List.nil_append]
      rfl
    have ends := ends_writeFields (depth + 1) depth fields ('\x7d' :: rest)
    rw [List.append_cons] at distinct
    rw [next, readFrom_newline, insertField_new absent, readFrom_key _ _ h.1,
      readFrom_write (depth + 1) _ _ ends value h.2.1
        (holds.le (by rw [List.length_cons]; omega)),
      readFrom_writeFields depth stack rest name value _ fields distinct h.2.2
        (holds.le (by omega)), ← List.append_cons]

end

/-- A document is read as the value that it was written from. -/
theorem readWithin_document {deepest : Option Nat} {v : Json} (h : Readable v)
    (holds : Holds deepest v.depth) : readWithin deepest (document v).toList = .ok v := by
  obtain ⟨c, tail, written, _, _, mark⟩ := head_write 0 v
  have unmarked : (write 0 v).head? ≠ some '\uFEFF' := by
    rw [written, List.head?_cons, ne_eq, Option.some.injEq]
    exact mark
  have value := readFrom_write 0 [] [] .nil v h (holds.le (by rw [List.length_nil]; omega))
  rw [List.append_nil] at value
  rw [readWithin, document, String.toList_ofList, if_neg unmarked, value, readFrom.eq_1]
  rfl

theorem read_document {v : Json} (h : Readable v) : read (document v).toList = .ok v :=
  readWithin_document h (holds_none v.depth)

theorem Digits.no_return {cs : List Char} (h : Digits cs) : '\r' ∉ cs := by
  intro member
  exact absurd (h '\r' member) (by decide)

theorem no_return_positional {digits : List Char} (h : Digits digits) (point : Int) :
    '\r' ∉ Number.positional digits point := by
  have taken : '\r' ∉ digits.take point.toNat :=
    fun member => h.no_return (List.mem_of_mem_take member)
  have dropped : '\r' ∉ digits.drop point.toNat :=
    fun member => h.no_return (List.mem_of_mem_drop member)
  unfold Number.positional
  simp only
  split
  · simp [h.no_return]
  · split
    · simp [taken]
    · simp [taken, dropped]

theorem no_return_scientific {digits : List Char} (h : Digits digits) (width : Nat)
    (exponent : Int) :
    '\r' ∉ Number.scientific width digits exponent := by
  have taken : '\r' ∉ digits.take 1 := fun member => h.no_return (List.mem_of_mem_take member)
  have dropped : '\r' ∉ digits.drop 1 := fun member => h.no_return (List.mem_of_mem_drop member)
  have padded := (Digits.zeroPad width exponent.natAbs).no_return
  have sign : '\r' ≠ if exponent < 0 then '-' else '+' := by
    split <;> decide
  have fraction : '\r' ∉ if (digits.drop 1).isEmpty then [] else '.' :: digits.drop 1 := by
    split
    · exact List.not_mem_nil
    · simp only [List.mem_cons, not_or]
      exact ⟨by decide, dropped⟩
  simp only [Number.scientific, List.mem_append, List.mem_cons, not_or]
  exact ⟨⟨taken, fraction⟩, by decide, sign, padded⟩

theorem no_return_text (x : Float) : '\r' ∉ (Number.text x).toList := by
  have words (negative isNan : Bool) : '\r' ∉ (Number.word negative isNan).toList := by
    cases negative <;> cases isNan <;> decide
  have signed (negative : Bool) {cs : List Char} (h : '\r' ∉ cs) :
      '\r' ∉ (Number.signed negative cs).toList := by
    cases negative with
    | false => simpa [Number.signed] using h
    | true => simpa [Number.signed] using h
  have layout (d : Decimal) : '\r' ∉ Number.layout.write d := by
    have digits := Digits.toDigits d.digits
    unfold Number.Layout.write
    simp only
    split
    · exact no_return_positional digits _
    · exact no_return_scientific digits _ _
  unfold Number.text
  split
  · exact words _ _
  · exact words _ _
  · exact signed _ (by decide)
  · exact signed _ (layout _)

theorem no_return_writeNumber (n : Number) : '\r' ∉ writeNumber n := by
  cases n with
  | whole n =>
    have digits (m : Nat) := (Digits.toDigits m).no_return
    cases n with
    | ofNat m =>
      rw [writeNumber, toList_toString_ofNat]
      exact digits m
    | negSucc m =>
      rw [writeNumber, toList_toString_negSucc, List.mem_cons, not_or]
      exact ⟨by decide, digits (m + 1)⟩
  | double x =>
    unfold writeNumber
    simp only
    split
    · decide
    · split <;> decide
    · exact no_return_text x

theorem no_return_hex (width n : Nat) : '\r' ∉ Text.hex width n := by
  induction width generalizing n with
  | zero => exact List.not_mem_nil
  | succ width ih =>
    have last : ∀ k : Fin 16, '\r' ≠ Nat.digitChar k := by decide
    rw [Text.hex, List.mem_append, List.mem_singleton, not_or]
    exact ⟨ih _, last ⟨n % 16, Nat.mod_lt n (by decide)⟩⟩

theorem no_return_escapeChar (c : Char) : '\r' ∉ escapeChar c := by
  rcases escapeChar_cases c with ⟨e, letter, _, written⟩ | ⟨_, written⟩ | ⟨_, _, printable, written⟩
  · rw [written]
    simp only [List.mem_cons, List.not_mem_nil, or_false, not_or]
    refine ⟨by decide, ?_⟩
    rintro rfl
    cases letter
  · rw [written, List.mem_cons, List.mem_cons, not_or, not_or]
    exact ⟨by decide, by decide, no_return_hex 4 _⟩
  · rw [written, List.mem_singleton]
    rintro rfl
    exact printable (by decide)

theorem no_return_writeString (s : Text) : '\r' ∉ writeString s := by
  have inner : '\r' ∉ s.flatMap escapePoint := by
    intro member
    obtain ⟨point, -, written⟩ := List.mem_flatMap.1 member
    cases point with
    | char c => exact no_return_escapeChar c written
    | half n =>
      rw [escapePoint, CodePoint.escape, List.mem_cons, List.mem_cons] at written
      exact written.elim (by decide) fun written =>
        written.elim (by decide) (no_return_hex 4 _)
  simp only [writeString, List.mem_append, List.mem_cons, List.not_mem_nil, or_false, not_or]
  exact ⟨⟨by decide, inner⟩, by decide⟩

theorem no_return_newline (depth : Nat) : '\r' ∉ newline depth := by
  simp [newline]

mutual

theorem no_return_write (depth : Nat) : ∀ v : Json, '\r' ∉ write depth v
  | .null => by rw [write]; decide
  | .bool true => by rw [write]; decide
  | .bool false => by rw [write]; decide
  | .number n => by
    rw [write]
    exact no_return_writeNumber n
  | .text s => by
    rw [write]
    exact no_return_writeString s
  | .list [] => by rw [write]; decide
  | .list (item :: items) => by
    simp [write, no_return_newline, no_return_write (depth + 1) item,
      no_return_writeItems (depth + 1) items]
  | .object [] => by rw [write]; decide
  | .object ((key, value) :: fields) => by
    simp [write, no_return_newline, no_return_writeString, no_return_write (depth + 1) value,
      no_return_writeFields (depth + 1) fields]

theorem no_return_writeItems (depth : Nat) : ∀ items : List Json, '\r' ∉ writeItems depth items
  | [] => by rw [writeItems]; exact List.not_mem_nil
  | item :: items => by
    simp [writeItems, no_return_newline, no_return_write depth item,
      no_return_writeItems depth items]

theorem no_return_writeFields (depth : Nat) :
    ∀ fields : List (Text × Json), '\r' ∉ writeFields depth fields
  | [] => by rw [writeFields]; exact List.not_mem_nil
  | (key, value) :: fields => by
    simp [writeFields, no_return_newline, no_return_writeString, no_return_write depth value,
      no_return_writeFields depth fields]

end

end TreeWalk.Json
