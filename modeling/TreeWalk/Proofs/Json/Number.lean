import TreeWalk.Json.Reader
import TreeWalk.Json.Writer
import TreeWalk.Proofs.Number.Decimal
import TreeWalk.Proofs.Text.Digit

/-!
Numbers in documents: the reader gives back each number that the writer wrote. A double is written
by its shortest decimal with a point or an exponent, so it is never taken for an integer.
-/

set_option autoImplicit false

namespace TreeWalk.Json

/-- A text that ends a written value: nothing, a comma or a line feed comes first. -/
inductive Ends : List Char → Prop where
  | nil : Ends []
  | comma (cs : List Char) : Ends (',' :: cs)
  | newline (cs : List Char) : Ends ('\n' :: cs)

def Digits (cs : List Char) : Prop := ∀ c ∈ cs, c.isDigit = true

/-- Digits before a point: a zero stands alone. -/
structure Whole (cs : List Char) : Prop where
  digits : Digits cs
  nonempty : cs ≠ []
  lead : cs = ['0'] ∨ cs.head? ≠ some '0'

theorem Digits.append {first second : List Char} (h : Digits first) (h' : Digits second) :
    Digits (first ++ second) := by
  intro c member
  rcases List.mem_append.1 member with left | right
  · exact h c left
  · exact h' c right

theorem Digits.zeros (k : Nat) : Digits (List.replicate k '0') := by
  intro c member
  rw [List.eq_of_mem_replicate member]
  rfl

theorem Digits.toDigits (n : Nat) : Digits (Nat.toDigits 10 n) := fun _ => Text.isDigit_toDigits

def NoDigit (cs : List Char) : Prop := ∀ c ∈ cs.head?, c.isDigit = false

theorem Ends.noDigit {cs : List Char} (h : Ends cs) : NoDigit cs := by
  intro c member
  cases h with
  | nil => cases member
  | comma => cases member; rfl
  | newline => cases member; rfl

theorem takeWhile_digits {ds rest : List Char} (h : Digits ds) (stop : NoDigit rest) :
    (ds ++ rest).takeWhile Char.isDigit = ds := by
  rw [List.takeWhile_append_of_pos h]
  cases rest with
  | nil => simp
  | cons c cs => simp [stop c rfl]

theorem wholeDigits_append {whole rest : List Char} (h : Whole whole) (stop : NoDigit rest) :
    wholeDigits (whole ++ rest) = whole := by
  rcases h.lead with zero | lead
  · subst zero
    rfl
  · have taken := takeWhile_digits h.digits stop
    cases whole with
    | nil => exact absurd rfl h.nonempty
    | cons c cs =>
      unfold wholeDigits
      split
      · next same =>
        rw [List.cons_append, List.cons.injEq] at same
        rw [same.1] at lead
        exact absurd rfl lead
      · exact taken

theorem head_ne_minus {whole : List Char} (h : Whole whole) (rest : List Char) :
    (whole ++ rest).head? ≠ some '-' := by
  cases whole with
  | nil => exact absurd rfl h.nonempty
  | cons c cs =>
    intro same
    have digit := h.digits c (List.mem_cons_self)
    rw [List.cons_append, List.head?_cons, Option.some.injEq] at same
    rw [same] at digit
    exact absurd digit (by decide)

theorem readNumber_fraction {whole fraction tail : List Char} {power : Int} {size : Nat}
    (hw : Whole whole) (hf : Digits fraction) (nonempty : fraction ≠ []) (stop : NoDigit tail)
    (exponent : (readExponent tail).getD (0, 0) = (power, size)) :
    readNumber (whole ++ '.' :: (fraction ++ tail)) =
      .ok (.number (.double (Decimal.mk (Text.digitsValue (whole ++ fraction))
        (-(fraction.length : Int) + power)).toFloat), tail.drop size) := by
  have point : NoDigit ('.' :: (fraction ++ tail)) := by
    intro c member
    cases member
    rfl
  have plus := head_ne_minus hw ('.' :: (fraction ++ tail))
  have taken := wholeDigits_append hw point
  have digits := takeWhile_digits hf stop
  have some_digits : whole.isEmpty = false := by simpa using hw.nonempty
  have some_fraction : fraction.isEmpty = false := by simpa using nonempty
  unfold readNumber
  simp only [plus, if_false, taken, List.drop_left, digits, some_digits, some_fraction,
    Bool.false_eq_true, List.drop_succ_cons]
  cases fraction with
  | nil => exact absurd rfl nonempty
  | cons c cs => simp only [exponent, Decimal.ofDigits]

theorem readNumber_exponent {whole tail : List Char} {power : Int} {size : Nat} (hw : Whole whole)
    (stop : NoDigit tail) (noPoint : ∀ cs, tail ≠ '.' :: cs)
    (exponent : readExponent tail = some (power, size)) :
    readNumber (whole ++ tail) =
      .ok (.number (.double (Decimal.mk (Text.digitsValue whole) power).toFloat),
        tail.drop size) := by
  have plus := head_ne_minus hw tail
  have taken := wholeDigits_append hw stop
  have some_digits : whole.isEmpty = false := by simpa using hw.nonempty
  unfold readNumber
  simp only [plus, if_false, taken, List.drop_left, some_digits, Bool.false_eq_true,
    List.isEmpty_nil, if_true, exponent, Option.getD_some, Decimal.ofDigits, List.append_nil,
    List.length_nil, Nat.cast_zero, neg_zero, zero_add]

theorem readNumber_whole {whole tail : List Char} (hw : Whole whole)
    (short : whole.length ≤ digitLimit) (ends : Ends tail) :
    readNumber (whole ++ tail) = .ok (.number (.whole (Text.digitsValue whole)), tail) := by
  have plus := head_ne_minus hw tail
  have taken := wholeDigits_append hw ends.noDigit
  have some_digits : whole.isEmpty = false := by simpa using hw.nonempty
  have fits : ¬ digitLimit < whole.length := by omega
  unfold readNumber
  simp only [plus, if_false, taken, List.drop_left, some_digits, Bool.false_eq_true]
  cases ends with
  | nil => simp [readExponent, fits]
  | comma cs => simp [readExponent, fits]
  | newline cs => simp [readExponent, fits]

def opposite : Number → Number
  | .double x => .double (-x)
  | .whole n => .whole (-n)

theorem readNumber_minus {cs rest : List Char} {n : Number} (plus : cs.head? ≠ some '-')
    (h : readNumber cs = .ok (.number n, rest)) :
    readNumber ('-' :: cs) = .ok (.number (opposite n), rest) := by
  unfold readNumber at h ⊢
  simp only [plus, if_false, List.head?_cons, if_true, List.drop_succ_cons, List.drop_zero] at h ⊢
  split at h
  · cases h
  · next some_digits =>
    rw [if_neg some_digits]
    split at h
    · split at h
      · cases h
      · next fits =>
        rw [if_neg fits]
        cases h
        rfl
    · cases h
      rfl

theorem readExponent_of_digits {digits rest : List Char} {sign : Char} (hd : Digits digits)
    (nonempty : digits ≠ []) (signed : sign = '-' ∨ sign = '+') (stop : NoDigit rest) :
    readExponent ('e' :: sign :: (digits ++ rest)) =
      some (if sign = '-' then -(Text.digitsValue digits : Int) else Text.digitsValue digits,
        digits.length + 2) := by
  have taken := takeWhile_digits hd stop
  rcases signed with rfl | rfl
  · simp [readExponent, Numeral.takeSign, taken, nonempty]
    omega
  · simp [readExponent, Numeral.takeSign, taken, nonempty]
    omega

theorem digitsValue_zeroPad (width : Nat) (cs : List Char) :
    Text.digitsValue (Number.zeroPad width cs) = Text.digitsValue cs := by
  rw [Number.zeroPad, Text.digitsValue_append, Text.digitsValue_zeros]
  simp

theorem Digits.zeroPad (width n : Nat) : Digits (Number.zeroPad width (Nat.toDigits 10 n)) :=
  (Digits.zeros _).append (Digits.toDigits n)

theorem Whole.toDigits (n : Nat) : Whole (Nat.toDigits 10 n) where
  digits := Digits.toDigits n
  nonempty := Nat.toDigits_ne_nil
  lead := by
    rcases Nat.eq_zero_or_pos n with zero | positive
    · subst zero
      exact .inl rfl
    · exact .inr (Text.head_toDigits_ne_zero positive)

theorem readExponent_of_ends {rest : List Char} (ends : Ends rest) : readExponent rest = none := by
  cases ends with
  | nil => rfl
  | comma => rfl
  | newline => rfl

theorem readNumber_of_fraction {whole fraction rest : List Char} (hw : Whole whole)
    (hf : Digits fraction) (nonempty : fraction ≠ []) (ends : Ends rest) :
    readNumber (whole ++ '.' :: (fraction ++ rest)) =
      .ok (.number (.double (Decimal.ofDigits whole fraction).toFloat), rest) := by
  have exponent : (readExponent rest).getD (0, 0) = (0, 0) := by
    rw [readExponent_of_ends ends, Option.getD_none]
  rw [readNumber_fraction hw hf nonempty ends.noDigit exponent, add_zero]
  rfl

/-- The digits of a number with enough zeros after them, before a point. -/
theorem Whole.append_zeros {n : Nat} (positive : 0 < n) (k : Nat) :
    Whole (Nat.toDigits 10 n ++ List.replicate k '0') where
  digits := (Digits.toDigits n).append (Digits.zeros k)
  nonempty := by simp
  lead := by
    right
    rw [List.head?_append_of_ne_nil _ Nat.toDigits_ne_nil]
    exact Text.head_toDigits_ne_zero positive

theorem Whole.take {n k : Nat} (positive : 0 < n) (some_digits : 0 < k) :
    Whole ((Nat.toDigits 10 n).take k) where
  digits := fun c member => Digits.toDigits n c (List.mem_of_mem_take member)
  nonempty := by
    simp only [ne_eq, List.take_eq_nil_iff, Nat.toDigits_ne_nil, or_false]
    omega
  lead := by
    right
    rw [List.head?_take, if_neg (by omega)]
    exact Text.head_toDigits_ne_zero positive

theorem ofDigits_before {n : Nat} {e : Int} {size : Nat}
    (length : (Nat.toDigits 10 n).length = size) (before : e + size ≤ 0) :
    Decimal.ofDigits ['0'] (List.replicate (e + size).natAbs '0' ++ Nat.toDigits 10 n) =
      ⟨n, e⟩ := by
  have zero : Text.digitsValue ['0'] = 0 := Text.digitsValue_zeros 1
  simp only [Decimal.ofDigits, Text.digitsValue_append, Text.digitsValue_zeros, zero,
    Text.digitsValue_toDigits, List.length_append, List.length_replicate, length, Decimal.mk.injEq]
  omega

theorem ofDigits_inside {n : Nat} {e : Int} {size : Nat}
    (length : (Nat.toDigits 10 n).length = size) (inside : 0 < e + size)
    (short : (e + size).toNat ≤ size) :
    Decimal.ofDigits ((Nat.toDigits 10 n).take (e + size).toNat)
      ((Nat.toDigits 10 n).drop (e + size).toNat) = ⟨n, e⟩ := by
  simp only [Decimal.ofDigits, List.take_append_drop, Text.digitsValue_toDigits, List.length_drop,
    length, Decimal.mk.injEq, true_and]
  omega

theorem ofDigits_after_value (n k : Nat) :
    (Decimal.ofDigits (Nat.toDigits 10 n ++ List.replicate k '0') ['0']).value =
      (Decimal.mk n k).value := by
  have zero : Text.digitsValue ['0'] = 0 := Text.digitsValue_zeros 1
  simp only [Decimal.ofDigits, Text.digitsValue_append, Text.digitsValue_zeros, zero,
    Text.digitsValue_toDigits, List.length_replicate, List.length_singleton, Decimal.value]
  push_cast
  rw [zpow_natCast, zpow_neg, zpow_one]
  ring

theorem readNumber_positional {n : Nat} {e : Int} {size : Nat} {rest : List Char}
    (length : (Nat.toDigits 10 n).length = size) (positive : 0 < n) (ends : Ends rest) :
    readNumber (Number.positional (Nat.toDigits 10 n) (e + size) ++ rest) =
      .ok (.number (.double (Decimal.mk n e).toFloat), rest) := by
  have digits := Digits.toDigits n
  unfold Number.positional
  split
  · next before =>
    have fraction := (Digits.zeros (e + size).natAbs).append digits
    have read := readNumber_of_fraction (Whole.toDigits 0) fraction (by simp) ends
    rw [show Nat.toDigits 10 0 = ['0'] from rfl, ofDigits_before length before] at read
    exact read
  · next before =>
    simp only [List.isEmpty_iff, List.drop_eq_nil_iff, length]
    split
    · -- All digits stand before the point, with zeros up to it.
      next short =>
      have zero : Digits ['0'] := Digits.zeros 1
      have read := readNumber_of_fraction (Whole.append_zeros positive ((e + size).toNat - size))
        zero (by simp) ends
      have power : (((e + size).toNat - size : Nat) : Int) = e := by omega
      rw [Decimal.toFloat_congr (ofDigits_after_value n _), power] at read
      rw [List.take_of_length_le (by omega), List.append_assoc]
      exact read
    · next long =>
      have none_missing : (e + size).toNat - size = 0 := by omega
      have fraction : Digits ((Nat.toDigits 10 n).drop (e + size).toNat) :=
        fun c member => digits c (List.mem_of_mem_drop member)
      have nonempty : (Nat.toDigits 10 n).drop (e + size).toNat ≠ [] := by
        rw [ne_eq, List.drop_eq_nil_iff]
        omega
      have some_digits : 0 < (e + size).toNat := by omega
      have read := readNumber_of_fraction (Whole.take positive some_digits) fraction nonempty ends
      rw [ofDigits_inside length (by omega) (by omega)] at read
      rw [none_missing, List.replicate_zero, List.append_nil, List.append_assoc]
      exact read

theorem readExponent_written (width : Nat) (k : Int) {rest : List Char} (stop : NoDigit rest) :
    readExponent ('e' :: (if k < 0 then '-' else '+') ::
      (Number.zeroPad width (Nat.toDigits 10 k.natAbs) ++ rest)) =
      some (k, (Number.zeroPad width (Nat.toDigits 10 k.natAbs)).length + 2) := by
  have nonempty : Number.zeroPad width (Nat.toDigits 10 k.natAbs) ≠ [] := by
    simp [Number.zeroPad]
  have value : Text.digitsValue (Number.zeroPad width (Nat.toDigits 10 k.natAbs)) = k.natAbs := by
    rw [digitsValue_zeroPad, Text.digitsValue_toDigits]
  by_cases negative : k < 0
  · rw [if_pos negative, readExponent_of_digits (Digits.zeroPad _ _) nonempty (.inl rfl) stop,
      if_pos rfl, value, Int.ofNat_natAbs_of_nonpos (by omega), neg_neg]
  · rw [if_neg negative, readExponent_of_digits (Digits.zeroPad _ _) nonempty (.inr rfl) stop,
      if_neg (by decide), value, Int.natAbs_of_nonneg (by omega)]

theorem readNumber_scientific {n : Nat} {e : Int} {size : Nat} {rest : List Char} (width : Nat)
    (length : (Nat.toDigits 10 n).length = size) (positive : 0 < n) (ends : Ends rest) :
    readNumber (Number.scientific width (Nat.toDigits 10 n) (e + size - 1) ++ rest) =
      .ok (.number (.double (Decimal.mk n e).toFloat), rest) := by
  have exponent := readExponent_written width (e + size - 1) ends.noDigit
  have whole : Whole ((Nat.toDigits 10 n).take 1) := Whole.take positive Nat.one_pos
  have letter (tail : List Char) : NoDigit ('e' :: tail) := by
    intro c member
    cases member
    rfl
  have some_digits : 0 < size := by
    rw [← length]
    exact List.length_pos_of_ne_nil Nat.toDigits_ne_nil
  simp only [Number.scientific, List.isEmpty_iff, List.drop_eq_nil_iff, length]
  split
  · -- A single digit has no point after it.
    next single =>
    have power : e + size - 1 = e := by omega
    have all : (Nat.toDigits 10 n).take 1 = Nat.toDigits 10 n := List.take_of_length_le (by omega)
    have read := readNumber_exponent whole (letter _) (by simp) exponent
    rw [all, Text.digitsValue_toDigits] at read
    simpa [power, all] using read
  · next several =>
    have fraction : Digits ((Nat.toDigits 10 n).drop 1) :=
      fun c member => Digits.toDigits n c (List.mem_of_mem_drop member)
    have nonempty : (Nat.toDigits 10 n).drop 1 ≠ [] := by
      rw [ne_eq, List.drop_eq_nil_iff]
      omega
    have read := readNumber_fraction whole fraction nonempty (letter _)
      (congrArg (Option.getD · (0, 0)) exponent)
    have power : -((size - 1 : Nat) : Int) + (e + size - 1) = e := by omega
    rw [List.take_append_drop, Text.digitsValue_toDigits, List.length_drop, length, power] at read
    simpa using read

/-- A decimal that was laid out is read as its double. -/
theorem readNumber_layout {d : Decimal} {rest : List Char} (l : Number.Layout)
    (positive : 0 < d.digits) (ends : Ends rest) :
    readNumber (l.write d ++ rest) = .ok (.number (.double d.toFloat), rest) := by
  unfold Number.Layout.write
  simp only
  split
  · exact readNumber_positional rfl positive ends
  · exact readNumber_scientific l.exponentWidth rfl positive ends

/-- The text of a number without a sign starts with a digit. -/
def DigitFirst (cs : List Char) : Prop := ∃ c ∈ cs.head?, c.isDigit = true

theorem Whole.digitFirst {whole : List Char} (h : Whole whole) (rest : List Char) :
    DigitFirst (whole ++ rest) := by
  cases whole with
  | nil => exact absurd rfl h.nonempty
  | cons c cs => exact ⟨c, rfl, h.digits c List.mem_cons_self⟩

theorem DigitFirst.append {cs : List Char} (h : DigitFirst cs) (rest : List Char) :
    DigitFirst (cs ++ rest) := by
  obtain ⟨c, first, digit⟩ := h
  cases cs with
  | nil => cases first
  | cons c cs => exact ⟨c, rfl, by cases first; exact digit⟩

theorem DigitFirst.head_ne {cs : List Char} (h : DigitFirst cs) {c : Char}
    (other : c.isDigit = false) : cs.head? ≠ some c := by
  obtain ⟨d, first, digit⟩ := h
  intro same
  rw [same] at first
  cases first
  rw [other] at digit
  cases digit

theorem digitFirst_layout {d : Decimal} (l : Number.Layout) (positive : 0 < d.digits) :
    DigitFirst (l.write d) := by
  unfold Number.Layout.write Number.positional Number.scientific
  simp only
  split
  · split
    · exact ⟨'0', rfl, rfl⟩
    · rw [List.append_assoc]
      exact (Whole.take positive (by omega)).digitFirst _
  · rw [List.append_assoc]
    exact (Whole.take positive Nat.one_pos).digitFirst _

/-- The text of a finite double is a sign and a text that is read as the double without it. -/
theorem text_eq_signed {x : Float} {negative : Bool} {mantissa shift : Nat}
    (h : Number.parts x = .finite negative mantissa shift) :
    ∃ (cs : List Char) (y : Float), Number.text x = Number.signed negative cs ∧ DigitFirst cs ∧
      Decimal.withSign negative y = x ∧
      ∀ rest, Ends rest → readNumber (cs ++ rest) = .ok (.number (.double y), rest) := by
  have full := Decimal.toFloat_ofParts h
  unfold Number.text
  rw [h]
  cases mantissa with
  | zero =>
    have zero : (Decimal.ofDigits ['0'] ['0']).toFloat = (Decimal.ofParts 0 shift).toFloat := by
      apply Decimal.toFloat_congr
      rw [Decimal.ofParts_value, Nat.cast_zero, zero_mul]
      refine (ofDigits_after_value 0 0).trans ?_
      simp [Decimal.value]
    refine ⟨['0', '.', '0'], _, rfl, ⟨'0', rfl, rfl⟩, full, ?_⟩
    intro rest ends
    rw [← zero]
    exact readNumber_of_fraction (Whole.toDigits 0) (Digits.zeros 1) (by simp) ends
  | succ m =>
    have positive := Decimal.shortest_digits_pos h (Nat.succ_ne_zero m)
    refine ⟨_, _, rfl, digitFirst_layout _ positive, full, ?_⟩
    intro rest ends
    rw [← Decimal.toFloat_shortest]
    exact readNumber_layout Number.layout positive ends

/-- The reader takes integers up to a number of digits. -/
def Fits : Number → Prop
  | .whole n => (Nat.toDigits 10 n.natAbs).length ≤ digitLimit
  | .double _ => True

theorem toList_toString_ofNat (n : Nat) : (toString (Int.ofNat n)).toList = Nat.toDigits 10 n := by
  change (Nat.repr n).toList = _
  simp

theorem toList_toString_negSucc (n : Nat) :
    (toString (Int.negSucc n)).toList = '-' :: Nat.toDigits 10 (n + 1) := by
  change ("-" ++ Nat.repr (n + 1)).toList = _
  simp

theorem readNumber_toString {n : Int} {rest : List Char} (fits : Fits (.whole n))
    (ends : Ends rest) :
    readNumber ((toString n).toList ++ rest) = .ok (.number (.whole n), rest) := by
  have read := readNumber_whole (Whole.toDigits n.natAbs) fits ends
  rw [Text.digitsValue_toDigits] at read
  cases n with
  | ofNat m =>
    rw [toList_toString_ofNat]
    exact read
  | negSucc m =>
    rw [toList_toString_negSucc]
    have plus := head_ne_minus (Whole.toDigits (m + 1)) rest
    exact readNumber_minus plus read

/-- A number whose text starts with a digit or a sign before a digit is none of the words. -/
theorem readScalar_of_digit {cs : List Char} (h : DigitFirst cs) :
    readScalar cs = readNumber cs ∧ readScalar ('-' :: cs) = readNumber ('-' :: cs) := by
  obtain ⟨c, first, digit⟩ := h
  cases cs with
  | nil => cases first
  | cons d cs =>
    cases first
    have other {e : Char} (he : e.isDigit = false) : e ≠ c := by
      intro same
      rw [same, digit] at he
      cases he
    constructor
    · unfold readScalar
      split
      · next same =>
        injection same with same
        exact absurd same.symm (other rfl)
      · have none_found : (words.find? fun word => word.1.isPrefixOf (c :: cs)) = none := by
          simp [words, @other 'n' rfl, @other 't' rfl, @other 'f' rfl, @other 'N' rfl,
            @other 'I' rfl, @other '-' rfl]
        rw [none_found]
    · have none_found : (words.find? fun word => word.1.isPrefixOf ('-' :: c :: cs)) = none := by
        simp [words, @other 'I' rfl]
      unfold readScalar
      split
      · next same => cases same
      · rw [none_found]

theorem DigitFirst.toDigits (n : Nat) (rest : List Char) : DigitFirst (Nat.toDigits 10 n ++ rest) :=
  (Whole.toDigits n).digitFirst rest

theorem readScalar_writeNumber {n : Number} {rest : List Char} (fits : Fits n) (ends : Ends rest) :
    readScalar (writeNumber n ++ rest) = .ok (.number n, rest) := by
  cases n with
  | whole n =>
    rw [← readNumber_toString fits ends]
    cases n with
    | ofNat m =>
      rw [writeNumber, toList_toString_ofNat]
      exact (readScalar_of_digit (.toDigits m rest)).1
    | negSucc m =>
      rw [writeNumber, toList_toString_negSucc]
      exact (readScalar_of_digit (.toDigits (m + 1) rest)).2
  | double x =>
    unfold writeNumber
    simp only
    split
    · next h =>
      rw [Decimal.eq_notANumber h]
      rfl
    · next negative h =>
      rw [Decimal.eq_infinity h]
      cases negative with
      | false => rfl
      | true => rfl
    · next negative mantissa shift h =>
      obtain ⟨cs, y, text, first, signed, read⟩ := text_eq_signed h
      have words := readScalar_of_digit (first.append rest)
      rw [text, Number.signed, String.toList_ofList, ← signed]
      cases negative with
      | false => exact words.1.trans (read rest ends)
      | true =>
        have plus : (cs ++ rest).head? ≠ some '-' := (first.append rest).head_ne rfl
        exact words.2.trans (readNumber_minus plus (read rest ends))

end TreeWalk.Json
