import TreeWalk.Proofs.Number.Decimal
import TreeWalk.Proofs.Value.Comparison

/-!
Integers as doubles. What an operation does with an integer it does with the double that the
integer is converted to, but for comparisons, which round nothing: they tell the two apart where the
integer is no double, by the numbers from one of the two to the other and by no others. Up to
`2 ^ 53` every integer is a double.
-/

set_option autoImplicit false

namespace TreeWalk

namespace Rounding

open Float.Model Float.Model.UnpackedFloat

theorem unpack_pack {u : UnpackedFloat} (shape : Shape u) : (Float.Model.pack u).unpack = u := by
  cases shape with
  | notANumber => rfl
  | infinity s => cases s <;> rfl
  | zero s => cases s <;> rfl
  | finite s canonical greatest => exact unpack_pack_finite canonical greatest s

theorem Shape.neg {u : UnpackedFloat} (shape : Shape u) : Shape u.neg := by
  cases shape with
  | notANumber => exact .notANumber
  | infinity s => exact .infinity _
  | zero s => exact .zero _
  | finite s canonical greatest => exact .finite _ canonical greatest

theorem unpack_neg (x : Float) : (-x).toModel.unpack = x.toModel.unpack.neg :=
  unpack_pack (shape_unpack x.toModel).neg

end Rounding

namespace Number

open Rounding

def Parts.neg : Parts → Parts
  | .nan => .nan
  | .infinite negative => .infinite !negative
  | .finite negative mantissa shift => .finite (!negative) mantissa shift

theorem parts_neg (x : Float) : parts (-x) = (parts x).neg := by
  rw [parts_eq, parts_eq, unpack_neg]
  cases x.toModel.unpack with
  | notANumber => rfl
  | infinity s => cases s <;> rfl
  | zero s => cases s <;> rfl
  | finite s => cases s <;> rfl

/-- An integer becomes the double of its digits with its sign. -/
theorem ofInt_eq (n : Int) :
    Float.ofInt n = Decimal.withSign (decide (n < 0)) (Decimal.mk n.natAbs 0).toFloat := by
  cases n with
  | ofNat n => rfl
  | negSucc n =>
    rw [decide_eq_true (Int.negSucc_lt_zero n)]
    rfl

theorem parts_ofInt_ne_nan (n : Int) : parts (Float.ofInt n) ≠ .nan := by
  have plus := Decimal.unsigned_toFloat (Decimal.mk n.natAbs 0)
  rw [ofInt_eq]
  generalize (Decimal.mk n.natAbs 0).toFloat = x at plus
  intro nan
  cases sign : decide (n < 0) with
  | false =>
    rw [sign, Decimal.withSign, if_neg Bool.false_ne_true] at nan
    rw [nan] at plus
    cases plus
  | true =>
    rw [sign, Decimal.withSign, if_pos rfl, parts_neg] at nan
    cases parts : parts x with
    | nan =>
      rw [parts] at plus
      cases plus
    | infinite =>
      rw [parts] at nan
      cases nan
    | finite =>
      rw [parts] at nan
      cases nan

theorem isNaN_of_toDouble? {n : Int} {x : Float} (converts : (whole n).toDouble? = some x) :
    (double x).isNaN = false := by
  simp only [toDouble?, Option.ite_none_left_eq_some, Option.some.injEq] at converts
  rw [isNaN, ← converts.2, Bool.eq_false_iff, ne_eq, ← parts_eq_nan_iff]
  exact parts_ofInt_ne_nan n

/-- A mantissa and an exponent of a double that make a whole number are those of its double. -/
theorem parts_of_canonical {n m : Nat} {e : Int} (canonical : Canonical m e) (greatest : e ≤ 971)
    (value : (n : ℚ) = m * 2 ^ e) :
    parts (Decimal.mk n 0).toFloat = .finite false m (e + 1074).toNat := by
  have nonzero : n ≠ 0 := by
    rintro rfl
    have positive : (0 : ℚ) < m * 2 ^ e := by
      have : (0 : ℚ) < m := by exact_mod_cast canonical.positive
      positivity
    rw [← value] at positive
    exact lt_irrefl _ positive
  have same : (Decimal.mk n 0).value = m * 2 ^ e := by
    rw [Decimal.value, zpow_zero, mul_one, value]
  rw [parts_eq, Decimal.toFloat_toModel nonzero, same, nearest_of_canonical canonical,
    unpack_pack_finite canonical greatest]
  rfl

theorem units_of_value {n m k : Nat} {e : Int} (value : (n : ℚ) = m * 2 ^ e) (least : 0 ≤ e + k) :
    n * 2 ^ k = m * 2 ^ (e + k).toNat := by
  have shift : (2 : ℚ) ^ (e + k).toNat = 2 ^ e * 2 ^ k := by
    rw [← zpow_natCast, Int.toNat_of_nonneg least, zpow_add₀ (by norm_num), zpow_natCast]
  have cast : ((n * 2 ^ k : Nat) : ℚ) = (m * 2 ^ (e + k).toNat : Nat) := by
    push_cast
    rw [value, shift, mul_assoc]
  exact_mod_cast cast

/-- A whole number of at most `2 ^ 53` is a double. -/
theorem exact_toFloat {n : Nat} (small : n ≤ 2 ^ 53) :
    exact (.double (Decimal.mk n 0).toFloat) = .finite (n * one) := by
  by_cases zero : n = 0
  · have parts := Decimal.parts_of_digits_eq_zero (d := ⟨n, 0⟩) zero false
    rw [Decimal.withSign, if_neg Bool.false_ne_true] at parts
    rw [exact, parts, zero]
    rfl
  · obtain ⟨m, e, canonical, greatest, value⟩ :
        ∃ (m : Nat) (e : Int), Canonical m e ∧ e ≤ 971 ∧ (n : ℚ) = m * 2 ^ e := by
      rcases small.lt_or_eq with less | rfl
      · obtain ⟨m, e, canonical, -, greatest, value⟩ :=
          exists_canonical (Nat.pos_of_ne_zero zero) less
        exact ⟨m, e, canonical, by omega, value⟩
      · exact ⟨2 ^ 52, 1, ⟨by decide, by decide, by decide, .inl le_rfl⟩, by decide, by norm_num⟩
    have least := canonical.least
    have units : n * 2 ^ 1074 = m * 2 ^ (e + 1074).toNat := units_of_value value (by omega)
    rw [exact, parts_of_canonical canonical greatest value, Parts.exact, Nat.shiftLeft_eq, ← units,
      Nat.cast_mul, one, Nat.one_shiftLeft]

theorem exact_neg {x : Float} {units : Int} (h : exact (.double x) = .finite units) :
    exact (.double (-x)) = .finite (-units) := by
  rw [exact] at h ⊢
  rw [parts_neg]
  generalize parts x = p at h
  cases p with
  | nan => cases h
  | infinite negative => cases negative <;> cases h
  | finite negative mantissa shift =>
    cases negative with
    | false =>
      cases h
      rfl
    | true =>
      cases h
      rw [Int.neg_neg]
      rfl

/-- An integer of at most `2 ^ 53` keeps its value. -/
theorem exact_of_toDouble? {n : Int} {x : Float} (converts : (whole n).toDouble? = some x)
    (small : n.natAbs ≤ 2 ^ 53) : exact (.double x) = exact (.whole n) := by
  simp only [toDouble?, Option.ite_none_left_eq_some, Option.some.injEq] at converts
  have plain := exact_toFloat small
  rw [← converts.2, ofInt_eq, Decimal.withSign]
  split
  · next sign =>
    have negative := of_decide_eq_true sign
    rw [exact_neg plain, exact, ← Int.neg_mul, Int.ofNat_natAbs_of_nonpos (by omega), Int.neg_neg]
  · next sign =>
    have nonnegative : ¬ n < 0 := fun negative => sign (decide_eq_true negative)
    rw [plain, exact, Int.natAbs_of_nonneg (by omega)]

/-- Two numbers differ, and a third one lies between them or is one of them. -/
def between (a b m : Number) : Bool :=
  !a.equal b && (a.lessEqual m && m.lessEqual b || b.lessEqual m && m.lessEqual a)

theorem compare_swap (a b : Number) : compare b a = (compare a b).map Ordering.swap := by
  simp only [compare, Exact.compare_eq]
  cases a.exact.rank? with
  | none => cases b.exact.rank? <;> rfl
  | some x =>
    cases b.exact.rank? with
    | none => rfl
    | some y => exact congrArg some (cmp_swap x y).symm

theorem less_eq_compare (a b : Number) : b.less a = (compare a b == some .gt) := by
  rw [less, compare_swap a]
  cases compare a b with
  | none => rfl
  | some o => cases o <;> rfl

theorem cmp_eq_cmp_iff {x y z : Rank} :
    cmp x z = cmp y z ↔ ¬ (x ≠ y ∧ (x ≤ z ∧ z ≤ y ∨ y ≤ z ∧ z ≤ x)) := by
  constructor
  · intro same
    have less : x < z ↔ y < z := by rw [← cmp_eq_lt_iff, ← cmp_eq_lt_iff, same]
    have greater : z < x ↔ z < y := by rw [← cmp_eq_gt_iff, ← cmp_eq_gt_iff, same]
    grind
  · intro apart
    rcases lt_trichotomy y z with less | eq | greater
    · rw [(cmp_eq_lt_iff y z).2 less, cmp_eq_lt_iff]
      grind
    · rw [(cmp_eq_eq_iff y z).2 eq, cmp_eq_eq_iff]
      grind
    · rw [(cmp_eq_gt_iff y z).2 greater, cmp_eq_gt_iff]
      grind

/-- Two numbers compare alike with a third one unless that is between them. -/
theorem compare_eq_iff {a b : Number} (first : a.isNaN = false) (second : b.isNaN = false)
    (m : Number) : compare a m = compare b m ↔ between a b m = false := by
  obtain ⟨x, hx⟩ := exists_rank first
  obtain ⟨y, hy⟩ := exists_rank second
  cases hz : m.rank? with
  | none =>
    have nan : m.isNaN = true := (rank?_eq_none_iff m).1 hz
    have left : (a.isNaN || m.isNaN) = true := by rw [nan, Bool.or_true]
    have right : (b.isNaN || m.isNaN) = true := by rw [nan, Bool.or_true]
    have low : a.lessEqual m = false := by rw [lessEqual, compare_eq_none left]; rfl
    have high : b.lessEqual m = false := by rw [lessEqual, compare_eq_none right]; rfl
    simp [compare_eq_none left, compare_eq_none right, between, low, high]
  | some z =>
    rw [compare_of_rank hx hz, compare_of_rank hy hz, Option.some.injEq, cmp_eq_cmp_iff, between,
      equal_of_rank hx hy, lessEqual_of_rank hx hz, lessEqual_of_rank hz hy,
      lessEqual_of_rank hy hz, lessEqual_of_rank hz hx]
    simp

end Number

namespace Value

/-- An operator sees of a number the double it is converted to, and how it compares. -/
theorem applyBinary_congr {a b : Number} (convert : a.toDouble? = b.toDouble?) {operator : Token}
    {v : Value} (alike : operator.kind ∈ comparisons → ∀ m, v = .number m →
      a.compare m = b.compare m) :
    applyBinary operator (.number a) v = applyBinary operator (.number b) v ∧
      applyBinary operator v (.number a) = applyBinary operator v (.number b) := by
  have shown : toText (.number a) = toText (.number b) := by simp only [toText, text?, convert]
  have joined : formatNumber? a = formatNumber? b := by simp only [formatNumber?, convert]
  obtain ⟨kind, text, line⟩ := operator
  cases v with
  | null | bool | text =>
    cases kind <;> simp only [applyBinary, mismatch, equal, shown, joined, and_self]
  | number m =>
    cases kind with
    | add | subtract | multiply | divide | not | and | or | identifier =>
      simp only [applyBinary, onNumbers?, convert, and_self]
    | equal | notEqual | less | lessEqual | greater | greaterEqual =>
      have left := alike (by simp [comparisons]) m rfl
      have right : m.compare a = m.compare b := by
        rw [Number.compare_swap a, Number.compare_swap b, left]
      simp only [applyBinary, onNumbers?, equal, Number.equal, Number.less, Number.lessEqual, left,
        right, and_self]

/-- Numbers that compare otherwise are told apart by an operator. -/
theorem exists_verdict_ne {a b m : Number} (apart : a.compare m ≠ b.compare m) :
    ∃ k ∈ comparisons, verdict k a m ≠ verdict k b m := by
  by_contra none
  have alike : ∀ k ∈ comparisons, verdict k a m = verdict k b m := by
    intro k member
    by_contra differ
    exact none ⟨k, member, differ⟩
  have less := alike .less (by decide)
  have equal := alike .equal (by decide)
  have greater := alike .greater (by decide)
  rw [verdict_less, verdict_less, Number.less, Number.less, Bool.eq_iff_iff, beq_iff_eq,
    beq_iff_eq] at less
  rw [verdict_equal, verdict_equal, Number.equal, Number.equal, Bool.eq_iff_iff, beq_iff_eq,
    beq_iff_eq] at equal
  rw [verdict_greater, verdict_greater, Number.less_eq_compare, Number.less_eq_compare,
    Bool.eq_iff_iff, beq_iff_eq, beq_iff_eq] at greater
  apply apart
  apply Option.ext
  intro o
  cases o with
  | lt => exact less
  | eq => exact equal
  | gt => exact greater

/-- Two numbers differ, and the value is a number that lies between them or is one of them. -/
def between (a b : Number) : Value → Bool
  | .number m => Number.between a b m
  | _ => false

section

variable {a b : Number} (convert : a.toDouble? = b.toDouble?) (first : a.isNaN = false)
  (second : b.isNaN = false)

include convert first second

/-- The values by which the operators tell two numbers with one double apart. -/
theorem between_eq_false_iff (v : Value) :
    v.between a b = false ↔ ∀ operator : Token,
      applyBinary operator (.number a) v = applyBinary operator (.number b) v ∧
        applyBinary operator v (.number a) = applyBinary operator v (.number b) := by
  constructor
  · intro outside operator
    apply applyBinary_congr convert
    rintro - m rfl
    exact (Number.compare_eq_iff first second m).2 outside
  · intro alike
    cases v with
    | null | bool | text => rfl
    | number m =>
      rw [between, ← Number.compare_eq_iff first second]
      by_contra apart
      obtain ⟨k, member, differ⟩ := exists_verdict_ne apart
      have same := (alike ⟨k, .text k.symbol, 0⟩).1
      rw [applyBinary_of_mem member, applyBinary_of_mem member] at same
      exact differ (Value.bool.inj (Except.ok.inj same))

end

/-- An integer that can be converted to a double and that double have the same type, truth and text,
and divide and go with an operator that compares nothing alike. All operators, equality included,
take them alike but against the numbers from one of the two to the other, and by each of these some
operator tells them apart. Up to `2 ^ 53` there are none. -/
theorem integers_count_as_doubles {n : Int} {x : Float}
    (converts : (Number.whole n).toDouble? = some x) :
    let a : Value := .number (.whole n)
    let b : Value := .number (.double x)
    (a.typeName = b.typeName ∧ a.truthy = b.truthy ∧ a.toText = b.toText ∧ a.format = b.format) ∧
    (∀ v : Value, a.divide v = b.divide v ∧ v.divide a = v.divide b) ∧
    (∀ operator : Token, applyUnary operator a = applyUnary operator b) ∧
    (∀ (operator : Token) (v : Value), operator.kind ∉ comparisons →
      applyBinary operator a v = applyBinary operator b v ∧
        applyBinary operator v a = applyBinary operator v b) ∧
    (∀ v : Value, v.between (.whole n) (.double x) = false ↔ ∀ operator : Token,
      applyBinary operator a v = applyBinary operator b v ∧
        applyBinary operator v a = applyBinary operator v b) ∧
    (∀ v : Value, v.between (.whole n) (.double x) = false →
      a.equal v = b.equal v ∧ v.equal a = v.equal b) ∧
    (n.natAbs ≤ 2 ^ 53 → ∀ v : Value, v.between (.whole n) (.double x) = false) := by
  intro a b
  have convert : (Number.whole n).toDouble? = (Number.double x).toDouble? := converts
  have number : (Number.double x).isNaN = false := Number.isNaN_of_toDouble? converts
  have shown : a.toText = b.toText := by simp only [a, b, toText, text?, convert]
  have double : a.toDouble = b.toDouble := by simp only [a, b, toDouble, convert]
  have outside := between_eq_false_iff convert rfl number
  refine ⟨⟨rfl, rfl, shown, ?_⟩, ?_, ?_, ?_, outside, ?_, ?_⟩
  · rw [format, format, double]
  · intro v
    simp only [divide, double, and_self]
  · rintro ⟨kind, text, line⟩
    cases kind <;> simp only [a, b, applyUnary, shown, convert]
  · intro operator v other
    exact applyBinary_congr convert fun compares => absurd compares other
  · intro v apart
    obtain ⟨left, right⟩ := (outside v).1 apart ⟨.equal, .null, 0⟩
    simp only [applyBinary, Except.ok.injEq, Value.bool.injEq] at left right
    exact ⟨left, right⟩
  · intro small v
    have same := Number.exact_of_toDouble? converts small
    cases v with
    | null | bool | text => rfl
    | number m =>
      rw [between, ← Number.compare_eq_iff rfl number, Number.compare, Number.compare, same]

/-- An integer that is no double, against a number beside the two and against its double. -/
theorem integers_count_as_doubles_odd :
    (Number.whole 9007199254740993).toDouble? = some 9007199254740992 ∧
    (∀ operator : Token,
      applyBinary operator (.number (.whole 9007199254740993)) (.number (.whole 7)) =
          applyBinary operator (.number (.double 9007199254740992)) (.number (.whole 7)) ∧
        applyBinary operator (.number (.whole 7)) (.number (.whole 9007199254740993)) =
          applyBinary operator (.number (.whole 7)) (.number (.double 9007199254740992))) ∧
    ¬ ∀ operator : Token,
      applyBinary operator (.number (.whole 9007199254740993))
            (.number (.double 9007199254740992)) =
          applyBinary operator (.number (.double 9007199254740992))
            (.number (.double 9007199254740992)) ∧
        applyBinary operator (.number (.double 9007199254740992))
            (.number (.whole 9007199254740993)) =
          applyBinary operator (.number (.double 9007199254740992))
            (.number (.double 9007199254740992)) := by
  have converts : (Number.whole 9007199254740993).toDouble? = some 9007199254740992 := by
    decide +kernel
  obtain ⟨-, -, -, -, outside, -, -⟩ := integers_count_as_doubles converts
  have apart : between (.whole 9007199254740993) (.double 9007199254740992)
      (.number (.double 9007199254740992)) = true := by decide +kernel
  refine ⟨converts, (outside _).1 (by decide +kernel), ?_⟩
  intro alike
  rw [(outside _).2 alike] at apart
  cases apart

/-- An integer that is no double differs from its double, and that does not differ from itself. -/
theorem equality_sees_integers :
    (Number.whole 9007199254740993).toDouble? = some 9007199254740992 ∧
    (Value.number (.whole 9007199254740993)).equal (.number (.double 9007199254740992)) = false ∧
    (Value.number (.double 9007199254740992)).equal (.number (.double 9007199254740992)) =
      true := by
  decide +kernel

end Value

end TreeWalk
