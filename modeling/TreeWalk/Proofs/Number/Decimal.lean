import TreeWalk.Number.Shortest
import TreeWalk.Proofs.Number.Double

/-!
Decimals and doubles. The double of a decimal is the one nearest to its exact value, so decimals of
one value are one double, and the digits of a double in full read back as it. The same holds for the
shortest decimal.
-/

set_option autoImplicit false

namespace TreeWalk.Rounding

open Float.Model Float.Model.UnpackedFloat

/-- A whole number of at most 53 bits is some double exactly. -/
theorem exists_canonical {n : Nat} (positive : 0 < n) (fits : n < 2 ^ 53) :
    ∃ (m : Nat) (e : Int), Canonical m e ∧ 2 ^ 52 ≤ m ∧ e ≤ 0 ∧ (n : ℚ) = m * 2 ^ e := by
  have bits : n.log2 ≤ 52 := by
    have := (Nat.log2_lt positive.ne').2 fits
    omega
  have lower := Nat.log2_self_le positive.ne'
  have upper := Nat.lt_log2_self (n := n)
  have split : 2 ^ 52 = 2 ^ n.log2 * 2 ^ (52 - n.log2) := by
    rw [← pow_add]
    congr 1
    omega
  have long : 2 ^ 52 ≤ n * 2 ^ (52 - n.log2) := by
    rw [split]
    exact Nat.mul_le_mul_right _ lower
  have short : n * 2 ^ (52 - n.log2) < 2 ^ 53 := by
    calc n * 2 ^ (52 - n.log2) < 2 ^ (n.log2 + 1) * 2 ^ (52 - n.log2) :=
          Nat.mul_lt_mul_of_pos_right upper (Nat.two_pow_pos _)
      _ = 2 ^ 53 := by
          rw [← pow_add]
          congr 1
          omega
  refine ⟨n * 2 ^ (52 - n.log2), -((52 - n.log2 : Nat) : Int),
    ⟨by omega, short, by omega, .inl long⟩, long, by omega, ?_⟩
  push_cast
  rw [zpow_neg, zpow_natCast]
  field_simp

theorem unpack_toFloat {n : Nat} (positive : 0 < n) (fits : n < 2 ^ 53) :
    ∃ (m : Nat) (e : Int) (h : 0 < m), n.toUInt64.toFloat.toModel.unpack = .finite .positive m e h ∧
      2 ^ 52 ≤ m ∧ (n : ℚ) = m * 2 ^ e := by
  obtain ⟨m, e, canonical, long, small, value⟩ := exists_canonical positive fits
  refine ⟨m, e, canonical.positive, ?_, long, value⟩
  have back : n.toUInt64.toNat = n := UInt64.toNat_ofNat_of_lt (lt_trans fits (by decide))
  change (Float.Model.pack (UnpackedFloat.ofNat Format.binary64 n.toUInt64.toNat)).unpack = _
  rw [back, ofNat_eq positive, value, nearest_of_canonical canonical]
  exact unpack_pack_finite canonical (by omega) _

/-- The mantissa of a power of ten, with the leading bit in place. -/
def tenMantissa (k : Nat) : Nat := 5 ^ k * 2 ^ (52 - (5 ^ k).log2)

def tenExponent (k : Nat) : Int := (k : Int) - ((52 - (5 ^ k).log2 : Nat) : Int)

theorem tenMantissa_pos (k : Nat) : 0 < tenMantissa k := by
  unfold tenMantissa
  positivity

theorem tenMantissa_value (k : Nat) : (tenMantissa k : ℚ) * 2 ^ tenExponent k = 10 ^ k := by
  simp only [tenMantissa, tenExponent]
  push_cast
  rw [zpow_sub₀ (by norm_num), zpow_natCast, zpow_natCast, show (10 : ℚ) = 5 * 2 by norm_num,
    mul_pow]
  field_simp

theorem powersOfTen_eq : ∀ k : Fin 23, Float.exactlyRepresentablePowersOfTen[k].toModel =
    Float.Model.pack (.finite .positive (tenMantissa k) (tenExponent k) (tenMantissa_pos k)) := by
  decide

theorem tenMantissa_bounds : ∀ k : Fin 23, 2 ^ 52 ≤ tenMantissa k ∧ tenMantissa k < 2 ^ 53 ∧
    -1074 ≤ tenExponent k ∧ tenExponent k ≤ 971 := by decide

/-- The powers of ten of the table are exact. -/
theorem unpack_powerOfTen {k : Nat} (inside : k < Float.exactlyRepresentablePowersOfTen.size) :
    Float.exactlyRepresentablePowersOfTen[k].toModel.unpack =
      .finite .positive (tenMantissa k) (tenExponent k) (tenMantissa_pos k) := by
  obtain ⟨long, fits, least, greatest⟩ := tenMantissa_bounds ⟨k, inside⟩
  have entry := powersOfTen_eq ⟨k, inside⟩
  simp only [Fin.getElem_fin] at entry
  rw [entry]
  exact unpack_pack_finite ⟨tenMantissa_pos k, fits, least, .inl long⟩ greatest _

/-- What lies beyond the finite doubles is packed as an infinity. -/
theorem pack_of_large {m : Nat} {e : Int} (positive : 0 < m) (large : 972 ≤ e) (s : Sign) :
    Float.Model.pack (.finite s m e positive) = Float.Model.pack (.infinity s) := by
  have biased : (e + Format.binary64.exponentBias +
      Format.binary64.mantissaBitsWithoutImplicit).toNat = (e + 1075).toNat := by
    change (e + (1023 : Int) + (52 : Int)).toNat = _
    omega
  simp only [Float.Model.pack, UnpackedFloat.pack, biased]
  congr 2
  rw [if_pos (by omega)]

theorem pack_nearest_of_large {v : ℚ} {k : Int} (large : 1025 ≤ k) (lower : (2 : ℚ) ^ k ≤ v)
    (s : Sign) : Float.Model.pack (nearest s v) = Float.Model.pack (.infinity s) := by
  have positive : 0 < v := lt_of_lt_of_le (zpow_pos (by norm_num) _) lower
  have top := le_topBit lower
  have place : lastPlace v = topBit v - 53 := by
    simp only [lastPlace]
    omega
  have whole : 1 ≤ ⌊v / 2 ^ lastPlace v⌋₊ := by
    rw [Nat.one_le_floor_iff, one_le_div (zpow_pos (by norm_num) _)]
    have below := Int.zpow_log_le_self (b := 2) (by norm_num) positive
    push_cast at below
    refine le_trans (zpow_le_zpow_right₀ (by norm_num) ?_) below
    rw [place]
    simp only [topBit]
    omega
  have nonzero : halfEven (v / 2 ^ lastPlace v) ≠ 0 := by
    unfold halfEven
    split
    · omega
    · split <;> omega
  simp only [nearest, nonzero, dite_false]
  split
  · exact pack_of_large _ (by omega) s
  · exact pack_of_large _ (by omega) s

theorem nearest_of_small {v : ℚ} (positive : 0 < v) (upper : v < (2 : ℚ) ^ (-1076 : Int))
    (s : Sign) : nearest s v = .zero s := by
  have top := topBit_le positive upper
  have place : lastPlace v = -1074 := by
    simp only [lastPlace]
    omega
  have small : v / 2 ^ (-1074 : Int) < 1 / 2 := by
    rw [div_lt_iff₀ (zpow_pos (by norm_num) _)]
    refine lt_trans upper ?_
    rw [show (-1076 : Int) = -2 + -1074 by norm_num, zpow_add₀ (by norm_num)]
    apply mul_lt_mul_of_pos_right _ (zpow_pos (by norm_num) _)
    norm_num
  have none : ⌊v / 2 ^ (-1074 : Int)⌋₊ = 0 := by
    apply Nat.floor_eq_zero.2
    linarith
  have zero : halfEven (v / 2 ^ (-1074 : Int)) = 0 := by
    unfold halfEven
    rw [none, Nat.cast_zero, sub_zero, if_pos small]
  simp only [nearest, place, zero, dite_true]

/-- A numeral with any exponent is rounded from its exact value; the two ends of the range, where
the power of ten is not computed, agree with that. -/
theorem pack_ofScientific {n : Nat} (positive : 0 < n) (e : Int) :
    Float.Model.ofScientific n e = Float.Model.pack (nearest .positive (n * 10 ^ e)) := by
  have value : (0 : ℚ) < n := by exact_mod_cast positive
  have one : (1 : ℚ) ≤ n := by exact_mod_cast positive
  simp only [Float.Model.ofScientific, UnpackedFloat.ofScientific, positive.ne', dite_false]
  split
  · next large =>
    change (2 ^ 11 : Int) < e at large
    rw [pack_nearest_of_large (k := 2048) (by norm_num)]
    calc (2 : ℚ) ^ (2048 : Int) ≤ 10 ^ (2048 : Int) := by
          apply zpow_le_zpow_left₀ <;> norm_num
      _ ≤ 10 ^ e := zpow_le_zpow_right₀ (by norm_num) (by omega)
      _ ≤ n * 10 ^ e := le_mul_of_one_le_left (by positivity) one
  · split
    · next small =>
      change e < -((2 ^ 11 : Int) + n.log2) at small
      rw [nearest_of_small (by positivity)]
      have above : (n : ℚ) < 2 ^ ((n.log2 + 1 : Nat) : Int) := by
        rw [zpow_natCast]
        exact_mod_cast Nat.lt_log2_self
      have tenth : (10 : ℚ) ^ e ≤ 2 ^ (3 * e) := by
        have eighth : ((2 : ℚ) ^ (3 : Int)) ^ (-e) ≤ 10 ^ (-e) :=
          zpow_le_zpow_left₀ (by omega) (by norm_num) (by norm_num)
        rw [← zpow_mul, mul_neg, zpow_neg, zpow_neg] at eighth
        exact (inv_le_inv₀ (by positivity) (by positivity)).1 eighth
      calc (n : ℚ) * 10 ^ e < 2 ^ ((n.log2 + 1 : Nat) : Int) * 2 ^ (3 * e) :=
            mul_lt_mul above tenth (by positivity) (by positivity)
        _ = 2 ^ (((n.log2 + 1 : Nat) : Int) + 3 * e) := by rw [zpow_add₀ (by norm_num)]
        _ ≤ 2 ^ (-1076 : Int) := by
            apply zpow_le_zpow_right₀ (by norm_num)
            push_cast
            omega
    · split
      · next nonneg =>
        have same :
            ((n <<< 53 : Nat) : ℚ) * 2 ^ (-53 : Int) * ((10 ^ e.toNat : Nat) * 2 ^ (0 : Int)) =
              n * 10 ^ e := by
          rw [Nat.shiftLeft_eq, zpow_zero, mul_one, zpow_neg]
          push_cast
          rw [← zpow_natCast (10 : ℚ) e.toNat, Int.toNat_of_nonneg nonneg]
          field_simp
        have fine : (-53 : Int) + 0 ≤ lastPlace (((n <<< 53 : Nat) : ℚ) * 2 ^ (-53 : Int) *
            ((10 ^ e.toNat : Nat) * 2 ^ (0 : Int))) := by
          rw [same]
          have lower : (2 : ℚ) ^ (0 : Int) ≤ n * 10 ^ e := by
            rw [zpow_zero]
            have : (1 : ℚ) ≤ 10 ^ e := one_le_zpow₀ (by norm_num) nonneg
            nlinarith
          have := le_topBit lower
          simp only [lastPlace]
          omega
        have product := mul_eq .positive .positive (m := n <<< 53) (n := 10 ^ e.toNat) (d := -53)
          (e := 0) (by rw [Nat.shiftLeft_eq]; positivity) (by positivity) fine
        rw [same] at product
        exact congrArg Float.Model.pack product
      · next negative =>
        have same : (n : ℚ) * 2 ^ (0 : Int) / ((10 ^ (-e).toNat : Nat) * 2 ^ (0 : Int)) =
            n * 10 ^ e := by
          rw [zpow_zero, mul_one, mul_one]
          push_cast
          rw [← zpow_natCast (10 : ℚ) (-e).toNat, Int.toNat_of_nonneg (by omega), zpow_neg,
            div_inv_eq_mul]
        have quotient := div_eq .positive .positive (m := n) (n := 10 ^ (-e).toNat) (d := 0)
          (e := 0) positive (by positivity)
        rw [same] at quotient
        exact congrArg Float.Model.pack quotient

/-- Two mantissas of full length give a product with bits to spare. -/
theorem add_le_lastPlace {m n : Nat} {d e : Int} (hm : 2 ^ 52 ≤ m) (hn : 2 ^ 52 ≤ n) :
    d + e ≤ lastPlace ((m : ℚ) * 2 ^ d * (n * 2 ^ e)) := by
  have first : ((2 ^ 52 : Nat) : ℚ) ≤ m := by exact_mod_cast hm
  have second : ((2 ^ 52 : Nat) : ℚ) ≤ n := by exact_mod_cast hn
  have lower : (2 : ℚ) ^ (104 + d + e) ≤ (m : ℚ) * 2 ^ d * (n * 2 ^ e) := by
    calc (2 : ℚ) ^ (104 + d + e) = (2 ^ 52 : Nat) * 2 ^ d * ((2 ^ 52 : Nat) * 2 ^ e) := by
          rw [zpow_add₀ (by norm_num), zpow_add₀ (by norm_num)]
          push_cast
          ring
      _ ≤ (m : ℚ) * 2 ^ d * (n * 2 ^ e) := by gcongr
  have := le_topBit lower
  simp only [lastPlace]
  omega

/-- A numeral of few digits with a small power of ten is computed from exact doubles; the result is
the same as for all others. -/
theorem ofScientific_toModel {n : Nat} (positive : 0 < n) (negative : Bool) (k : Nat) :
    (Float.ofScientific n negative k).toModel = Float.Model.pack (nearest .positive
      (n * 10 ^ (if negative then -(k : Int) else k))) := by
  unfold Float.ofScientific
  split
  · next small =>
    have inside : k < Float.exactlyRepresentablePowersOfTen.size := by
      have : k < 23 := by omega
      exact this
    obtain ⟨m, e, hm, unpacked, long, value⟩ := unpack_toFloat positive small.1
    have power := unpack_powerOfTen inside
    have powerValue := tenMantissa_value k
    have powerLong := (tenMantissa_bounds ⟨k, inside⟩).1
    cases negative with
    | true =>
      change Float.Model.pack (UnpackedFloat.div Format.binary64 _ _) = _
      rw [unpacked, power, div_eq, ← value, powerValue]
      simp only [if_true, zpow_neg, zpow_natCast]
      rfl
    | false =>
      change Float.Model.pack (UnpackedFloat.mul Format.binary64 _ _) = _
      rw [unpacked, power, mul_eq _ _ _ _ (add_le_lastPlace long powerLong), ← value, powerValue]
      simp only [Bool.false_eq_true, if_false, zpow_natCast]
      rfl
  · change Float.Model.ofScientific n _ = _
    rw [pack_ofScientific positive]
    cases negative with
    | true => simp only [if_true, Int.negOfNat_eq, Int.ofNat_eq_natCast]
    | false => simp only [Bool.false_eq_true, if_false, Int.ofNat_eq_natCast]

theorem ofScientific_zero_toModel (negative : Bool) (k : Nat) :
    (Float.ofScientific 0 negative k).toModel = Float.Model.pack (.zero .positive) := by
  unfold Float.ofScientific
  split
  · next small =>
    have inside : k < Float.exactlyRepresentablePowersOfTen.size := by
      have : k < 23 := by omega
      exact this
    have power := unpack_powerOfTen inside
    have zero : (Nat.toUInt64 0).toFloat.toModel.unpack = .zero .positive := rfl
    cases negative with
    | true =>
      change Float.Model.pack (UnpackedFloat.div Format.binary64 _ _) = _
      rw [zero, power]
      rfl
    | false =>
      change Float.Model.pack (UnpackedFloat.mul Format.binary64 _ _) = _
      rw [zero, power]
      rfl
  · rfl

end TreeWalk.Rounding

namespace TreeWalk.Decimal

open Rounding

def value (d : Decimal) : ℚ := d.digits * 10 ^ d.exponent

theorem toFloat_toModel {d : Decimal} (nonzero : d.digits ≠ 0) :
    d.toFloat.toModel = Float.Model.pack (nearest .positive d.value) := by
  have sign : (if decide (d.exponent < 0) then -(d.exponent.natAbs : Int) else d.exponent.natAbs) =
      d.exponent := by
    split
    · next negative =>
      have := of_decide_eq_true negative
      omega
    · next nonneg =>
      have : ¬ d.exponent < 0 := by simpa using nonneg
      omega
  unfold toFloat
  rw [ofScientific_toModel (Nat.pos_of_ne_zero nonzero), sign]
  rfl

theorem value_eq_zero_iff (d : Decimal) : d.value = 0 ↔ d.digits = 0 := by
  have power : (10 : ℚ) ^ d.exponent ≠ 0 := zpow_ne_zero _ (by norm_num)
  simp [value, power]

theorem toFloat_congr {d d' : Decimal} (same : d.value = d'.value) : d.toFloat = d'.toFloat := by
  suffices d.toFloat.toModel = d'.toFloat.toModel from congrArg Float.ofModel this
  by_cases zero : d.digits = 0
  · have zero' : d'.digits = 0 := by rwa [← value_eq_zero_iff, ← same, value_eq_zero_iff]
    unfold toFloat
    rw [zero, zero', ofScientific_zero_toModel, ofScientific_zero_toModel]
  · have nonzero : d'.digits ≠ 0 := by
      rwa [ne_eq, ← value_eq_zero_iff, ← same, value_eq_zero_iff]
    rw [toFloat_toModel zero, toFloat_toModel nonzero, same]

theorem ofParts_value (mantissa shift : Nat) :
    (ofParts mantissa shift).value = mantissa * 2 ^ ((shift : Int) - 1074) := by
  unfold ofParts value
  split
  · next large =>
    rw [Nat.shiftLeft_eq]
    push_cast
    rw [mul_one, ← zpow_natCast, Nat.cast_sub large]
    rfl
  · next small =>
    have gap : (shift : Int) - 1074 = -((1074 - shift : Nat) : Int) := by omega
    rw [gap]
    generalize 1074 - shift = k
    simp only [Nat.pow_eq]
    push_cast
    rw [zpow_neg, zpow_neg, zpow_natCast, zpow_natCast, show (10 : ℚ) = 5 * 2 by norm_num, mul_pow]
    field_simp

/-- A double with the sign of another one. -/
def withSign (negative : Bool) (x : Float) : Float := if negative then -x else x

theorem withSign_of_unpack {x y : Float} {s : Float.Model.UnpackedFloat.Sign}
    {u : Float.Model.UnpackedFloat}
    (hy : y.toModel.unpack = u) (hx : x.toModel.unpack = if isNegative s then u.neg else u) :
    withSign (isNegative s) y = x := by
  suffices (withSign (isNegative s) y).toModel = x.toModel from congrArg Float.ofModel this
  cases s with
  | positive =>
    rw [← pack_unpack x.toModel, hx, ← hy]
    exact (pack_unpack y.toModel).symm
  | negative =>
    rw [← pack_unpack x.toModel, hx, ← hy]
    rfl

/-- The digits of a finite double in full read back as it. -/
theorem toFloat_ofParts {x : Float} {negative : Bool} {mantissa shift : Nat}
    (h : Number.parts x = .finite negative mantissa shift) :
    withSign negative (ofParts mantissa shift).toFloat = x := by
  rw [parts_eq] at h
  have shape := shape_unpack x.toModel
  revert h
  generalize unpacked : x.toModel.unpack = u at shape
  cases shape with
  | notANumber =>
    intro h
    cases h
  | infinity s =>
    intro h
    cases h
  | zero s =>
    intro h
    simp only [partsOf, Number.Parts.finite.injEq] at h
    obtain ⟨rfl, rfl, rfl⟩ := h
    have digits : (ofParts 0 0).toFloat.toModel.unpack = .zero .positive := by
      have none_left : (ofParts 0 0).digits = 0 := by
        have value := ofParts_value 0 0
        rwa [Nat.cast_zero, zero_mul, value_eq_zero_iff] at value
      rw [toFloat, none_left, ofScientific_zero_toModel]
      rfl
    apply withSign_of_unpack digits
    rw [unpacked]
    cases s <;> rfl
  | @finite s m e canonical greatest =>
    intro h
    simp only [partsOf, Number.Parts.finite.injEq] at h
    obtain ⟨rfl, rfl, rfl⟩ := h
    have least := canonical.least
    have value := ofParts_value m (e + 1074).toNat
    rw [show (((e + 1074).toNat : Nat) : Int) - 1074 = e by omega] at value
    have nonzero : (ofParts m (e + 1074).toNat).digits ≠ 0 := by
      rw [ne_eq, ← value_eq_zero_iff, value]
      have : (0 : ℚ) < m := by exact_mod_cast canonical.positive
      positivity
    have digits : (ofParts m (e + 1074).toNat).toFloat.toModel.unpack =
        .finite .positive m e canonical.positive := by
      rw [toFloat_toModel nonzero, value, nearest_of_canonical canonical,
        unpack_pack_finite canonical greatest]
    apply withSign_of_unpack digits
    rw [unpacked]
    cases s <;> rfl

theorem eq_notANumber {x : Float} (h : Number.parts x = .nan) : x = Numeral.notANumber := by
  suffices x.toModel = Numeral.notANumber.toModel from congrArg Float.ofModel this
  rw [parts_eq] at h
  rw [← pack_unpack x.toModel]
  have shape := shape_unpack x.toModel
  revert h
  generalize x.toModel.unpack = u at shape
  intro h
  cases shape with
  | notANumber => decide
  | infinity => cases h
  | zero => cases h
  | finite => cases h

theorem eq_infinity {x : Float} {negative : Bool} (h : Number.parts x = .infinite negative) :
    x = withSign negative Numeral.infinity := by
  suffices x.toModel = (withSign negative Numeral.infinity).toModel from congrArg Float.ofModel this
  rw [parts_eq] at h
  rw [← pack_unpack x.toModel]
  have shape := shape_unpack x.toModel
  revert h
  generalize x.toModel.unpack = u at shape
  intro h
  cases shape with
  | notANumber => cases h
  | infinity s =>
    cases h
    cases s <;> decide
  | zero => cases h
  | finite => cases h

theorem trimZeros_value (d : Decimal) (fuel : Nat) : (d.trimZeros fuel).value = d.value := by
  induction fuel generalizing d with
  | zero => rfl
  | succ fuel ih =>
    unfold trimZeros
    split
    · next zeros =>
      rw [ih]
      have split : (d.digits : ℚ) = 10 * (d.digits / 10 : Nat) := by
        exact_mod_cast (Nat.mul_div_cancel' (Nat.dvd_of_mod_eq_zero zeros.2)).symm
      simp only [value]
      rw [split, zpow_add₀ (by norm_num), zpow_one]
      ring
    · rfl

theorem toFloat_of_tested {x : Float} {d first second : Decimal}
    (h : (if first.toFloat = x then some first
      else if second.toFloat = x then some second else none) = some d) : d.toFloat = x := by
  split at h
  · next hit => rwa [← Option.some.inj h]
  · split at h
    · next hit => rwa [← Option.some.inj h]
    · exact absurd h (by simp)

theorem toFloat_of_neighbour? {x : Float} {q : Fraction} {e : Int} {d : Decimal}
    (h : neighbour? x q e = some d) : d.toFloat = x :=
  toFloat_of_tested h

theorem toFloat_of_shortestFrom {x : Float} {q : Fraction} {digits tries : Nat} {d : Decimal}
    (h : shortestFrom x q digits tries = some d) : d.toFloat = x := by
  induction tries generalizing digits with
  | zero => simp [shortestFrom] at h
  | succ tries ih =>
    rw [shortestFrom] at h
    cases found : neighbour? x q (q.magnitude - digits) with
    | some d' =>
      rw [found, Option.orElse_some] at h
      rw [← Option.some.inj h]
      exact toFloat_of_neighbour? found
    | none =>
      rw [found, Option.orElse_none] at h
      exact ih h

theorem toFloat_shortest (mantissa shift : Nat) :
    (shortest mantissa shift).toFloat = (ofParts mantissa shift).toFloat := by
  unfold shortest
  simp only
  split
  · next found =>
    rw [toFloat_congr (trimZeros_value _ _)]
    exact toFloat_of_shortestFrom found
  · rfl

theorem parts_of_digits_eq_zero {d : Decimal} (zero : d.digits = 0) (negative : Bool) :
    Number.parts (withSign negative d.toFloat) = .finite negative 0 0 := by
  have plus : d.toFloat = Float.ofModel (Float.Model.pack (.zero .positive)) := by
    suffices d.toFloat.toModel = Float.Model.pack (.zero .positive) from congrArg Float.ofModel this
    rw [toFloat, zero, ofScientific_zero_toModel]
  rw [plus]
  cases negative <;> decide

/-- The shortest decimal of a double other than zero has a digit other than zero. -/
theorem shortest_digits_pos {x : Float} {negative : Bool} {mantissa shift : Nat}
    (h : Number.parts x = .finite negative mantissa shift) (nonzero : mantissa ≠ 0) :
    0 < (shortest mantissa shift).digits := by
  rw [Nat.pos_iff_ne_zero]
  intro zero
  have parts := parts_of_digits_eq_zero zero negative
  rw [toFloat_shortest, toFloat_ofParts h, h] at parts
  injection parts with _ same
  exact nonzero same

theorem unsigned_toFloat (d : Decimal) : unsigned (Number.parts d.toFloat) = true := by
  by_cases zero : d.digits = 0
  · have parts := parts_of_digits_eq_zero zero false
    rw [withSign, if_neg (by decide)] at parts
    rw [parts]
    rfl
  · rw [parts_eq, toFloat_toModel zero]
    exact unsigned_pack_nearest d.value

theorem toFloat_of_large {d : Decimal} (large : (2 : ℚ) ^ (1025 : Int) ≤ d.value) :
    d.toFloat = Numeral.infinity := by
  suffices d.toFloat.toModel = Numeral.infinity.toModel from congrArg Float.ofModel this
  have positive : (0 : ℚ) < d.value := lt_of_lt_of_le (zpow_pos (by norm_num) _) large
  have nonzero : d.digits ≠ 0 := by
    rw [ne_eq, ← value_eq_zero_iff]
    exact positive.ne'
  rw [toFloat_toModel nonzero, pack_nearest_of_large (le_refl _) large]
  decide

/-- A decimal that is read as the double. -/
def ofUnsigned (x : Float) : Decimal :=
  match Number.parts x with
  | .finite _ mantissa shift => ofParts mantissa shift
  | _ => ⟨10 ^ 400, 0⟩

theorem toFloat_ofUnsigned {x : Float} (h : unsigned (Number.parts x) = true) :
    (ofUnsigned x).toFloat = x := by
  unfold ofUnsigned
  split
  · next negative mantissa shift parts =>
    rw [parts] at h
    have plus : negative = false := by simpa [unsigned] using h
    have read := toFloat_ofParts parts
    rwa [plus, withSign, if_neg (by decide)] at read
  · next infinite =>
    have large : (2 : ℚ) ^ (1025 : Int) ≤ (⟨10 ^ 400, 0⟩ : Decimal).value := by
      calc
        (2 : ℚ) ^ (1025 : Int) = (2 ^ 41) ^ 25 := by rw [← pow_mul, ← zpow_natCast]; rfl
        _ ≤ (10 ^ 16) ^ 25 := pow_le_pow_left₀ (by norm_num) (by norm_num) 25
        _ = (⟨10 ^ 400, 0⟩ : Decimal).value := by
          rw [value, ← pow_mul, zpow_zero, mul_one, Nat.cast_pow, Nat.cast_ofNat]
    rw [toFloat_of_large large]
    cases parts : Number.parts x with
    | nan =>
      rw [parts] at h
      cases h
    | infinite negative =>
      rw [parts] at h
      have plus : negative = false := by simpa [unsigned] using h
      rw [eq_infinity parts, plus, withSign, if_neg (by decide)]
    | finite negative mantissa shift => exact absurd parts (infinite _ _ _)

end TreeWalk.Decimal
