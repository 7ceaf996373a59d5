import Mathlib
import TreeWalk.Number.Decimal

/-!
The double nearest to a fraction. The arithmetic of doubles keeps a mantissa with a round bit and a
sticky bit; here this is read as a place among the rational numbers. Products and quotients of
exact doubles, and numerals with any exponent, are all rounded by one function of the exact value,
so a numeral stands for the same double however it is written.
-/

set_option autoImplicit false

namespace TreeWalk.Rounding

open Float.Model Float.Model.UnpackedFloat

/-- The nearest whole number, the even one of two. -/
def halfEven (x : ℚ) : Nat :=
  if x - ⌊x⌋₊ < 1 / 2 then ⌊x⌋₊
  else if x - ⌊x⌋₊ = 1 / 2 then ⌊x⌋₊ + ⌊x⌋₊ % 2
  else ⌊x⌋₊ + 1

/-- A mantissa and its two residual bits tell where `x` lies: above the mantissa by less than one,
on which side of the half, and whether exactly at one of the two marks. -/
structure Locates (em : ExtendedMantissa) (x : ℚ) : Prop where
  lower : em.mantissa ≤ x
  upper : x < em.mantissa + 1
  round : em.roundBit = true ↔ em.mantissa + 1 / 2 ≤ x
  sticky : em.stickyBit = true ↔ x ≠ em.mantissa ∧ x ≠ em.mantissa + 1 / 2

namespace Locates

variable {em : ExtendedMantissa} {x : ℚ}

theorem floor (h : Locates em x) : ⌊x⌋₊ = em.mantissa :=
  (Nat.floor_eq_iff (le_trans (Nat.cast_nonneg _) h.lower)).2 ⟨h.lower, h.upper⟩

/-- One of the two bits is set unless the mantissa is exact. -/
theorem inexact_iff (h : Locates em x) :
    (em.roundBit || em.stickyBit) = true ↔ x ≠ em.mantissa := by
  rw [Bool.or_eq_true, h.round, h.sticky]
  constructor
  · rintro (half | ⟨ne, -⟩)
    · intro same
      rw [same] at half
      linarith
    · exact ne
  · intro ne
    by_cases half : em.mantissa + 1 / 2 ≤ x
    · exact Or.inl half
    · refine Or.inr ⟨ne, ?_⟩
      intro same
      exact half same.ge

theorem shiftRightOne (h : Locates em x) : Locates em.shiftRightOne (x / 2) := by
  have split : (em.mantissa : ℚ) = 2 * (em.mantissa / 2 : Nat) + (em.mantissa % 2 : Nat) := by
    exact_mod_cast (Nat.div_add_mod em.mantissa 2).symm
  have lower := h.lower
  have upper := h.upper
  have inexact := h.inexact_iff
  have rest : em.mantissa % 2 = 0 ∨ em.mantissa % 2 = 1 := by omega
  constructor
  · simp only [ExtendedMantissa.shiftRightOne]
    have : (0 : ℚ) ≤ (em.mantissa % 2 : Nat) := Nat.cast_nonneg _
    linarith
  · simp only [ExtendedMantissa.shiftRightOne]
    have : ((em.mantissa % 2 : Nat) : ℚ) ≤ 1 := by exact_mod_cast (by omega : em.mantissa % 2 ≤ 1)
    linarith
  · simp only [ExtendedMantissa.shiftRightOne]
    rcases rest with even | odd
    · rw [even] at split ⊢
      push_cast at split
      simp only [bne_self_eq_false, Bool.false_eq_true, false_iff, not_le]
      linarith
    · rw [odd] at split ⊢
      push_cast at split
      simp only [Nat.one_ne_zero, bne_iff_ne, ne_eq, not_false_eq_true, true_iff]
      linarith
  · simp only [ExtendedMantissa.shiftRightOne]
    rw [inexact]
    rcases rest with even | odd
    · rw [even] at split
      push_cast at split
      constructor
      · intro ne
        constructor
        · intro same
          apply ne
          linarith
        · intro same
          linarith
      · rintro ⟨ne, -⟩ same
        apply ne
        linarith
    · rw [odd] at split
      push_cast at split
      constructor
      · intro ne
        constructor
        · intro same
          linarith
        · intro same
          apply ne
          linarith
      · rintro ⟨-, ne⟩ same
        apply ne
        linarith

theorem shiftRight (h : Locates em x) (k : Nat) : Locates (em >>> k) (x / 2 ^ k) := by
  induction k with
  | zero => simpa [HShiftRight.hShiftRight, Nat.repeat] using h
  | succ k ih =>
    have halved := ih.shiftRightOne
    rw [div_div, ← pow_succ] at halved
    exact halved

theorem roundedMantissa (h : Locates em x) : em.roundedMantissa = halfEven x := by
  have floor := h.floor
  have lower := h.lower
  have upper := h.upper
  have round := h.round
  have sticky := h.sticky
  unfold halfEven
  rw [floor]
  obtain ⟨mantissa, roundBit, stickyBit⟩ := em
  simp only at lower upper round sticky floor ⊢
  cases roundBit <;> cases stickyBit <;>
    simp only [Bool.false_eq_true, false_iff, true_iff, not_le, not_and_or, not_ne_iff]
      at round sticky
  · have exact : x = mantissa := by
      rcases sticky with same | half
      · exact same
      · linarith
    rw [if_pos (by rw [exact]; norm_num)]
    rfl
  · rw [if_pos (by linarith)]
    rfl
  · have half : x = mantissa + 1 / 2 := by
      rcases sticky with same | half
      · linarith
      · exact half
    rw [if_neg (by rw [half]; norm_num), if_pos (by rw [half]; ring)]
    rfl
  · have above : x - mantissa ≠ 1 / 2 := by
      intro same
      apply sticky.2
      linarith
    rw [if_neg (by linarith), if_neg above]
    rfl

end Locates

/-- The place of the leading bit: `v` lies below `2 ^ topBit v` and not below half of it. -/
def topBit (v : ℚ) : Int := Int.log 2 v + 1

theorem topBit_eq {v : ℚ} {k : Int} (lower : (2 : ℚ) ^ (k - 1) ≤ v) (upper : v < (2 : ℚ) ^ k) :
    topBit v = k := by
  have positive : 0 < v := lt_of_lt_of_le (zpow_pos (by norm_num) _) lower
  have below := Int.zpow_log_le_self (b := 2) (by norm_num) positive
  have above := Int.lt_zpow_succ_log_self (b := 2) (by norm_num) v
  push_cast at below above
  have first := (zpow_lt_zpow_iff_right₀ (by norm_num : (1 : ℚ) < 2)).1 (lt_of_le_of_lt below upper)
  have second := (zpow_lt_zpow_iff_right₀ (by norm_num : (1 : ℚ) < 2)).1
    (lt_of_le_of_lt lower above)
  simp only [topBit]
  omega

theorem le_topBit {v : ℚ} {k : Int} (lower : (2 : ℚ) ^ k ≤ v) : k + 1 ≤ topBit v := by
  have above := Int.lt_zpow_succ_log_self (b := 2) (by norm_num) v
  push_cast at above
  have := (zpow_lt_zpow_iff_right₀ (by norm_num : (1 : ℚ) < 2)).1 (lt_of_le_of_lt lower above)
  simp only [topBit]
  omega

theorem topBit_le {v : ℚ} {k : Int} (positive : 0 < v) (upper : v < (2 : ℚ) ^ k) :
    topBit v ≤ k := by
  have below := Int.zpow_log_le_self (b := 2) (by norm_num) positive
  push_cast at below
  have := (zpow_lt_zpow_iff_right₀ (by norm_num : (1 : ℚ) < 2)).1 (lt_of_le_of_lt below upper)
  simp only [topBit]
  omega

/-- The exponent of the last bit that a double near `v` has. -/
def lastPlace (v : ℚ) : Int := max (topBit v - 53) (-1074)

/-- The double nearest to a positive value, beyond the finite ones too. -/
def nearest (s : Sign) (v : ℚ) : UnpackedFloat :=
  let m := halfEven (v / 2 ^ lastPlace v)
  if h : m = 0 then .zero s
  else if m < 2 ^ 53 then .finite s m (lastPlace v) (Nat.pos_of_ne_zero h)
  else .finite s (2 ^ 52) (lastPlace v + 1) (by decide)

theorem halfEven_le {x : ℚ} {n : Nat} (nonneg : 0 ≤ x) (h : x < n) : halfEven x ≤ n := by
  have floor : ⌊x⌋₊ < n := (Nat.floor_lt nonneg).2 h
  unfold halfEven
  split
  · omega
  · split <;> omega

theorem halfEven_natCast (n : Nat) : halfEven n = n := by
  unfold halfEven
  rw [Nat.floor_natCast, sub_self, if_pos (by norm_num)]

theorem targetExponent_eq (t : Int) : Format.binary64.targetExponent t = max (t - 53) (-1074) := by
  simp only [Format.targetExponent, Format.mantissaBits, Format.minExponent]
  norm_num

/-- A mantissa and an accuracy stand for `x`. -/
def Stands (m : Nat) (acc : Accuracy) (x : ℚ) : Prop :=
  Locates (.ofMantissaAndAccuracy m acc) x

theorem mantissa_ofMantissaAndAccuracy (m : Nat) (acc : Accuracy) :
    (ExtendedMantissa.ofMantissaAndAccuracy m acc).mantissa = m := by
  cases acc with
  | exact => rfl
  | inexact side => cases side <;> rfl

theorem Stands.exact (m : Nat) : Stands m .exact m := by
  constructor <;> simp [ExtendedMantissa.ofMantissaAndAccuracy]

theorem Stands.lower {m : Nat} {acc : Accuracy} {x : ℚ} (h : Stands m acc x) : m ≤ x := by
  have := Locates.lower h
  rwa [mantissa_ofMantissaAndAccuracy] at this

theorem Stands.upper {m : Nat} {acc : Accuracy} {x : ℚ} (h : Stands m acc x) : x < m + 1 := by
  have := Locates.upper h
  rwa [mantissa_ofMantissaAndAccuracy] at this

/-- The leading bit of a value is that of its mantissa, if there is one. -/
theorem topBit_of_stands {m : Nat} {e : Int} {acc : Accuracy} {v : ℚ} (nonzero : m ≠ 0)
    (h : Stands m acc (v / 2 ^ e)) : topBit v = totalExponent m e := by
  have power : (0 : ℚ) < 2 ^ e := zpow_pos (by norm_num) e
  have lower : (m : ℚ) * 2 ^ e ≤ v := (le_div_iff₀ power).1 h.lower
  have upper : v < ((m : ℚ) + 1) * 2 ^ e := (div_lt_iff₀ power).1 h.upper
  have least : ((2 ^ m.log2 : Nat) : ℚ) ≤ m := by exact_mod_cast Nat.log2_self_le nonzero
  have greatest : (m : ℚ) + 1 ≤ ((2 ^ (m.log2 + 1) : Nat) : ℚ) := by
    exact_mod_cast Nat.lt_log2_self
  push_cast at least greatest
  apply topBit_eq
  · calc (2 : ℚ) ^ (totalExponent m e - 1) = 2 ^ m.log2 * 2 ^ e := by
          rw [← zpow_natCast, ← zpow_add₀ (by norm_num)]
          congr 1
          simp only [totalExponent]
          omega
      _ ≤ m * 2 ^ e := by gcongr
      _ ≤ v := lower
  · calc v < ((m : ℚ) + 1) * 2 ^ e := upper
      _ ≤ 2 ^ (m.log2 + 1) * 2 ^ e := by gcongr
      _ = 2 ^ totalExponent m e := by
          rw [← zpow_natCast, ← zpow_add₀ (by norm_num)]
          congr 1

/-- The exponent that rounding aims at is that of the last place, if the mantissa is fine enough. -/
theorem targetExponent_of_stands {m : Nat} {e : Int} {acc : Accuracy} {v : ℚ} (positive : 0 < v)
    (h : Stands m acc (v / 2 ^ e)) (fine : e ≤ lastPlace v) :
    Format.binary64.targetExponent (totalExponent m e) = lastPlace v := by
  rw [targetExponent_eq]
  by_cases zero : m = 0
  · -- No bit of the value is left: it lies below `2 ^ e`, so only the least place can be meant.
    subst zero
    have upper := h.upper
    rw [Nat.cast_zero, zero_add, div_lt_iff₀ (zpow_pos (by norm_num) e), one_mul] at upper
    have small := topBit_le positive upper
    simp only [lastPlace] at fine ⊢
    simp only [totalExponent, Nat.log2_zero]
    omega
  · rw [← topBit_of_stands zero h]
    rfl

theorem shiftToTargetExponent_exponent {m : Nat} {e : Int} {acc : Accuracy} {v : ℚ}
    (positive : 0 < v) (h : Stands m acc (v / 2 ^ e)) (fine : e ≤ lastPlace v) :
    (shiftToTargetExponent Format.binary64 m e acc).2 = lastPlace v := by
  have target := targetExponent_of_stands positive h fine
  simp only [shiftToTargetExponent, shiftToExponent, target]
  omega

theorem shiftToTargetExponent_rounded {m : Nat} {e : Int} {acc : Accuracy} {v : ℚ}
    (positive : 0 < v) (h : Stands m acc (v / 2 ^ e)) (fine : e ≤ lastPlace v) :
    (shiftToTargetExponent Format.binary64 m e acc).1.roundedMantissa =
      halfEven (v / 2 ^ lastPlace v) := by
  have target := targetExponent_of_stands positive h fine
  have shifted := Locates.shiftRight h (lastPlace v - e).toNat
  simp only [shiftToTargetExponent, shiftToExponent, target]
  rw [shifted.roundedMantissa]
  congr 1
  rw [div_div, ← zpow_natCast, ← zpow_add₀ (by norm_num)]
  congr 2
  omega

theorem shiftToTargetExponent_of_lt {m : Nat} {e : Int} (fits : m < 2 ^ 53) (least : -1074 ≤ e) :
    shiftToTargetExponent Format.binary64 m e .exact = (⟨m, false, false⟩, e) := by
  have bits : m.log2 ≤ 52 := by
    by_cases zero : m = 0
    · simp [zero]
    · have := (Nat.log2_lt zero).2 fits
      omega
  have still : (Format.binary64.targetExponent (totalExponent m e) - e).toNat = 0 := by
    rw [targetExponent_eq]
    simp only [totalExponent]
    omega
  simp only [shiftToTargetExponent, shiftToExponent, still]
  simp [HShiftRight.hShiftRight, Nat.repeat, ExtendedMantissa.ofMantissaAndAccuracy]

/-- A mantissa that rounding made one bit too long is halved. -/
theorem shiftToTargetExponent_carry {e : Int} (least : -1074 ≤ e) :
    shiftToTargetExponent Format.binary64 (2 ^ 53) e .exact = (⟨2 ^ 52, false, false⟩, e + 1) := by
  have once : (Format.binary64.targetExponent (totalExponent (2 ^ 53) e) - e).toNat = 1 := by
    rw [targetExponent_eq]
    simp only [totalExponent, Nat.log2_two_pow]
    omega
  simp only [shiftToTargetExponent, shiftToExponent, once]
  rfl

/-- Rounding is a function of the exact value, however finely the mantissa was given. -/
theorem roundWithAccuracy_eq (s : Sign) {m : Nat} {e : Int} {acc : Accuracy} {v : ℚ}
    (positive : 0 < v) (h : Stands m acc (v / 2 ^ e)) (fine : e ≤ lastPlace v) :
    roundWithAccuracy Format.binary64 s m e acc = nearest s v := by
  have least : -1074 ≤ lastPlace v := le_max_right _ _
  have rounded := shiftToTargetExponent_rounded positive h fine
  have exponent := shiftToTargetExponent_exponent positive h fine
  have short : halfEven (v / 2 ^ lastPlace v) ≤ 2 ^ 53 := by
    have power : (0 : ℚ) < 2 ^ lastPlace v := zpow_pos (by norm_num) _
    apply halfEven_le (by positivity)
    rw [div_lt_iff₀ power]
    have above := Int.lt_zpow_succ_log_self (b := 2) (by norm_num) v
    push_cast at above ⊢
    calc v < 2 ^ topBit v := above
      _ ≤ 2 ^ (53 + lastPlace v) := by
          apply zpow_le_zpow_right₀ (by norm_num)
          simp only [lastPlace]
          omega
      _ = 2 ^ 53 * 2 ^ lastPlace v := by
          rw [zpow_add₀ (by norm_num)]
          norm_num
  simp only [roundWithAccuracy, rounded, exponent, nearest]
  by_cases fits : halfEven (v / 2 ^ lastPlace v) < 2 ^ 53
  · simp only [shiftToTargetExponent_of_lt fits least, fits, if_true]
  · have carry : halfEven (v / 2 ^ lastPlace v) = 2 ^ 53 := by omega
    simp only [carry, shiftToTargetExponent_carry least]
    rfl

/-- A quotient of whole numbers stands where the remainder says. -/
theorem Stands.div (n d : Nat) (nonzero : 0 < d) :
    Stands (n / d) (accuracyOfFraction (n % d) d) ((n : ℚ) / d) := by
  have positive : (0 : ℚ) < d := by exact_mod_cast nonzero
  have split : (n : ℚ) = d * (n / d : Nat) + (n % d : Nat) := by
    exact_mod_cast (Nat.div_add_mod n d).symm
  have below : ((n % d : Nat) : ℚ) < d := by exact_mod_cast Nat.mod_lt n nonzero
  have place : (n : ℚ) / d = (n / d : Nat) + (n % d : Nat) / d := by
    rw [split]
    field_simp
  rw [place]
  generalize n / d = q at *
  generalize n % d = r at *
  unfold accuracyOfFraction
  split
  · next zero =>
    subst zero
    simpa using Stands.exact q
  · next some_left =>
    have above : (0 : ℚ) < (r : ℚ) / d := by
      have : (0 : ℚ) < r := by exact_mod_cast Nat.pos_of_ne_zero some_left
      positivity
    have short : (r : ℚ) / d < 1 := (div_lt_one positive).2 below
    cases order : compare (2 * r) d with
    | lt =>
      have half : (r : ℚ) / d < 1 / 2 := by
        rw [div_lt_div_iff₀ positive (by norm_num)]
        have : ((2 * r : Nat) : ℚ) < d := by exact_mod_cast Nat.compare_eq_lt.1 order
        push_cast at this
        linarith
      constructor <;> simp only [ExtendedMantissa.ofMantissaAndAccuracy]
      · linarith
      · linarith
      · simp only [Bool.false_eq_true, false_iff, not_le]
        linarith
      · simp only [true_iff]
        constructor <;> intro same <;> linarith
    | eq =>
      have half : (r : ℚ) / d = 1 / 2 := by
        rw [div_eq_div_iff positive.ne' (by norm_num)]
        have : ((2 * r : Nat) : ℚ) = d := by exact_mod_cast Nat.compare_eq_eq.1 order
        push_cast at this
        linarith
      constructor <;> simp only [ExtendedMantissa.ofMantissaAndAccuracy]
      · linarith
      · linarith
      · simp only [true_iff]
        linarith
      · simp only [Bool.false_eq_true, false_iff, not_and_or, not_ne_iff]
        right
        linarith
    | gt =>
      have half : 1 / 2 < (r : ℚ) / d := by
        rw [div_lt_div_iff₀ (by norm_num) positive]
        have : (d : ℚ) < (2 * r : Nat) := by exact_mod_cast Nat.compare_eq_gt.1 order
        push_cast at this
        linarith
      constructor <;> simp only [ExtendedMantissa.ofMantissaAndAccuracy]
      · linarith
      · linarith
      · simp only [true_iff]
        linarith
      · simp only [true_iff]
        constructor <;> intro same <;> linarith

theorem lastPlace_mono {v : ℚ} {k : Int} (h : k ≤ topBit v) :
    max (k - 53) (-1074) ≤ lastPlace v := by
  simp only [lastPlace]
  omega

theorem mul_eq (s t : Sign) {m n : Nat} {d e : Int} (hm : 0 < m) (hn : 0 < n)
    (fine : d + e ≤ lastPlace ((m : ℚ) * 2 ^ d * (n * 2 ^ e))) :
    mul Format.binary64 (.finite s m d hm) (.finite t n e hn) =
      nearest (s * t) ((m : ℚ) * 2 ^ d * (n * 2 ^ e)) := by
  have first : (0 : ℚ) < m := by exact_mod_cast hm
  have second : (0 : ℚ) < n := by exact_mod_cast hn
  apply roundWithAccuracy_eq
  · positivity
  · have exact := Stands.exact (m * n)
    have same : (m : ℚ) * 2 ^ d * (n * 2 ^ e) / 2 ^ (d + e) = (m * n : Nat) := by
      rw [zpow_add₀ (by norm_num)]
      push_cast
      field_simp
    rwa [same]
  · exact fine

theorem bounds_of_totalExponent {m : Nat} (positive : 0 < m) (e : Int) :
    (2 : ℚ) ^ (totalExponent m e - 1) ≤ m * 2 ^ e ∧ (m : ℚ) * 2 ^ e < 2 ^ totalExponent m e := by
  have power : (0 : ℚ) < 2 ^ e := zpow_pos (by norm_num) e
  have stands : Stands m .exact ((m : ℚ) * 2 ^ e / 2 ^ e) := by
    rw [mul_div_cancel_right₀ _ power.ne']
    exact Stands.exact m
  have top := topBit_of_stands (by omega) stands
  have value : (0 : ℚ) < m * 2 ^ e := by
    have : (0 : ℚ) < m := by exact_mod_cast positive
    positivity
  have below := Int.zpow_log_le_self (b := 2) (by norm_num) value
  have above := Int.lt_zpow_succ_log_self (b := 2) (by norm_num) ((m : ℚ) * 2 ^ e)
  push_cast at below above
  rw [← top]
  simp only [topBit, add_sub_cancel_right]
  exact ⟨below, above⟩

theorem div_eq (s t : Sign) {m n : Nat} {d e : Int} (hm : 0 < m) (hn : 0 < n) :
    div Format.binary64 (.finite s m d hm) (.finite t n e hn) =
      nearest (s / t) ((m : ℚ) * 2 ^ d / (n * 2 ^ e)) := by
  have first : (0 : ℚ) < m := by exact_mod_cast hm
  have second : (0 : ℚ) < n := by exact_mod_cast hn
  obtain ⟨mLower, -⟩ := bounds_of_totalExponent hm d
  obtain ⟨-, nUpper⟩ := bounds_of_totalExponent hn e
  -- The quotient has as many bits as the difference of the two suggests, or one more.
  have top : totalExponent m d - totalExponent n e ≤ topBit ((m : ℚ) * 2 ^ d / (n * 2 ^ e)) := by
    have lower : (2 : ℚ) ^ (totalExponent m d - 1 - totalExponent n e) ≤
        (m : ℚ) * 2 ^ d / (n * 2 ^ e) := by
      rw [zpow_sub₀ (by norm_num)]
      gcongr
    have := le_topBit lower
    omega
  have enough := lastPlace_mono top
  rw [← targetExponent_eq] at enough
  simp only [UnpackedFloat.div, divCore]
  generalize targets : min (d - e) (Format.binary64.targetExponent
    (totalExponent m d - totalExponent n e)) = target
  have left : target ≤ d - e := by omega
  apply roundWithAccuracy_eq
  · positivity
  · have stands := Stands.div (m <<< (d - e - target).toNat) n hn
    have same : (m : ℚ) * 2 ^ d / (n * 2 ^ e) / 2 ^ target =
        ((m <<< (d - e - target).toNat : Nat) : ℚ) / n := by
      have shift : (2 : ℚ) ^ d = 2 ^ (d - e - target).toNat * (2 ^ e * 2 ^ target) := by
        rw [← zpow_natCast, ← zpow_add₀ (by norm_num), ← zpow_add₀ (by norm_num)]
        congr 1
        omega
      rw [Nat.shiftLeft_eq, shift]
      push_cast
      field_simp
    rwa [same]
  · omega

theorem ofNat_eq {n : Nat} (positive : 0 < n) :
    UnpackedFloat.ofNat Format.binary64 n = nearest .positive n := by
  have value : (0 : ℚ) < n := by exact_mod_cast positive
  have order : compare (n : Int) 0 = .gt := by
    rw [Int.compare_eq_gt]
    omega
  have stands : Stands n .exact ((n : ℚ) / 2 ^ (0 : Int)) := by
    rw [zpow_zero, div_one]
    exact Stands.exact n
  have top := topBit_of_stands (by omega) stands
  simp only [UnpackedFloat.ofNat, UnpackedFloat.ofInt, UnpackedFloat.normalize, order,
    UnpackedFloat.round, decreaseExponent, Int.toNat_natCast]
  generalize shifts : (0 - Format.binary64.targetExponent (totalExponent n 0)).toNat = k
  have place : Format.binary64.targetExponent (totalExponent n 0) = lastPlace n := by
    rw [targetExponent_eq, ← top]
    rfl
  apply roundWithAccuracy_eq _ value
  · have exact := Stands.exact (n <<< k)
    have same : (n : ℚ) / 2 ^ (0 - (k : Int)) = (n <<< k : Nat) := by
      rw [Nat.shiftLeft_eq, zero_sub, zpow_neg, zpow_natCast, div_inv_eq_mul]
      push_cast
      rfl
    rwa [same]
  · omega

end TreeWalk.Rounding
