import TreeWalk.Number.Basic
import TreeWalk.Proofs.Number.Rounding

/-!
Doubles as bits and as numbers. A double is told by its sign, mantissa and exponent, packing these
gives the double back, and a value that some double has exactly is rounded to that double.
-/

set_option autoImplicit false

namespace TreeWalk.Rounding

open Float.Model Float.Model.UnpackedFloat

/-- Mantissa and exponent of a finite double: one that is not as long as it could be has the least
exponent. -/
structure Canonical (m : Nat) (e : Int) : Prop where
  positive : 0 < m
  fits : m < 2 ^ 53
  least : -1074 ≤ e
  normal : 2 ^ 52 ≤ m ∨ e = -1074

theorem nearest_of_canonical {m : Nat} {e : Int} (h : Canonical m e) (s : Sign) :
    nearest s (m * 2 ^ e) = .finite s m e h.positive := by
  have power : (0 : ℚ) < 2 ^ e := zpow_pos (by norm_num) e
  have stands : Stands m .exact ((m : ℚ) * 2 ^ e / 2 ^ e) := by
    rw [mul_div_cancel_right₀ _ power.ne']
    exact Stands.exact m
  have top := topBit_of_stands h.positive.ne' stands
  have bits : m.log2 < 53 := (Nat.log2_lt h.positive.ne').2 h.fits
  have place : lastPlace ((m : ℚ) * 2 ^ e) = e := by
    simp only [lastPlace, top, totalExponent]
    have least := h.least
    rcases h.normal with long | small
    · have : 52 ≤ m.log2 := (Nat.le_log2 h.positive.ne').2 long
      omega
    · omega
  have whole : halfEven ((m : ℚ) * 2 ^ e / 2 ^ e) = m := by
    rw [mul_div_cancel_right₀ _ power.ne', halfEven_natCast]
  simp only [nearest, place, whole, h.positive.ne', h.fits, dite_false, if_true]

section Bits

variable (b : BitVec Format.binary64.numBits)

theorem toNat_unpackMantissa : (unpackMantissa b).toNat = b.toNat % 2 ^ 52 := by
  simp [unpackMantissa, BitVec.extractLsb_toNat]

theorem toNat_unpackExponent : (unpackExponent b).toNat = (b.toNat >>> 52) % 2048 := by
  simp [unpackExponent, BitVec.extractLsb_toNat]

theorem toNat_unpackSign : (unpackSign b).toNat = (b.toNat >>> 63) % 2 := by
  simp [unpackSign, BitVec.extractLsb_toNat]

def isNegative : Sign → Bool
  | .negative => true
  | .positive => false

theorem isNegative_unpackSign :
    isNegative (Sign.ofBitVec (unpackSign b)) = b.toNat.testBit 63 := by
  have bit := toNat_unpackSign b
  rw [Nat.shiftRight_eq_div_pow] at bit
  rw [Nat.testBit_eq_decide_div_mod_eq, ← bit]
  clear bit
  generalize unpackSign b = v
  revert v
  decide

theorem packComponents_unpack :
    packComponents Format.binary64 (Sign.ofBitVec (unpackSign b)) (unpackExponent b)
      (unpackMantissa b) = b := by
  have sign : (Sign.ofBitVec (unpackSign b)).toBitVec = unpackSign b := by
    generalize unpackSign b = v
    revert v
    decide
  apply BitVec.eq_of_toNat_eq
  have word := b.isLt
  have exponentBound := (unpackExponent b).isLt
  have mantissaBound := (unpackMantissa b).isLt
  simp only [packComponents, sign, BitVec.toNat_append]
  rw [← Nat.shiftLeft_add_eq_or_of_lt exponentBound, ← Nat.shiftLeft_add_eq_or_of_lt mantissaBound,
    toNat_unpackSign, toNat_unpackExponent, toNat_unpackMantissa]
  simp only [Nat.shiftLeft_eq, Nat.shiftRight_eq_div_pow]
  change b.toNat < 2 ^ 64 at word
  omega

theorem toNat_normal (v : BitVec 52) : (1#1 ++ v).toNat = 2 ^ 52 + v.toNat := by
  rw [BitVec.toNat_append, ← Nat.shiftLeft_add_eq_or_of_lt v.isLt]
  rfl

theorem unpackSign_packComponents (s : Sign) (exponent : BitVec 11) (mantissa : BitVec 52) :
    Sign.ofBitVec (unpackSign (packComponents Format.binary64 s exponent mantissa)) = s := by
  have exponentBound := exponent.isLt
  have mantissaBound := mantissa.isLt
  have bit : (unpackSign (packComponents Format.binary64 s exponent mantissa)).toNat =
      s.toBitVec.toNat := by
    have sign := s.toBitVec.isLt
    rw [toNat_unpackSign]
    simp only [packComponents, BitVec.toNat_append]
    rw [← Nat.shiftLeft_add_eq_or_of_lt exponentBound,
      ← Nat.shiftLeft_add_eq_or_of_lt mantissaBound]
    simp only [Nat.shiftLeft_eq, Nat.shiftRight_eq_div_pow]
    omega
  rw [BitVec.eq_of_toNat_eq bit]
  cases s <;> rfl

end Bits

theorem pack_finite_of_normal {m : Nat} {e : Int} (h : Canonical m e) (long : 2 ^ 52 ≤ m)
    (greatest : e ≤ 971) (s : Sign) :
    UnpackedFloat.pack Format.binary64 (.finite s m e h.positive) =
      packComponents Format.binary64 s (BitVec.ofNat 11 (e + 1075).toNat) (BitVec.ofNat 52 m) := by
  have least := h.least
  have bits : m.log2 = 52 := by
    have : m.log2 < 53 := (Nat.log2_lt h.positive.ne').2 h.fits
    have : 52 ≤ m.log2 := (Nat.le_log2 h.positive.ne').2 long
    omega
  have biased : (e + Format.binary64.exponentBias +
      Format.binary64.mantissaBitsWithoutImplicit).toNat = (e + 1075).toNat := by
    change (e + (1023 : Int) + (52 : Int)).toNat = _
    omega
  simp only [UnpackedFloat.pack, biased, bits]
  rw [if_neg (by omega), if_pos (by rfl)]

theorem pack_finite_of_subnormal {m : Nat} (positive : 0 < m) (short : m < 2 ^ 52) (s : Sign) :
    UnpackedFloat.pack Format.binary64 (.finite s m (-1074) positive) =
      packComponents Format.binary64 s 0#11 (BitVec.ofNat 52 m) := by
  have bits : m.log2 < 52 := (Nat.log2_lt positive.ne').2 short
  have biased : ((-1074 : Int) + Format.binary64.exponentBias +
      Format.binary64.mantissaBitsWithoutImplicit).toNat = 1 := by decide
  simp only [UnpackedFloat.pack, biased]
  rw [if_neg (by decide), if_neg (by simp only [Format.mantissaBits]; omega)]

/-- Taking a packed finite double apart gives its mantissa and exponent back. -/
theorem unpack_pack_finite {m : Nat} {e : Int} (h : Canonical m e) (greatest : e ≤ 971)
    (s : Sign) :
    (Float.Model.pack (.finite s m e h.positive)).unpack = .finite s m e h.positive := by
  have fits := h.fits
  have least := h.least
  have positive := h.positive
  have bias : ((Format.binary64.exponentBias : Nat) : Int) +
      ((Format.binary64.mantissaBitsWithoutImplicit : Nat) : Int) = 1075 := rfl
  simp only [Float.Model.unpack, Float.Model.pack]
  by_cases long : 2 ^ 52 ≤ m
  · rw [pack_finite_of_normal h long greatest]
    simp only [UnpackedFloat.unpack, unpackExponent_packComponents, unpackMantissa_packComponents,
      unpackSign_packComponents]
    have inside : (BitVec.ofNat 11 (e + 1075).toNat).toNat = (e + 1075).toNat := by
      rw [BitVec.toNat_ofNat, Nat.mod_eq_of_lt (by omega)]
    have finite : BitVec.ofNat 11 (e + 1075).toNat ≠ -1#11 := by
      intro same
      have := congrArg BitVec.toNat same
      rw [inside] at this
      change (e + 1075).toNat = 2047 at this
      omega
    have nonzero : BitVec.ofNat 11 (e + 1075).toNat ≠ 0#11 := by
      intro same
      have := congrArg BitVec.toNat same
      rw [inside] at this
      change (e + 1075).toNat = 0 at this
      omega
    rw [if_neg finite, if_neg nonzero]
    congr 1
    · rw [toNat_normal, BitVec.toNat_ofNat]
      omega
    · rw [inside, bias]
      omega
  · have lowest : e = -1074 := h.normal.resolve_left long
    subst lowest
    rw [pack_finite_of_subnormal positive (by omega)]
    simp only [UnpackedFloat.unpack, unpackExponent_packComponents, unpackMantissa_packComponents,
      unpackSign_packComponents]
    have inside : (BitVec.ofNat 52 m).toNat = m := by
      rw [BitVec.toNat_ofNat, Nat.mod_eq_of_lt (by omega)]
    have nonzero : BitVec.ofNat 52 m ≠ 0#52 := by
      intro same
      have := congrArg BitVec.toNat same
      rw [inside] at this
      change m = 0 at this
      omega
    rw [if_neg (by decide), if_pos trivial, dif_neg nonzero]
    congr 1

/-- What taking a double apart can give. -/
inductive Shape : UnpackedFloat → Prop where
  | notANumber : Shape .notANumber
  | infinity (s : Sign) : Shape (.infinity s)
  | zero (s : Sign) : Shape (.zero s)
  | finite (s : Sign) {m : Nat} {e : Int} (h : Canonical m e) (greatest : e ≤ 971) :
    Shape (.finite s m e h.positive)

theorem shape_unpack (f : Float.Model) : Shape f.unpack := by
  have bias : ((Format.binary64.exponentBias : Nat) : Int) +
      ((Format.binary64.mantissaBitsWithoutImplicit : Nat) : Int) = 1075 := rfl
  have mantissa := (@unpackMantissa Format.binary64 f.toBits.toBitVec).isLt
  have exponent := (@unpackExponent Format.binary64 f.toBits.toBitVec).isLt
  change _ < 2 ^ 52 at mantissa
  change _ < 2 ^ 11 at exponent
  simp only [Float.Model.unpack, UnpackedFloat.unpack]
  split
  · split
    · exact .infinity _
    · exact .notANumber
  · next finite =>
    have below : (@unpackExponent Format.binary64 f.toBits.toBitVec).toNat ≠ 2047 := by
      intro same
      exact finite (BitVec.eq_of_toNat_eq same)
    split
    · next least =>
      split
      · exact .zero _
      · next nonzero =>
        have positive : 0 < (@unpackMantissa Format.binary64 f.toBits.toBitVec).toNat := by
          rw [Nat.pos_iff_ne_zero]
          intro same
          exact nonzero (BitVec.eq_of_toNat_eq same)
        have lowest : ((@unpackExponent Format.binary64 f.toBits.toBitVec).toNat : Int) -
            1075 + 1 = -1074 := by
          rw [least]
          rfl
        rw [bias, lowest]
        exact .finite _ ⟨positive, by omega, by omega, Or.inr rfl⟩ (by omega)
    · next normal =>
      have above : (@unpackExponent Format.binary64 f.toBits.toBitVec).toNat ≠ 0 := by
        intro same
        exact normal (BitVec.eq_of_toNat_eq same)
      have value := toNat_normal (@unpackMantissa Format.binary64 f.toBits.toBitVec)
      rw [bias]
      exact .finite _ ⟨by omega, by omega, by omega, by left; omega⟩ (by omega)

def partsOf : UnpackedFloat → Number.Parts
  | .notANumber => .nan
  | .infinity s => .infinite (isNegative s)
  | .zero s => .finite (isNegative s) 0 0
  | .finite s m e _ => .finite (isNegative s) m (e + 1074).toNat

theorem parts_eq (x : Float) : Number.parts x = partsOf x.toModel.unpack := by
  have mantissa := toNat_unpackMantissa x.toModel.toBits.toBitVec
  have exponent := toNat_unpackExponent x.toModel.toBits.toBitVec
  have sign := isNegative_unpackSign x.toModel.toBits.toBitVec
  have bits : x.toBits.toNat = x.toModel.toBits.toBitVec.toNat := rfl
  have bias : ((Format.binary64.exponentBias : Nat) : Int) +
      ((Format.binary64.mantissaBitsWithoutImplicit : Nat) : Int) = 1075 := rfl
  have greatest : @unpackExponent Format.binary64 x.toModel.toBits.toBitVec = -1#_ ↔
      (@unpackExponent Format.binary64 x.toModel.toBits.toBitVec).toNat = 2047 :=
    (BitVec.toNat_inj (y := -1#11)).symm
  have least : @unpackExponent Format.binary64 x.toModel.toBits.toBitVec = 0#_ ↔
      (@unpackExponent Format.binary64 x.toModel.toBits.toBitVec).toNat = 0 :=
    (BitVec.toNat_inj (y := 0#11)).symm
  have empty : @unpackMantissa Format.binary64 x.toModel.toBits.toBitVec = 0#_ ↔
      (@unpackMantissa Format.binary64 x.toModel.toBits.toBitVec).toNat = 0 :=
    (BitVec.toNat_inj (y := 0#52)).symm
  simp only [Number.parts, Float.Model.unpack, UnpackedFloat.unpack, bits]
  rw [← sign, ← exponent, show (1 <<< 52 : Nat) = 2 ^ 52 from rfl, ← mantissa]
  by_cases infinite : @unpackExponent Format.binary64 x.toModel.toBits.toBitVec = -1#_
  · rw [if_pos infinite, if_pos (greatest.1 infinite)]
    by_cases zero : @unpackMantissa Format.binary64 x.toModel.toBits.toBitVec = 0#_
    · rw [if_pos zero, if_pos (empty.1 zero)]
      rfl
    · rw [if_neg zero, if_neg (mt empty.2 zero)]
      rfl
  · rw [if_neg infinite, if_neg (mt greatest.2 infinite)]
    by_cases low : @unpackExponent Format.binary64 x.toModel.toBits.toBitVec = 0#_
    · rw [if_pos low, if_pos (least.1 low)]
      by_cases zero : @unpackMantissa Format.binary64 x.toModel.toBits.toBitVec = 0#_
      · rw [dif_pos zero, empty.1 zero]
        rfl
      · rw [dif_neg zero]
        simp only [partsOf, bias, least.1 low]
        rfl
    · rw [if_neg low, if_neg (mt least.2 low)]
      simp only [partsOf, bias, toNat_normal]
      congr 1
      have := mt least.2 low
      omega

theorem pack_unpack (f : Float.Model) : Float.Model.pack f.unpack = f := by
  have word := packComponents_unpack f.toBits.toBitVec
  suffices same : UnpackedFloat.pack Format.binary64 f.unpack = f.toBits.toBitVec by
    obtain ⟨bits, valid⟩ := f
    simp only [Float.Model.pack, same]
  have shape := shape_unpack f
  have bias : ((Format.binary64.exponentBias : Nat) : Int) +
      ((Format.binary64.mantissaBitsWithoutImplicit : Nat) : Int) = 1075 := rfl
  revert shape
  simp only [Float.Model.unpack, UnpackedFloat.unpack]
  split
  · next infinite =>
    split
    · next zero =>
      intro _
      rw [infinite, zero] at word
      exact word
    · next payload =>
      intro _
      exact (f.valid.eq_packedNaN infinite payload).symm
  · next finite =>
    split
    · next low =>
      split
      · next zero =>
        intro _
        rw [low, zero] at word
        exact word
      · next nonzero =>
        intro shape
        have mantissa := (@unpackMantissa Format.binary64 f.toBits.toBitVec).isLt
        have lowest : ((@unpackExponent Format.binary64 f.toBits.toBitVec).toNat : Int) -
            1075 + 1 = -1074 := by
          rw [low]
          rfl
        simp only [bias, lowest]
        rw [pack_finite_of_subnormal _ mantissa, BitVec.ofNat_toNat, BitVec.setWidth_eq]
        rw [low] at word
        exact word
    · next normal =>
      intro shape
      have value := toNat_normal (@unpackMantissa Format.binary64 f.toBits.toBitVec)
      have mantissa := (@unpackMantissa Format.binary64 f.toBits.toBitVec).isLt
      have exponent := (@unpackExponent Format.binary64 f.toBits.toBitVec).isLt
      change _ < 2 ^ 11 at exponent
      cases shape with
      | finite s canonical greatest =>
        rw [pack_finite_of_normal canonical (by omega) greatest]
        have back : BitVec.ofNat 11 (((@unpackExponent Format.binary64
            f.toBits.toBitVec).toNat : Int) - (((Format.binary64.exponentBias : Nat) : Int) +
            ((Format.binary64.mantissaBitsWithoutImplicit : Nat) : Int)) + 1075).toNat =
            @unpackExponent Format.binary64 f.toBits.toBitVec := by
          apply BitVec.eq_of_toNat_eq
          rw [bias, BitVec.toNat_ofNat, Nat.mod_eq_of_lt (by omega)]
          omega
        have low : BitVec.ofNat 52 (1#1 ++ @unpackMantissa Format.binary64
            f.toBits.toBitVec).toNat =
            @unpackMantissa Format.binary64 f.toBits.toBitVec := by
          apply BitVec.eq_of_toNat_eq
          rw [value, BitVec.toNat_ofNat]
          change _ < 2 ^ 52 at mantissa
          omega
        rw [back, low]
        exact word

/-- Whether a double is a number without a minus; zero with a minus is not one. -/
def unsigned : Number.Parts → Bool
  | .nan => false
  | .infinite negative => !negative
  | .finite negative _ _ => !negative

theorem unsigned_packComponents {exponent : BitVec 11} {mantissa : BitVec 52}
    (number : exponent ≠ -1#11 ∨ mantissa = 0#52) :
    unsigned (partsOf (UnpackedFloat.unpack Format.binary64
      (packComponents Format.binary64 .positive exponent mantissa))) = true := by
  simp only [UnpackedFloat.unpack, unpackExponent_packComponents, unpackMantissa_packComponents,
    unpackSign_packComponents]
  split
  · next infinite =>
    have whole : mantissa = 0#52 := number.resolve_left (not_not_intro infinite)
    rw [if_pos whole]
    rfl
  · split
    · split <;> rfl
    · rfl

theorem unsigned_pack_nearest (v : ℚ) :
    unsigned (partsOf (Float.Model.pack (nearest .positive v)).unpack) = true := by
  have finite {m : Nat} {e : Int} (positive : 0 < m) :
      unsigned (partsOf (Float.Model.pack (.finite .positive m e positive)).unpack) = true := by
    simp only [Float.Model.unpack, Float.Model.pack, UnpackedFloat.pack]
    split
    · exact unsigned_packComponents (.inr rfl)
    · next small =>
      split
      · refine unsigned_packComponents (.inl ?_)
        intro same
        have value := congrArg BitVec.toNat same
        have below : ¬ 2 ^ 11 ≤ (e + Format.binary64.exponentBias +
            Format.binary64.mantissaBitsWithoutImplicit).toNat + 1 := small
        rw [BitVec.toNat_ofNat, Nat.mod_eq_of_lt (by omega)] at value
        change _ = 2047 at value
        omega
      · exact unsigned_packComponents (.inl (by decide))
  unfold nearest
  simp only
  split
  · exact unsigned_packComponents (.inl (by decide))
  · split
    · exact finite _
    · exact finite _

end TreeWalk.Rounding
