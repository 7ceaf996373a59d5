import Mathlib.Data.List.Basic
import Mathlib.Data.List.Induction
import Mathlib.Tactic.Ring
import TreeWalk.Text.Digit

/-!
Rows of decimal digits and the numbers they write.
-/

set_option autoImplicit false

namespace TreeWalk.Text

/-- The script of the plain digits comes first. -/
theorem digit?_of_isDigit {c : Char} (h : c.isDigit = true) : digit? c = some (c.toNat - 48) := by
  have bounds : 48 ≤ c.toNat ∧ c.toNat < 58 := by
    simp only [Char.isDigit, Bool.and_eq_true, decide_eq_true_eq] at h
    have lower : (48 : UInt32).toNat ≤ c.val.toNat := UInt32.le_iff_toNat_le.1 h.1
    have upper : c.val.toNat ≤ (57 : UInt32).toNat := UInt32.le_iff_toNat_le.1 h.2
    exact ⟨lower, Nat.lt_succ_of_le upper⟩
  simp [digit?, zeros, bounds.1, bounds.2]

theorem isDigit_of_isDigit {c : Char} (h : c.isDigit = true) : isDigit c = true := by
  simp [isDigit, digit?_of_isDigit h]

theorem digitsValue_concat (cs : List Char) (c : Char) :
    digitsValue (cs ++ [c]) = 10 * digitsValue cs + (digit? c).getD 0 := by
  simp [digitsValue]

theorem digitsValue_append (first second : List Char) :
    digitsValue (first ++ second) =
      digitsValue first * 10 ^ second.length + digitsValue second := by
  induction second using List.reverseRecOn with
  | nil => simp [digitsValue]
  | append_singleton second c ih =>
    rw [← List.append_assoc, digitsValue_concat, digitsValue_concat, ih, List.length_append,
      List.length_singleton, pow_succ]
    ring

/-- Digits of the plain script are read as the standard library reads them. -/
theorem digitsValue_eq_ofDigitChars {cs : List Char} (digits : ∀ c ∈ cs, c.isDigit = true) :
    digitsValue cs = Nat.ofDigitChars 10 cs 0 := by
  rw [Nat.ofDigitChars_eq_foldl, digitsValue]
  apply List.foldl_ext
  intro n c member
  rw [digit?_of_isDigit (digits c member)]
  rfl

theorem isDigit_toDigits {n : Nat} {c : Char} (h : c ∈ Nat.toDigits 10 n) : c.isDigit = true :=
  Nat.isDigit_of_mem_toDigits (by decide) (by decide) h

theorem digitsValue_toDigits (n : Nat) : digitsValue (Nat.toDigits 10 n) = n := by
  rw [digitsValue_eq_ofDigitChars fun c => isDigit_toDigits, Nat.ofDigitChars_ten_toDigits]

theorem digitsValue_zeros (k : Nat) : digitsValue (List.replicate k '0') = 0 := by
  rw [digitsValue_eq_ofDigitChars, Nat.ofDigitChars_replicate_zero, Nat.mul_zero]
  intro c member
  rw [List.eq_of_mem_replicate member]
  rfl

theorem head_toDigits_ne_zero {n : Nat} (positive : 0 < n) :
    (Nat.toDigits 10 n).head? ≠ some '0' := by
  induction n using Nat.strong_induction_on with
  | _ n ih =>
    rw [Nat.toDigits_eq_if (by decide)]
    split
    · intro same
      rw [List.head?_cons, Option.some.injEq, Nat.digitChar_eq_zero] at same
      omega
    · next large =>
      rw [List.head?_append_of_ne_nil _ Nat.toDigits_ne_nil]
      exact ih (n / 10) (by omega) (by omega)

end TreeWalk.Text
