import EdnLint.Number.Basic
import Mathlib.Algebra.Order.Field.Rat
import Mathlib.Data.Rat.Cast.Defs
import Mathlib.Tactic.FieldSimp
import Mathlib.Tactic.Linarith
import Mathlib.Tactic.Positivity

/-!
# The quantity of a number

`Number.same` compares two numbers through their exact values without building
the powers of ten they may hold. `Number.quantity` is the point it compares: a
rational, an infinity, or not a number. Two numbers are the same if and only if
their quantities are equal, so being the same is an equivalence across all kinds
of numbers, and nothing about digit counts is needed beyond this file.
-/

namespace EdnLint

/-- A point of the rational line with its two ends, or no point at all. -/
inductive Quantity where
  | undefined
  | infinite (negative : Bool)
  | rational (q : ℚ)

namespace ExactValue

/-- A magnitude with its sign. -/
def signed (negative : Bool) (q : ℚ) : ℚ := if negative then -q else q

/-- The quantity that an exact value writes. -/
def quantity : ExactValue → Quantity
  | .nan => .undefined
  | .infinity negative => .infinite negative
  | .finite negative num den exponent =>
      .rational (signed negative (num / den * 10 ^ exponent))

/-- A value is proper if its denominator, where it has one, is positive. -/
def IsProper : ExactValue → Prop
  | .finite _ _ den _ => 0 < den
  | _ => True

end ExactValue

namespace Number

/-- The quantity of a number. -/
def quantity (a : Number) : Quantity := a.value.quantity

theorem quotient_den_pos (mantissa : Nat) (e : Int) : 0 < (Binary64.quotient mantissa e).2 := by
  cases e with
  | ofNat e => exact Nat.one_pos
  | negSucc e => exact Nat.pow_pos (by decide)

/-- The values of numbers are proper. -/
theorem value_isProper (a : Number) : a.value.IsProper := by
  cases a with
  | int n => exact Nat.one_pos
  | float x =>
      cases x with
      | nan => trivial
      | infinity negative => trivial
      | finite negative mantissa e => exact quotient_den_pos mantissa e
  | ratio r => exact r.den_pos
  | decimal d => exact Nat.one_pos

theorem lt_pow_of_digitCount_le {n k : Nat} (hk : 0 < k) (h : Binary64.digitCount n ≤ k) :
    n < 10 ^ k :=
  (Nat.length_toDigits_le_iff (by decide) hk).mp h

theorem digitCount_pos (n : Nat) : 0 < Binary64.digitCount n := Nat.length_toDigits_pos

/-- The shortcut by digit counts decides as the powers of ten would: the order is
equality exactly for equal rationals. -/
theorem comparePowerOfTen_eq_iff {a b : Nat} (ha : a ≠ 0) (hb : b ≠ 0) (k : Int) :
    comparePowerOfTen a b k = .eq ↔ (a : ℚ) * 10 ^ k = b := by
  have ha' : 0 < a := Nat.pos_of_ne_zero ha
  have hb' : 0 < b := Nat.pos_of_ne_zero hb
  cases k with
  | ofNat n =>
      simp only [comparePowerOfTen, ha, hb, if_false, Int.ofNat_eq_natCast, zpow_natCast]
      split
      · rename_i hn
        have hlt : b < 10 ^ n :=
          lt_pow_of_digitCount_le (lt_of_lt_of_le (digitCount_pos b) hn) hn
        have hle : 10 ^ n ≤ a * 10 ^ n := Nat.le_mul_of_pos_left _ ha'
        have hne : a * 10 ^ n ≠ b := by omega
        have hne' : (a : ℚ) * 10 ^ n ≠ b := by exact_mod_cast hne
        simp [hne']
      · rw [Nat.compare_eq_eq]
        exact_mod_cast Iff.rfl
  | negSucc n =>
      have hpow : (0 : ℚ) < 10 ^ (n + 1) := by positivity
      have hscale : (a : ℚ) * 10 ^ (Int.negSucc n) = b ↔ (a : ℚ) = b * 10 ^ (n + 1) := by
        rw [zpow_negSucc, ← div_eq_mul_inv, div_eq_iff hpow.ne']
      rw [hscale]
      simp only [comparePowerOfTen, ha, hb, if_false]
      split
      · rename_i hn
        have hlt : a < 10 ^ (n + 1) := lt_pow_of_digitCount_le n.succ_pos hn
        have hle : 10 ^ (n + 1) ≤ b * 10 ^ (n + 1) := Nat.le_mul_of_pos_left _ hb'
        have hne : a ≠ b * 10 ^ (n + 1) := by omega
        have hne' : (a : ℚ) ≠ b * 10 ^ (n + 1) := by exact_mod_cast hne
        simp [hne']
      · rw [Nat.compare_eq_eq]
        exact_mod_cast Iff.rfl

end Number

namespace ExactValue

theorem signed_inj {negative : Bool} {p q : ℚ} :
    signed negative p = signed negative q ↔ p = q := by
  cases negative <;> simp [signed]

theorem signed_eq_zero {negative : Bool} {q : ℚ} : signed negative q = 0 ↔ q = 0 := by
  cases negative <;> simp [signed]

/-- Positive magnitudes with different signs are different. -/
theorem signed_ne_signed {n m : Bool} (h : n ≠ m) {p q : ℚ} (hp : 0 < p) (hq : 0 < q) :
    signed n p ≠ signed m q := by
  cases n <;> cases m <;> simp [signed] at h ⊢ <;> linarith

/-- A magnitude is positive unless its numerator is zero. -/
theorem magnitude_pos {num den : Nat} (hnum : num ≠ 0) (hden : 0 < den) (e : Int) :
    0 < (num : ℚ) / den * 10 ^ e := by
  have hnum' : (0 : ℚ) < num := by exact_mod_cast Nat.pos_of_ne_zero hnum
  have hden' : (0 : ℚ) < den := by exact_mod_cast hden
  exact mul_pos (div_pos hnum' hden') (zpow_pos (by norm_num) e)

/-- Two magnitudes are equal exactly if they are after clearing denominators and
the smaller power of ten. -/
theorem magnitude_eq_iff {num₁ den₁ num₂ den₂ : Nat} (h₁ : 0 < den₁) (h₂ : 0 < den₂)
    (e₁ e₂ : Int) :
    (num₁ : ℚ) / den₁ * 10 ^ e₁ = num₂ / den₂ * 10 ^ e₂ ↔
      ((num₁ * den₂ : Nat) : ℚ) * 10 ^ (e₁ - e₂) = (num₂ * den₁ : Nat) := by
  have hd₁ : (den₁ : ℚ) ≠ 0 := by exact_mod_cast h₁.ne'
  have hd₂ : (den₂ : ℚ) ≠ 0 := by exact_mod_cast h₂.ne'
  have hten : (10 : ℚ) ≠ 0 := by norm_num
  have hpow : (10 : ℚ) ^ e₂ ≠ 0 := zpow_ne_zero e₂ hten
  rw [zpow_sub₀ hten]
  push_cast
  field_simp

/-- Two finite values compare as equal exactly if they write one rational. -/
theorem compare?_finite_eq_iff {n₁ n₂ : Bool} {num₁ num₂ den₁ den₂ : Nat} {e₁ e₂ : Int}
    (h₁ : 0 < den₁) (h₂ : 0 < den₂) :
    compare? (.finite n₁ num₁ den₁ e₁) (.finite n₂ num₂ den₂ e₂) = some .eq ↔
      signed n₁ (num₁ / den₁ * 10 ^ e₁) = signed n₂ (num₂ / den₂ * 10 ^ e₂) := by
  by_cases hz₁ : num₁ = 0
  · -- the first value is zero: equality is that the second is zero as well
    subst hz₁
    have hzero : signed n₁ (((0 : Nat) : ℚ) / den₁ * 10 ^ e₁) = 0 := by simp [signed]
    by_cases hz₂ : num₂ = 0
    · subst hz₂
      simp [compare?, signed]
    · have hpos := magnitude_pos hz₂ h₂ e₂
      have hne : signed n₂ ((num₂ : ℚ) / den₂ * 10 ^ e₂) ≠ 0 :=
        fun h => hpos.ne' (signed_eq_zero.mp h)
      rw [hzero]
      cases n₂ <;> simp [compare?, hz₂, hne.symm]
  · have hpos₁ := magnitude_pos hz₁ h₁ e₁
    by_cases hz₂ : num₂ = 0
    · subst hz₂
      have hne : signed n₁ ((num₁ : ℚ) / den₁ * 10 ^ e₁) ≠ 0 :=
        fun h => hpos₁.ne' (signed_eq_zero.mp h)
      have hzero : signed n₂ (((0 : Nat) : ℚ) / den₂ * 10 ^ e₂) = 0 := by simp [signed]
      rw [hzero]
      cases n₁ <;> simp [compare?, hz₁, hne]
    · have hpos₂ := magnitude_pos hz₂ h₂ e₂
      by_cases hs : n₁ = n₂
      · subst hs
        rw [signed_inj, magnitude_eq_iff h₁ h₂,
          ← Number.comparePowerOfTen_eq_iff (Nat.mul_ne_zero hz₁ h₂.ne')
            (Nat.mul_ne_zero hz₂ h₁.ne')]
        cases n₁ <;> simp [compare?, hz₁, hz₂]
      · have hne := signed_ne_signed hs hpos₁ hpos₂
        cases n₁ <;> cases n₂ <;> simp_all [compare?]

/-- Two proper values compare as equal exactly if their quantities are equal, and
defined. -/
theorem compare?_eq_iff {v w : ExactValue} (hv : v.IsProper) (hw : w.IsProper) :
    v.compare? w = some .eq ↔ v ≠ .nan ∧ v.quantity = w.quantity := by
  cases v with
  | nan => simp [compare?]
  | infinity n =>
      cases w with
      | nan => simp [compare?, quantity]
      | infinity m => cases n <;> cases m <;> simp [compare?, quantity]
      | finite m num den e => cases n <;> simp [compare?, quantity]
  | finite n num den e =>
      cases w with
      | nan => simp [compare?, quantity]
      | infinity m => cases m <;> simp [compare?, quantity]
      | finite m num' den' e' =>
          rw [compare?_finite_eq_iff hv hw]
          simp [quantity]

end ExactValue

namespace Number

theorem isNaN_iff (a : Number) : a.isNaN = true ↔ a.value = .nan := by
  cases a with
  | float x => cases x <;> simp [isNaN, value]
  | _ => simp [isNaN, value]

theorem quantity_eq_undefined_iff (a : Number) : a.quantity = .undefined ↔ a.value = .nan := by
  unfold quantity
  cases a.value <;> simp [ExactValue.quantity]

/-- Two numbers count as one key exactly if they have one quantity. -/
theorem same_iff (a b : Number) : a.same b = true ↔ a.quantity = b.quantity := by
  have hcompare := ExactValue.compare?_eq_iff a.value_isProper b.value_isProper
  simp only [same, compare?, Bool.or_eq_true, Bool.and_eq_true, beq_iff_eq, isNaN_iff, hcompare]
  constructor
  · rintro (⟨ha, hb⟩ | ⟨-, h⟩)
    · rw [(quantity_eq_undefined_iff a).mpr ha, (quantity_eq_undefined_iff b).mpr hb]
    · exact h
  · intro h
    by_cases ha : a.value = .nan
    · have hb : b.value = .nan := by
        rw [← quantity_eq_undefined_iff, ← h, quantity_eq_undefined_iff]
        exact ha
      exact Or.inl ⟨ha, hb⟩
    · exact Or.inr ⟨ha, h⟩

theorem quantity_natCast (n : Nat) : (Number.int n).quantity = .rational n := by
  have hsign : ¬ ((n : Int) < 0) := by omega
  simp [quantity, value, ExactValue.quantity, ExactValue.signed, hsign]

end Number

end EdnLint
