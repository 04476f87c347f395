import EdnLint.Proofs.Number.Quantity

/-!
# The order of quantities

Numbers of different kinds are ordered by their quantities: rationals as usual,
between the two infinities, and what is not a number before and behind nothing.
`Number.compare?_eq_lt_iff` says that the comparison through exact values, with
its shortcut by digit counts, decides this order.
-/

namespace EdnLint

/-- One quantity lies before another on the line. -/
def Quantity.Less : Quantity → Quantity → Prop
  | .rational p, .rational q => p < q
  | .rational _, .infinite negative => negative = false
  | .infinite negative, .rational _ => negative = true
  | .infinite negative, .infinite negative' => negative = true ∧ negative' = false
  | .undefined, _ => False
  | _, .undefined => False

namespace Number

theorem comparePowerOfTen_eq_lt_iff {a b : Nat} (ha : a ≠ 0) (hb : b ≠ 0) (k : Int) :
    comparePowerOfTen a b k = .lt ↔ (a : ℚ) * 10 ^ k < b := by
  have ha' : 0 < a := Nat.pos_of_ne_zero ha
  have hb' : 0 < b := Nat.pos_of_ne_zero hb
  cases k with
  | ofNat n =>
      simp only [comparePowerOfTen, ha, hb, if_false, Int.ofNat_eq_natCast, zpow_natCast]
      split
      · rename_i hn
        have hlt : b < 10 ^ n :=
          lt_pow_of_digitCount_le (lt_of_lt_of_le (digitCount_pos b) hn) hn
        have hle : 10 ^ n ≤ a * 10 ^ n := Nat.le_mul_of_pos_left _ ha'
        have hnot : ¬ a * 10 ^ n < b := by omega
        have hnot' : ¬ (a : ℚ) * 10 ^ n < b := by exact_mod_cast hnot
        simp [hnot']
      · rw [Nat.compare_eq_lt]
        exact_mod_cast Iff.rfl
  | negSucc n =>
      have hpow : (0 : ℚ) < 10 ^ (n + 1) := by positivity
      have hscale : (a : ℚ) * 10 ^ (Int.negSucc n) < b ↔ (a : ℚ) < b * 10 ^ (n + 1) := by
        rw [zpow_negSucc, ← div_eq_mul_inv, div_lt_iff₀ hpow]
      rw [hscale]
      simp only [comparePowerOfTen, ha, hb, if_false]
      split
      · rename_i hn
        have hlt : a < 10 ^ (n + 1) := lt_pow_of_digitCount_le n.succ_pos hn
        have hle : 10 ^ (n + 1) ≤ b * 10 ^ (n + 1) := Nat.le_mul_of_pos_left _ hb'
        have hless : a < b * 10 ^ (n + 1) := by omega
        have hless' : (a : ℚ) < b * 10 ^ (n + 1) := by exact_mod_cast hless
        simp [hless']
      · rw [Nat.compare_eq_lt]
        exact_mod_cast Iff.rfl

theorem comparePowerOfTen_eq_gt_iff {a b : Nat} (ha : a ≠ 0) (hb : b ≠ 0) (k : Int) :
    comparePowerOfTen a b k = .gt ↔ (b : ℚ) < a * 10 ^ k := by
  have hlt := comparePowerOfTen_eq_lt_iff ha hb k
  have heq := comparePowerOfTen_eq_iff ha hb k
  rcases lt_trichotomy ((a : ℚ) * 10 ^ k) b with h | h | h
  · simp [hlt.mpr h, h.le]
  · simp [heq.mpr h, h]
  · cases horder : comparePowerOfTen a b k with
    | lt => exact absurd (hlt.mp horder) h.not_gt
    | eq => exact absurd (heq.mp horder) h.ne'
    | gt => simp [h]

end Number

namespace ExactValue

/-- Clearing denominators and the smaller power of ten multiplies two magnitudes by
one positive factor. -/
theorem magnitude_scaled {den₁ den₂ : Nat} (h₁ : 0 < den₁) (h₂ : 0 < den₂) (num₁ num₂ : Nat)
    (e₁ e₂ : Int) :
    ∃ c : ℚ, 0 < c ∧
      (num₁ : ℚ) / den₁ * 10 ^ e₁ * c = ((num₁ * den₂ : Nat) : ℚ) * 10 ^ (e₁ - e₂) ∧
      (num₂ : ℚ) / den₂ * 10 ^ e₂ * c = ((num₂ * den₁ : Nat) : ℚ) := by
  have hd₁ : (0 : ℚ) < den₁ := by exact_mod_cast h₁
  have hd₂ : (0 : ℚ) < den₂ := by exact_mod_cast h₂
  have hpow : (0 : ℚ) < 10 ^ e₂ := zpow_pos (by norm_num) e₂
  refine ⟨den₁ * den₂ / 10 ^ e₂, by positivity, ?_, ?_⟩
  · rw [zpow_sub₀ (by norm_num : (10 : ℚ) ≠ 0)]
    push_cast
    field_simp
  · push_cast
    field_simp

/-- The order of two finite values is that of the rationals they write. -/
theorem compare?_finite_eq_lt_iff {n₁ n₂ : Bool} {num₁ num₂ den₁ den₂ : Nat} {e₁ e₂ : Int}
    (h₁ : 0 < den₁) (h₂ : 0 < den₂) :
    compare? (.finite n₁ num₁ den₁ e₁) (.finite n₂ num₂ den₂ e₂) = some .lt ↔
      signed n₁ (num₁ / den₁ * 10 ^ e₁) < signed n₂ (num₂ / den₂ * 10 ^ e₂) := by
  have hzero : ∀ (n : Bool) (den : Nat) (e : Int), signed n (((0 : Nat) : ℚ) / den * 10 ^ e) = 0 :=
    fun n den e => by simp [signed]
  by_cases hz₁ : num₁ = 0
  · subst hz₁
    rw [hzero]
    by_cases hz₂ : num₂ = 0
    · subst hz₂
      simp [compare?, signed]
    · have hpos := magnitude_pos hz₂ h₂ e₂
      cases n₂ with
      | false => simpa [compare?, hz₂, signed] using hpos
      | true => simpa [compare?, hz₂, signed] using hpos.le
  · have hpos₁ := magnitude_pos hz₁ h₁ e₁
    by_cases hz₂ : num₂ = 0
    · subst hz₂
      rw [hzero]
      cases n₁ with
      | false => simpa [compare?, hz₁, signed] using hpos₁.le
      | true => simpa [compare?, hz₁, signed] using hpos₁
    · have hpos₂ := magnitude_pos hz₂ h₂ e₂
      have ha : num₁ * den₂ ≠ 0 := Nat.mul_ne_zero hz₁ h₂.ne'
      have hb : num₂ * den₁ ≠ 0 := Nat.mul_ne_zero hz₂ h₁.ne'
      obtain ⟨c, hc, hleft, hright⟩ := magnitude_scaled h₁ h₂ num₁ num₂ e₁ e₂
      generalize (num₁ : ℚ) / den₁ * 10 ^ e₁ = p at *
      generalize (num₂ : ℚ) / den₂ * 10 ^ e₂ = q at *
      -- two negative values are ordered the other way round than their magnitudes
      cases n₁ <;> cases n₂
      · have hless := Number.comparePowerOfTen_eq_lt_iff ha hb (e₁ - e₂)
        rw [← hleft, ← hright, mul_lt_mul_iff_of_pos_right hc] at hless
        simp [compare?, hz₁, hz₂, signed, hless]
      · have hnot : ¬ p < -q := by linarith
        simp [compare?, hz₁, hz₂, signed, hnot]
      · have hless : -p < q := by linarith
        simp [compare?, hz₁, hz₂, signed, hless]
      · have hless := Number.comparePowerOfTen_eq_gt_iff ha hb (e₁ - e₂)
        rw [← hleft, ← hright, mul_lt_mul_iff_of_pos_right hc] at hless
        simp [compare?, hz₁, hz₂, signed, hless]

theorem compare?_eq_lt_iff {v w : ExactValue} (hv : v.IsProper) (hw : w.IsProper) :
    v.compare? w = some .lt ↔ v.quantity.Less w.quantity := by
  cases v with
  | nan => cases w <;> simp [compare?, quantity, Quantity.Less]
  | infinity n =>
      cases w with
      | nan => simp [compare?, quantity, Quantity.Less]
      | infinity m =>
          have horder : compare false true = .lt := rfl
          cases n <;> cases m <;> simp [compare?, quantity, Quantity.Less, horder]
      | finite m num den e => cases n <;> simp [compare?, quantity, Quantity.Less]
  | finite n num den e =>
      cases w with
      | nan => simp [compare?, quantity, Quantity.Less]
      | infinity m => cases m <;> simp [compare?, quantity, Quantity.Less]
      | finite m num' den' e' => exact compare?_finite_eq_lt_iff hv hw

end ExactValue

namespace Number

/-- Numbers compare as less exactly if their quantities are ordered so. -/
theorem compare?_eq_lt_iff (a b : Number) :
    a.compare? b = some .lt ↔ a.quantity.Less b.quantity :=
  ExactValue.compare?_eq_lt_iff a.value_isProper b.value_isProper

theorem quantity_int (n : Int) : (Number.int n).quantity = .rational n := by
  by_cases hn : n < 0
  · simp [quantity, value, ExactValue.quantity, ExactValue.signed, hn, Nat.cast_natAbs,
      abs_of_neg hn]
  · simp [quantity, value, ExactValue.quantity, ExactValue.signed, hn, Nat.cast_natAbs,
      abs_of_nonneg (not_lt.mp hn)]

/-- Integers are compared as such. -/
theorem compare?_int (m n : Int) : (Number.int m).compare? (.int n) = some (compare m n) := by
  have hlt : (Number.int m).compare? (.int n) = some .lt ↔ m < n := by
    rw [compare?_eq_lt_iff, quantity_int, quantity_int]
    exact Int.cast_lt
  have heq : (Number.int m).compare? (.int n) = some .eq ↔ m = n := by
    rw [compare?, ExactValue.compare?_eq_iff (value_isProper _) (value_isProper _), ← quantity,
      ← quantity, quantity_int, quantity_int]
    simp [value]
  obtain ⟨order, horder⟩ : ∃ order, (Number.int m).compare? (.int n) = some order := by
    simp only [compare?, value, ExactValue.compare?]
    split_ifs <;> exact ⟨_, rfl⟩
  rw [horder] at hlt heq ⊢
  rcases lt_trichotomy m n with h | h | h
  · rw [hlt.mpr h, compare_lt_iff_lt.mpr h]
  · rw [heq.mpr h, compare_eq_iff_eq.mpr h]
  · cases order with
    | lt => exact absurd (hlt.mp rfl) h.not_gt
    | eq => exact absurd (heq.mp rfl) h.ne'
    | gt => rw [compare_gt_iff_gt.mpr h]

end Number

end EdnLint
