import EdnLint.Text.Digit
import EdnLint.Text.Quoted
import Mathlib.Data.List.Basic

/-!
# Numbers in digits

The text of a natural number is a non-empty run of ASCII digits, and each of them has the
value that it has in the number. An escape in a quoted text is made of hexadecimal digits.
-/

namespace EdnLint

namespace Text

theorem ofNat_ne_nil (n : Nat) : ofNat n ≠ [] := by
  simp [ofNat, Nat.toDigits_ne_nil]

theorem isDigit_of_mem_ofNat {c : Char} {n : Nat} (h : CodePoint.ofChar c ∈ ofNat n) :
    c.isDigit = true := by
  obtain ⟨digit, hdigit, heq⟩ := List.mem_map.mp h
  have hval : digit.toNat = c.toNat := congrArg CodePoint.val heq
  rw [← Char.toNat_inj.mp hval]
  exact Nat.isDigit_of_mem_toDigits (by decide) (by decide) hdigit

end Text

theorem CodePoint.digitValue?_ofChar {c : Char} (h : c.isDigit = true) :
    (ofChar c).digitValue? = some (c.toNat - 48) := by
  obtain ⟨hlo, hhi⟩ := Char.isDigit_iff_toNat.mp h
  have hlo : 48 ≤ c.toNat := hlo
  have hhi : c.toNat ≤ 57 := hhi
  have hsmall : c.toNat < 128 := by omega
  simp [digitValue?, ofChar, isAsciiDigit, within, hlo, hhi, hsmall]

namespace Text

theorem isDecimal_of_mem_ofNat {c : CodePoint} {n : Nat} (h : c ∈ ofNat n) :
    c.isDecimal = true := by
  obtain ⟨digit, hdigit, rfl⟩ := List.mem_map.mp h
  have hdigit := Nat.isDigit_of_mem_toDigits (by decide) (by decide) hdigit
  rw [CodePoint.isDecimal, CodePoint.digitValue?_ofChar hdigit]
  rfl

theorem filterMap_digitValue?_ofNat (n : Nat) :
    (ofNat n).filterMap CodePoint.digitValue? = (Nat.toDigits 10 n).map fun c => c.toNat - 48 := by
  rw [ofNat, List.filterMap_map, ← List.filterMap_eq_map]
  refine List.filterMap_congr fun c hc => ?_
  exact CodePoint.digitValue?_ofChar (Nat.isDigit_of_mem_toDigits (by decide) (by decide) hc)

theorem exists_digitChar_of_mem_toDigits {b n : Nat} (hb : 1 < b) {c : Char}
    (h : c ∈ Nat.toDigits b n) : ∃ k, Nat.digitChar k = c := by
  induction n using Nat.strongRecOn with
  | ind n ih =>
      rw [Nat.toDigits_eq_if hb] at h
      split at h
      · exact ⟨n, (List.mem_singleton.mp h).symm⟩
      · rcases List.mem_append.mp h with h | h
        · exact ih (n / b) (Nat.div_lt_self (by omega) hb) h
        · exact ⟨n % b, (List.mem_singleton.mp h).symm⟩

/-- A character that is no digit is not among hexadecimal digits. -/
theorem not_mem_hexDigits {c : Char} (hc : ∀ k, Nat.digitChar k ≠ c) (width n : Nat) :
    CodePoint.ofChar c ∉ hexDigits width n := by
  intro h
  have hdigit : ∃ digit, (∃ k, Nat.digitChar k = digit) ∧
      CodePoint.ofChar digit = CodePoint.ofChar c := by
    rcases List.mem_append.mp h with h | h
    · exact ⟨'0', ⟨0, rfl⟩, (List.eq_of_mem_replicate h).symm⟩
    · rcases List.mem_map.mp h with ⟨digit, hdigit, heq⟩
      exact ⟨digit, exists_digitChar_of_mem_toDigits (by decide) hdigit, heq⟩
  rcases hdigit with ⟨digit, ⟨k, hk⟩, heq⟩
  have hval : digit.toNat = c.toNat := congrArg CodePoint.val heq
  exact hc k (hk.trans (Char.toNat_inj.mp hval))

theorem hexDigits_ne_nil (width n : Nat) : hexDigits width n ≠ [] := by
  simp [hexDigits, Nat.toDigits_ne_nil]

end Text

end EdnLint
