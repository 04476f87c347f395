import EdnLint.Text.Utf8

/-!
# Decoding what was encoded

The bytes of a code point that is no surrogate are taken apart into this code point,
whatever follows them (`decodeUnits_encodeOne_append`). What a first byte announces
is stated for the number it adds to the least first byte of its length, so each
length is one computation: the two ranges that are cut short at their lower end shut
out longer spellings of smaller code points, and the two that are cut short at their
upper end shut out the surrogates and what is beyond the last code point.
-/

namespace EdnLint

namespace Utf8

/-- The byte that continues a code point with six bits. -/
def tail (k : Nat) : UInt8 := UInt8.ofNat (0x80 + k)

theorem lead?_two : ∀ k < 30,
    lead? (UInt8.ofNat (0xC2 + k)) = some (1, tail 0, tail 63, k + 2) := by
  decide

theorem lead?_three : ∀ k < 16,
    lead? (UInt8.ofNat (0xE0 + k)) =
      some (2, tail (if k = 0 then 32 else 0), tail (if k = 13 then 31 else 63), k) := by
  decide

theorem lead?_four : ∀ k < 5,
    lead? (UInt8.ofNat (0xF0 + k)) =
      some (3, tail (if k = 0 then 16 else 0), tail (if k = 4 then 15 else 63), k) := by
  decide

theorem toNat_ofNat {n : Nat} (h : n < 256) : (UInt8.ofNat n).toNat = n := by
  rw [UInt8.toNat_ofNat']
  exact Nat.mod_eq_of_lt h

theorem ofNat_lt_iff {n : Nat} (h : n < 256) : UInt8.ofNat n < 0x80 ↔ n < 0x80 := by
  rw [UInt8.lt_iff_toNat_lt, toNat_ofNat h]
  rfl

section Tails

variable {k : Nat}

theorem toNat_tail (hk : k < 64) : (tail k).toNat = 0x80 + k := toNat_ofNat (by omega)

theorem append_tail (bits : Nat) (hk : k < 64) : append bits (tail k) = bits * 64 + k := by
  unfold append
  rw [toNat_tail hk]
  omega

theorem isTail_tail (hk : k < 64) : isTail (tail k) = true := by
  simp only [isTail, Bool.and_eq_true, decide_eq_true_eq, UInt8.le_iff_toNat_le, toNat_tail hk]
  exact ⟨Nat.le_add_right _ _, by simp; omega⟩

theorem not_outside (lo k hi : Nat) (hlo : lo ≤ k) (hhi : k ≤ hi) (hlt : hi < 64) :
    ¬ (tail k < tail lo ∨ tail hi < tail k) := by
  rw [UInt8.lt_iff_toNat_lt, UInt8.lt_iff_toNat_lt, toNat_tail (by omega), toNat_tail (by omega),
    toNat_tail hlt]
  omega

end Tails

theorem ofNat?_val (c : CodePoint) : CodePoint.ofNat? c.val = some c := by
  rw [CodePoint.ofNat?, dif_pos c.isLt]

section Sequences

variable {a b c d lo hi : UInt8} {bits : Nat} {t : List UInt8}

theorem decodeUnits_two (hfirst : ¬ a < 0x80) (hlead : lead? a = some (1, lo, hi, bits))
    (hb : ¬ (b < lo ∨ hi < b)) :
    decodeUnits (a :: b :: t) = CodePoint.ofNat? (append bits b) :: decodeUnits t := by
  rw [decodeUnits.eq_def]
  simp [hfirst, hlead, hb]

theorem decodeUnits_three (hfirst : ¬ a < 0x80) (hlead : lead? a = some (2, lo, hi, bits))
    (hb : ¬ (b < lo ∨ hi < b)) (hc : isTail c = true) :
    decodeUnits (a :: b :: c :: t) =
      CodePoint.ofNat? (append (append bits b) c) :: decodeUnits t := by
  rw [decodeUnits.eq_def]
  simp [hfirst, hlead, hb, hc]

theorem decodeUnits_four (hfirst : ¬ a < 0x80) (hlead : lead? a = some (3, lo, hi, bits))
    (hb : ¬ (b < lo ∨ hi < b)) (hc : isTail c = true) (hd : isTail d = true) :
    decodeUnits (a :: b :: c :: d :: t) =
      CodePoint.ofNat? (append (append (append bits b) c) d) :: decodeUnits t := by
  rw [decodeUnits.eq_def]
  simp [hfirst, hlead, hb, hc, hd]

end Sequences

/-- The bytes of a code point are decoded as this code point, and nothing of what
follows is touched. -/
theorem decodeUnits_encodeOne_append {c : CodePoint} (hc : c.isSurrogate = false)
    (rest : List UInt8) :
    decodeUnits (encodeOne c ++ rest) = some c :: decodeUnits rest := by
  have hval := ofNat?_val c
  have hlt := c.isLt
  have hsurrogate : ¬ (0xD800 ≤ c.val ∧ c.val ≤ 0xDFFF) := by
    simpa [CodePoint.isSurrogate, CodePoint.within] using hc
  unfold encodeOne
  generalize c.val = n at hval hlt hsurrogate ⊢
  dsimp only
  rw [Nat.div_one]
  split
  · rename_i h
    have hfirst := (ofNat_lt_iff (n := n) (by omega)).mpr h
    rw [List.singleton_append, decodeUnits.eq_def]
    simp only [hfirst, if_true, toNat_ofNat (show n < 256 by omega), hval]
  split
  · rename_i h1 h2
    have hlead := lead?_two (n / 64 - 2) (by omega)
    have hfirst : 0xC2 + (n / 64 - 2) = 0xC0 + n / 64 := by omega
    rw [hfirst] at hlead
    have hsecond := not_outside 0 (n % 64) 63 (by omega) (by omega) (by omega)
    refine (decodeUnits_two ?_ hlead hsecond).trans ?_
    · rw [ofNat_lt_iff (by omega)]
      omega
    · rw [append_tail _ (by omega), ← hval]
      congr 2
      omega
  split
  · rename_i h1 h2 h3
    have hlead := lead?_three (n / 4096) (by omega)
    have hsecond := not_outside (if n / 4096 = 0 then 32 else 0) (n / 64 % 64)
      (if n / 4096 = 13 then 31 else 63) (by split <;> omega) (by split <;> omega)
      (by split <;> omega)
    refine (decodeUnits_three ?_ hlead hsecond (isTail_tail (by omega))).trans ?_
    · rw [ofNat_lt_iff (by omega)]
      omega
    · rw [append_tail _ (by omega), append_tail _ (by omega), ← hval]
      congr 2
      omega
  · rename_i h1 h2 h3
    have hlead := lead?_four (n / 262144) (by omega)
    have hsecond := not_outside (if n / 262144 = 0 then 16 else 0) (n / 4096 % 64)
      (if n / 262144 = 4 then 15 else 63) (by split <;> omega) (by split <;> omega)
      (by split <;> omega)
    refine (decodeUnits_four ?_ hlead hsecond (isTail_tail (by omega))
      (isTail_tail (by omega))).trans ?_
    · rw [ofNat_lt_iff (by omega)]
      omega
    · rw [append_tail _ (by omega), append_tail _ (by omega), append_tail _ (by omega), ← hval]
      congr 2
      omega

theorem decodeLossy_encode {t : Text} (h : ∀ c ∈ t, c.isSurrogate = false) :
    decodeLossy (encode t) = t := by
  unfold decodeLossy
  induction t with
  | nil => rfl
  | cons c t ih =>
      rw [List.forall_mem_cons] at h
      rw [encode, List.flatMap_cons, decodeUnits_encodeOne_append h.1, List.map_cons,
        Option.getD_some, ← encode, ih h.2]

end Utf8

end EdnLint
