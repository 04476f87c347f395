import EdnLint.Proofs.Text.Digits
import EdnLint.Datum.Display
import EdnLint.Schema.Vocabulary

/-!
# Texts without spaces

Some of what a message quotes is always a single word: a number, which is written with
digits, a sign, a point and a few letters, and the name of a type.
-/

namespace EdnLint

namespace Text

theorem space_not_mem_ofNat (n : Nat) : CodePoint.ofChar ' ' ∉ ofNat n := by
  intro h
  exact absurd (isDigit_of_mem_ofNat h) (by decide)

theorem space_not_mem_ofInt (n : Int) : CodePoint.ofChar ' ' ∉ ofInt n := by
  cases n with
  | ofNat n => exact space_not_mem_ofNat n
  | negSucc n =>
      rw [ofInt, List.mem_cons, not_or]
      exact ⟨by decide, space_not_mem_ofNat (n + 1)⟩

theorem space_not_mem_zeros (n : Nat) : CodePoint.ofChar ' ' ∉ zeros n := by
  intro h
  exact absurd (List.eq_of_mem_replicate h) (by decide)

theorem space_not_mem_sign (negative : Bool) :
    CodePoint.ofChar ' ' ∉ (if negative then ("-" : Text) else []) := by
  cases negative <;> decide

end Text

open Text

namespace Decimal

theorem space_not_mem_text (d : Decimal) : CodePoint.ofChar ' ' ∉ d.text := by
  have hdigits : CodePoint.ofChar ' ' ∉ d.digits := space_not_mem_ofNat d.coefficient
  have hpoint : CodePoint.ofChar ' ' ≠ CodePoint.ofChar '.' := by decide
  have hbody : ∀ point : Int, CodePoint.ofChar ' ' ∉
      (if point ≤ 0 then ("0." : Text) ++ zeros point.natAbs ++ d.digits
        else if d.digits.length ≤ point.toNat then
          d.digits ++ zeros (point.toNat - d.digits.length)
        else d.digits.take point.toNat ++ CodePoint.ofChar '.' :: d.digits.drop point.toNat) := by
    intro point
    split
    · simp only [List.mem_append, not_or]
      exact ⟨⟨by decide, space_not_mem_zeros _⟩, hdigits⟩
    · split
      · rw [List.mem_append, not_or]
        exact ⟨hdigits, space_not_mem_zeros _⟩
      · simp only [List.mem_append, List.mem_cons, not_or]
        exact ⟨fun h => hdigits (List.mem_of_mem_take h), hpoint,
          fun h => hdigits (List.mem_of_mem_drop h)⟩
  have hscale : ∀ shift : Int, CodePoint.ofChar ' ' ∉
      (if shift = 0 then []
        else if shift < 0 then CodePoint.ofChar 'E' :: ofInt shift
        else ("E+" : Text) ++ ofInt shift) := by
    intro shift
    split
    · exact List.not_mem_nil
    · split
      · rw [List.mem_cons, not_or]
        exact ⟨by decide, space_not_mem_ofInt shift⟩
      · rw [List.mem_append, not_or]
        exact ⟨by decide, space_not_mem_ofInt shift⟩
  rw [text, List.mem_append, List.mem_append, not_or, not_or]
  exact ⟨⟨space_not_mem_sign d.negative, hbody _⟩, hscale _⟩

end Decimal

namespace Binary64

theorem space_not_mem_leadingDigits (digits : Nat) (exponent : Int) :
    CodePoint.ofChar ' ' ∉ (leadingDigits digits exponent).1 := by
  intro h
  have hmem := (List.dropWhile_sublist _).subset (List.mem_reverse.mp h)
  exact space_not_mem_ofNat digits (List.mem_reverse.mp hmem)

theorem space_not_mem_exponentText (e : Int) : CodePoint.ofChar ' ' ∉ exponentText e := by
  have hdigits := space_not_mem_ofNat e.natAbs
  have hzero : CodePoint.ofChar ' ' ≠ CodePoint.ofChar '0' := by decide
  rw [exponentText, List.mem_cons, not_or]
  constructor
  · split <;> decide
  · split <;> simp [hdigits, hzero]

theorem space_not_mem_magnitudeText (mantissa : Nat) (exponent : Int) :
    CodePoint.ofChar ' ' ∉ magnitudeText mantissa exponent := by
  have hpoint : CodePoint.ofChar ' ' ≠ CodePoint.ofChar '.' := by decide
  have hdigits := space_not_mem_leadingDigits (shortest mantissa exponent).1
    (shortest mantissa exponent).2
  simp only [magnitudeText]
  generalize leadingDigits (shortest mantissa exponent).1 (shortest mantissa exponent).2 = read
    at hdigits ⊢
  have htake : ∀ n, CodePoint.ofChar ' ' ∉ read.1.take n := fun n h =>
    hdigits (List.mem_of_mem_take h)
  have hdrop : ∀ n, CodePoint.ofChar ' ' ∉ read.1.drop n := fun n h =>
    hdigits (List.mem_of_mem_drop h)
  split
  · decide
  · split
    · simp only [List.mem_append, List.mem_cons, not_or]
      refine ⟨⟨htake 1, ?_⟩, by decide, space_not_mem_exponentText _⟩
      split
      · exact List.not_mem_nil
      · rw [List.mem_cons, not_or]
        exact ⟨hpoint, hdrop 1⟩
    · split
      · simp only [List.mem_append, not_or]
        exact ⟨⟨by decide, space_not_mem_zeros _⟩, hdigits⟩
      · simp only [List.mem_append, List.mem_cons, not_or]
        refine ⟨⟨htake _, space_not_mem_zeros _⟩, hpoint, ?_⟩
        split
        · decide
        · exact hdrop _

theorem space_not_mem_text (x : Binary64) : CodePoint.ofChar ' ' ∉ x.text := by
  cases x with
  | nan => decide
  | infinity negative => cases negative <;> decide
  | finite negative mantissa exponent =>
      rw [text, List.mem_append, not_or]
      exact ⟨space_not_mem_sign negative, space_not_mem_magnitudeText mantissa exponent⟩

end Binary64

namespace Number

theorem space_not_mem_intText {n : Int} {t : Text} (h : intText n = .ok t) :
    CodePoint.ofChar ' ' ∉ t := by
  rw [intText] at h
  split at h
  · cases h
  · cases h
    exact space_not_mem_ofInt n

/-- No space is in the text of a number. -/
theorem space_not_mem_text {n : Number} {t : Text} (h : n.text = .ok t) :
    CodePoint.ofChar ' ' ∉ t := by
  cases n with
  | int n => exact space_not_mem_intText h
  | float x =>
      cases h
      exact x.space_not_mem_text
  | decimal d =>
      cases h
      exact d.space_not_mem_text
  | ratio r =>
      cases hnum : intText r.num with
      | error fault => simp [text, ratioText, hnum, bind, Except.bind] at h
      | ok num =>
          have hspace := space_not_mem_intText hnum
          simp only [text, ratioText, hnum, bind, Except.bind] at h
          split at h
          · cases h
            exact hspace
          · cases hden : intText r.den with
            | error fault => simp [hden] at h
            | ok den =>
                rw [hden] at h
                cases h
                rw [List.mem_append, List.mem_cons, not_or, not_or]
                exact ⟨hspace, by decide, space_not_mem_intText hden⟩

end Number

/-- No space is in the text of a number or a truth value. -/
theorem Atom.space_not_mem_plain {a : Atom} (ha : a.numeric?.isSome = true) {t : Text}
    (h : a.plain = .ok t) : CodePoint.ofChar ' ' ∉ t := by
  cases a with
  | bool b =>
      cases h
      cases b <;> decide
  | number n => exact Number.space_not_mem_text h
  | _ => cases ha

theorem Atom.space_not_mem_typeName (a : Atom) : CodePoint.ofChar ' ' ∉ a.typeName := by
  cases a with
  | number n => cases n <;> (simp only [typeName]; decide)
  | _ => simp only [typeName]; decide

theorem Datum.space_not_mem_typeName (d : Datum) : CodePoint.ofChar ' ' ∉ d.typeName := by
  cases d with
  | atom a => exact a.space_not_mem_typeName
  | _ => simp only [typeName]; decide

theorem SchemaType.space_not_mem_name (t : SchemaType) : CodePoint.ofChar ' ' ∉ t.name := by
  cases t <;> decide

end EdnLint
