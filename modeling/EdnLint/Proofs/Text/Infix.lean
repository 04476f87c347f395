import EdnLint.Text.Quoted
import Mathlib.Data.List.Infix

/-!
# Parts of texts

Where a part occurs in a text that is put together, it may lie across the seams. Three
things keep it from doing so. A text in front that has not the first code point of the part
can be left out, and so can a text behind that has not the last one. A separator that the
part does not have cuts the text in two.
-/

namespace EdnLint

namespace Text

variable {part a b : Text} {c : CodePoint}

/-- The search finds the parts that are there. -/
theorem hasInfix_iff (part t : Text) : hasInfix part t = true ↔ part <:+: t := by
  induction t with
  | nil => rw [hasInfix, List.isEmpty_iff, List.infix_nil]
  | cons c t ih =>
      rw [hasInfix, Bool.or_eq_true, ih, List.isPrefixOf_iff_prefix, List.infix_cons_iff]

/-- What is in front of the first place where the part can start does not count. -/
theorem infix_append_iff_of_head (hhead : part.head? = some c) (hc : c ∉ a) :
    part <:+: a ++ b ↔ part <:+: b := by
  constructor
  · intro h
    rcases List.infix_append_iff.mp h with ha | hb | ⟨before, after, rfl, hbefore, hafter⟩
    · exact absurd (ha.subset (List.mem_of_head? hhead)) hc
    · exact hb
    · cases before with
      | nil => exact hafter.isInfix
      | cons d before =>
          rw [List.cons_append, List.head?_cons, Option.some.injEq] at hhead
          subst hhead
          exact absurd (hbefore.subset List.mem_cons_self) hc
  · exact fun h => h.trans (List.suffix_append a b).isInfix

/-- What is behind the last place where the part can end does not count. -/
theorem infix_append_iff_of_getLast (hlast : part.getLast? = some c) (hc : c ∉ b) :
    part <:+: a ++ b ↔ part <:+: a := by
  have hback : part.reverse <:+: b.reverse ++ a.reverse ↔ part.reverse <:+: a.reverse :=
    infix_append_iff_of_head (by rw [List.head?_reverse, hlast]) (by simpa using hc)
  rw [← List.reverse_append, List.reverse_infix, List.reverse_infix] at hback
  exact hback

/-- A part without the separator is on one side of it. -/
theorem infix_separator_iff (hpart : part ≠ []) (hc : c ∉ part) :
    part <:+: a ++ c :: b ↔ part <:+: a ∨ part <:+: b := by
  constructor
  · intro h
    rcases List.infix_append_iff.mp h with ha | hb | ⟨before, after, rfl, hbefore, hafter⟩
    · exact Or.inl ha
    · rcases List.infix_cons_iff.mp hb with hfirst | hb
      · cases part with
        | nil => exact absurd rfl hpart
        | cons d part =>
            rw [List.cons_prefix_cons] at hfirst
            exact absurd (by simp [hfirst.1]) hc
      · exact Or.inr hb
    · cases after with
      | nil => exact Or.inl (by simpa using hbefore.isInfix)
      | cons d after =>
          rw [List.cons_prefix_cons] at hafter
          exact absurd (by simp [hafter.1]) hc
  · rintro (ha | hb)
    · exact ha.trans (List.prefix_append a _).isInfix
    · exact (List.infix_cons hb).trans (List.suffix_append a _).isInfix

end Text

end EdnLint
