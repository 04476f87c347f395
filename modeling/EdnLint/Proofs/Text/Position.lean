import EdnLint.Text.Position

/-!
# Positions of a text inside another

A walk over a text that starts at `origin` counts as a walk over the text by itself
does, only from another place: lines and offsets are moved by those of `origin`,
and columns are moved on the first line, as every later line starts at column one.
-/

namespace EdnLint

namespace Position

/-- Lines and columns are counted from one. -/
def IsCounted (p : Position) : Prop := 1 ≤ p.line ∧ 1 ≤ p.col

theorem first_isCounted : first.IsCounted := ⟨Nat.le_refl 1, Nat.le_refl 1⟩

theorem IsCounted.next {p : Position} (h : p.IsCounted) (c : CodePoint) : (p.next c).IsCounted := by
  unfold Position.next
  split
  · exact ⟨by simp, Nat.le_refl 1⟩
  · exact ⟨h.1, by simp⟩

theorem IsCounted.after {p : Position} (h : p.IsCounted) (t : Text) : (p.after t).IsCounted := by
  induction t generalizing p with
  | nil => exact h
  | cons c t ih => exact ih (h.next c)

theorem first_after_isCounted (t : Text) : (first.after t).IsCounted :=
  first_isCounted.after t

/-- The place of `q` if the text it is a position of starts at `origin`. -/
def relocate (origin q : Position) : Position where
  line := origin.line + (q.line - 1)
  col := if q.line = 1 then origin.col + (q.col - 1) else q.col
  offset := origin.offset + q.offset

@[simp] theorem relocate_first (origin : Position) : origin.relocate first = origin := rfl

theorem relocate_next (origin : Position) {q : Position} (hq : q.IsCounted) (c : CodePoint) :
    origin.relocate (q.next c) = (origin.relocate q).next c := by
  obtain ⟨hline, hcol⟩ := hq
  by_cases hc : c = '\n'
  · have hlater : q.line ≠ 0 := by omega
    simp only [relocate, next, hc, if_true, Nat.add_eq_right, hlater, if_false, mk.injEq,
      true_and]
    omega
  · by_cases hfirst : q.line = 1
    · simp only [relocate, next, hc, hfirst, if_true, if_false, mk.injEq, true_and]
      omega
    · simp only [relocate, next, hc, hfirst, if_false, mk.injEq, true_and]
      omega

theorem relocate_after (origin : Position) {q : Position} (hq : q.IsCounted) (t : Text) :
    origin.relocate (q.after t) = (origin.relocate q).after t := by
  induction t generalizing q with
  | nil => rfl
  | cons c t ih => rw [after_cons, after_cons, ih (hq.next c), relocate_next origin hq]

end Position

end EdnLint
