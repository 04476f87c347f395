import EdnLint.Datum.Name

/-!
# Names that are put together and taken apart

A definition is known by its name qualified by its namespace. The qualified name
gives both parts back as long as the namespace is a name without a stroke; the
name of the definition may hold strokes of its own. A namespace with a stroke is cut
at its own first stroke, and then neither part comes back.
-/

namespace EdnLint

theorem Text.splitFirst?_append {separator : CodePoint} {before : Text}
    (h : separator ∉ before) (after : Text) :
    splitFirst? separator (before ++ separator :: after) = some (before, after) := by
  induction before with
  | nil => simp [splitFirst?]
  | cons c before ih =>
      rw [List.mem_cons, not_or] at h
      have hne : c ≠ separator := fun e => h.1 e.symm
      simp [splitFirst?, hne, ih h.2]

namespace Name

variable {qualifier base : Text}

theorem split_qualify (hq : qualifier ≠ []) (hstroke : CodePoint.ofChar '/' ∉ qualifier)
    (hb : base ≠ []) : split (qualify qualifier base) = (some qualifier, base) := by
  simp [split, qualify, Text.splitFirst?_append hstroke, hq, hb]

theorem qualifier?_qualify (hq : qualifier ≠ []) (hstroke : CodePoint.ofChar '/' ∉ qualifier)
    (hb : base ≠ []) : qualifier? (qualify qualifier base) = some qualifier := by
  rw [qualifier?, split_qualify hq hstroke hb]

theorem base_qualify (hq : qualifier ≠ []) (hstroke : CodePoint.ofChar '/' ∉ qualifier)
    (hb : base ≠ []) : Name.base (qualify qualifier base) = base := by
  rw [Name.base, split_qualify hq hstroke hb]

/-- A qualifier with a stroke loses what is behind the stroke to the base. -/
theorem split_qualify_of_stroke (hstroke : CodePoint.ofChar '/' ∈ qualifier) (base : Text) :
    qualifier? (qualify qualifier base) ≠ some qualifier ∧
      base.length < (Name.base (qualify qualifier base)).length := by
  rcases List.eq_append_cons_of_mem hstroke with ⟨before, after, rfl, hbefore⟩
  have hsplit : Text.splitFirst? '/' (qualify (before ++ CodePoint.ofChar '/' :: after) base) =
      some (before, qualify after base) := by
    rw [qualify, List.append_assoc]
    exact Text.splitFirst?_append hbefore _
  simp only [qualifier?, Name.base, split, hsplit]
  split
  · refine ⟨by simp, ?_⟩
    simp only [qualify, List.length_append, List.length_cons]
    omega
  · refine ⟨by simp, ?_⟩
    simp only [qualify, List.length_append, List.length_cons]
    omega

theorem qualifier?_qualify_eq_some_iff (hq : qualifier ≠ []) (hb : base ≠ []) :
    qualifier? (qualify qualifier base) = some qualifier ↔ CodePoint.ofChar '/' ∉ qualifier := by
  refine ⟨fun heq hstroke => ?_, fun hstroke => qualifier?_qualify hq hstroke hb⟩
  exact (split_qualify_of_stroke hstroke base).1 heq

theorem base_qualify_eq_iff (hq : qualifier ≠ []) (hb : base ≠ []) :
    Name.base (qualify qualifier base) = base ↔ CodePoint.ofChar '/' ∉ qualifier := by
  refine ⟨fun heq hstroke => ?_, fun hstroke => base_qualify hq hstroke hb⟩
  have hlonger := (split_qualify_of_stroke hstroke base).2
  rw [heq] at hlonger
  exact Nat.lt_irrefl _ hlonger

end Name

end EdnLint
