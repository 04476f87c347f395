import EdnLint.Text.Lines
import EdnLint.Text.Position
import Mathlib.Data.List.DropRight

/-!
# Lines and columns of an offset

`Position.ofOffset t o` says what the line and the column of the offset `o` are
without walking there: the line feeds before it, and the code points behind the
last of them. A walk comes to these coordinates (`first_after`), and the grid
that `Text.lines` makes of the text has at them what stands at the offset
(`charAt?_lines`). The grid leaves out what ends a line: the line feed, and a
carriage return in front of one.
-/

namespace EdnLint

namespace Text

/-- The code points behind the last line feed. -/
def lastLine (t : Text) : Text := t.rtakeWhile fun c => c ≠ '\n'

@[simp] theorem lastLine_nil : lastLine [] = [] := rfl

theorem lastLine_concat (t : Text) (c : CodePoint) :
    lastLine (t ++ [c]) = if c = '\n' then [] else lastLine t ++ [c] := by
  unfold lastLine
  rw [List.rtakeWhile_concat]
  by_cases hc : c = '\n' <;> simp [hc]

end Text

namespace Position

/-- The line, the column and the offset of the place in front of the `o`-th code
point. -/
def ofOffset (t : Text) (o : Nat) : Position where
  line := 1 + (t.take o).count (CodePoint.ofChar '\n')
  col := 1 + (Text.lastLine (t.take o)).length
  offset := o

theorem first_after (t : Text) : first.after t = ofOffset t t.length := by
  induction t using List.reverseRecOn with
  | nil => rfl
  | append_singleton t c ih =>
      rw [after_append, ih, after_cons, after_nil]
      unfold ofOffset next
      by_cases hc : c = '\n'
      · simp [Text.lastLine_concat, hc, List.take_of_length_le, Nat.add_assoc]
      · simp [Text.lastLine_concat, hc, List.take_of_length_le, Nat.add_assoc]

/-- A walk over the front of a text is at the offset of what follows. -/
theorem first_after_append (u v : Text) : first.after u = ofOffset (u ++ v) u.length := by
  rw [first_after]
  simp [ofOffset]

end Position

namespace Text

/-- The separators of `u` stand in front of the piece that its end and the start of
`v` make together. -/
theorem exists_splitOn_append (u v : Text) :
    ∃ before first after, before.length = u.count (CodePoint.ofChar '\n') ∧
      splitOn '\n' v = first :: after ∧
      splitOn '\n' (u ++ v) = before ++ (lastLine u ++ first) :: after := by
  induction u using List.reverseRecOn generalizing v with
  | nil =>
      cases hv : splitOn '\n' v with
      | nil => exact absurd hv (splitOn_ne_nil '\n' v)
      | cons first after => exact ⟨[], first, after, rfl, rfl, hv⟩
  | append_singleton u c ih =>
      rcases ih (c :: v) with ⟨before, first', after', hbefore, hsplit, happend⟩
      rw [List.append_assoc, List.singleton_append, happend, lastLine_concat, List.count_append]
      cases hv : splitOn '\n' v with
      | nil => exact absurd hv (splitOn_ne_nil '\n' v)
      | cons first after =>
          by_cases hc : c = '\n'
          · simp only [splitOn, hv, hc, if_true, List.cons.injEq] at hsplit
            rcases hsplit with ⟨rfl, rfl⟩
            refine ⟨before ++ [lastLine u], first, after, ?_, rfl, ?_⟩
            · simp [hbefore, hc]
            · simp [hc]
          · simp only [splitOn, hv, hc, if_false, List.cons.injEq] at hsplit
            rcases hsplit with ⟨rfl, rfl⟩
            refine ⟨before, first, after, ?_, rfl, ?_⟩
            · simp [hbefore, hc]
            · simp [hc]

theorem getElem?_dropLineReturns (before after : List Text) (line : Text) :
    (dropLineReturns (before ++ line :: after))[before.length]? =
      some (if after.isEmpty then line else dropLineReturn line) := by
  induction before with
  | nil => cases after <;> rfl
  | cons piece before ih =>
      cases before with
      | nil => simpa [dropLineReturns] using ih
      | cons next before => simpa [dropLineReturns] using ih

/-- Only a carriage return at the end of a line is dropped. -/
theorem getElem?_dropLineReturn {c : CodePoint} {rest : Text} (h : c = '\r' → rest ≠ [])
    (line : Text) : (dropLineReturn (line ++ c :: rest))[line.length]? = some c := by
  induction line with
  | nil =>
      cases rest with
      | nil =>
          have hc : c ≠ '\r' := fun hc => h hc rfl
          simp [dropLineReturn, hc]
      | cons d rest => rfl
  | cons d line ih =>
      cases line with
      | nil => simpa [dropLineReturn] using ih
      | cons e line => simpa [dropLineReturn] using ih

theorem charAt?_natCast (lines : List Text) (line col : Nat) :
    charAt? lines line col = lines[line]?.bind fun l => l[col]? := rfl

/-- The grid has a code point at its line and column, unless it ends the line. -/
theorem charAt?_lines {u v : Text} {c : CodePoint} (hfeed : c ≠ '\n')
    (hreturn : c = '\r' → v.head? ≠ some (CodePoint.ofChar '\n')) :
    charAt? (lines (u ++ c :: v)) (u.count (CodePoint.ofChar '\n') : Nat)
      ((lastLine u).length : Nat) = some c := by
  rcases exists_splitOn_append (u ++ [c]) v with ⟨before, first, after, hbefore, hv, happend⟩
  rw [List.append_assoc, List.singleton_append, lastLine_concat, if_neg hfeed,
    List.append_assoc, List.singleton_append] at happend
  rw [List.count_append, List.count_singleton] at hbefore
  have hbefore' : before.length = u.count (CodePoint.ofChar '\n') := by simpa [hfeed] using hbefore
  rw [charAt?_natCast, lines, happend, ← hbefore', getElem?_dropLineReturns]
  -- on the last line nothing is dropped, and on another one what follows `c` is not its end
  by_cases hafter : after.isEmpty = true
  · simp [hafter]
  · rw [if_neg hafter]
    refine getElem?_dropLineReturn (fun hc hfirst => ?_) (lastLine u)
    apply hreturn hc
    cases v with
    | nil =>
        cases hv
        exact absurd rfl hafter
    | cons d v =>
        by_cases hd : d = '\n'
        · rw [hd]
          rfl
        · cases hrest : splitOn '\n' v with
          | nil => exact absurd hrest (splitOn_ne_nil '\n' v)
          | cons piece pieces =>
              simp only [splitOn, hrest, hd, if_false, List.cons.injEq] at hv
              rw [← hv.1] at hfirst
              cases hfirst

end Text

end EdnLint
