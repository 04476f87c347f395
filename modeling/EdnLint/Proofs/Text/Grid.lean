import EdnLint.Document.Reader
import EdnLint.Proofs.Text.Coordinates
import EdnLint.Proofs.Text.Position

/-!
# The lines of a text as a grid

`Text.lines` cuts a text at its line ends, and a walk counts lines and columns one
code point at a time. Both describe one grid: a cell is filled exactly if a walk
comes to its coordinates in front of a code point that does not end a line
(`charAt?_lines_eq_some_iff`). That the code points in front of a walk are found in
the grid is `charAt?_lines`. The other direction is an induction on the text: one
more code point in front either starts a line of its own, or is dropped because a
line feed follows it, or is put in front of the first line (`lines_cons`).
-/

namespace EdnLint

namespace Text

/-- The code point at an offset belongs to a line end: it is a line feed, or a
carriage return with a line feed behind it. -/
def EndsLineAt (t : Text) (o : Nat) : Prop :=
  t[o]? = some (CodePoint.ofChar '\n') ∨
    t[o]? = some (CodePoint.ofChar '\r') ∧ t[o + 1]? = some (CodePoint.ofChar '\n')

instance (t : Text) (o : Nat) : Decidable (EndsLineAt t o) := inferInstanceAs (Decidable (_ ∨ _))

theorem endsLineAt_append_cons (u v : Text) (c : CodePoint) :
    EndsLineAt (u ++ c :: v) u.length ↔
      c = '\n' ∨ c = '\r' ∧ v.head? = some (CodePoint.ofChar '\n') := by
  simp [EndsLineAt, List.getElem?_append_right, List.head?_eq_getElem?]

/-- Nothing stands in front of the first line feed exactly if the text starts with it. -/
theorem head?_eq_feed_iff {t piece : Text} {pieces : List Text}
    (h : splitOn '\n' t = piece :: pieces) :
    t.head? = some (CodePoint.ofChar '\n') ↔ piece = [] ∧ pieces ≠ [] := by
  cases t with
  | nil =>
      cases h
      simp
  | cons c t =>
      cases hrest : splitOn '\n' t with
      | nil => exact absurd hrest (splitOn_ne_nil '\n' t)
      | cons next others =>
          by_cases hc : c = '\n'
          · simp only [splitOn, hrest, hc, if_true, List.cons.injEq] at h
            simp [hc, ← h.1, ← h.2]
          · simp only [splitOn, hrest, hc, if_false, List.cons.injEq] at h
            simp [hc, ← h.1]

/-- The lines of a text with one more code point in front. -/
theorem lines_cons (c : CodePoint) (t : Text) :
    lines (c :: t) =
      if c = '\n' then [] :: lines t
      else if c = '\r' ∧ t.head? = some (CodePoint.ofChar '\n') then lines t
      else (lines t).modifyHead (c :: ·) := by
  unfold lines
  cases hsplit : splitOn '\n' t with
  | nil => exact absurd hsplit (splitOn_ne_nil '\n' t)
  | cons piece pieces =>
      by_cases hc : c = '\n'
      · simp [splitOn, hsplit, hc, dropLineReturns, dropLineReturn]
      · simp only [splitOn, hsplit, hc, if_false, head?_eq_feed_iff hsplit]
        -- only the last piece keeps what stands at its end
        cases pieces with
        | nil => simp [dropLineReturns]
        | cons next others =>
            cases piece with
            | nil => by_cases hr : c = '\r' <;> simp [dropLineReturns, dropLineReturn, hr]
            | cons d piece => simp [dropLineReturns, dropLineReturn]

theorem lines_ne_nil (t : Text) : lines t ≠ [] := by
  intro h
  have hlength : (splitOn '\n' t).length = 0 := by
    rw [← length_dropLineReturns, ← lines, h, List.length_nil]
  exact splitOn_ne_nil '\n' t (List.eq_nil_of_length_eq_zero hlength)

/-- There is one line more than there are line feeds. -/
theorem length_lines (t : Text) : (lines t).length = 1 + t.count (CodePoint.ofChar '\n') := by
  induction t with
  | nil => rfl
  | cons c t ih =>
      rw [lines_cons, List.count_cons]
      by_cases hc : c = '\n'
      · simp only [hc, if_true, List.length_cons, ih, beq_self_eq_true]
        omega
      · simp only [hc, if_false, beq_iff_eq, Nat.add_zero]
        split
        · exact ih
        · rw [List.length_modifyHead, ih]

theorem lastLine_append_feed (u v : Text) :
    lastLine (u ++ CodePoint.ofChar '\n' :: v) = lastLine v := by
  induction v using List.reverseRecOn with
  | nil =>
      rw [lastLine_concat, if_pos rfl]
      rfl
  | append_singleton v c ih =>
      rw [← List.cons_append, ← List.append_assoc, lastLine_concat, lastLine_concat, ih]

theorem lastLine_cons_of_mem (c : CodePoint) {u : Text} (h : CodePoint.ofChar '\n' ∈ u) :
    lastLine (c :: u) = lastLine u := by
  obtain ⟨s, v, rfl⟩ := List.append_of_mem h
  rw [← List.cons_append, lastLine_append_feed, lastLine_append_feed]

theorem lastLine_of_not_mem {u : Text} (h : CodePoint.ofChar '\n' ∉ u) : lastLine u = u := by
  induction u using List.reverseRecOn with
  | nil => rfl
  | append_singleton u d ih =>
      rw [List.mem_append, not_or, List.mem_singleton] at h
      rw [lastLine_concat, if_neg (Ne.symm h.2), ih h.1]

/-- A code point that does not end a line stands behind `i` line feeds, with `j` code
points of its own line in front of it. -/
def HoldsAt (t : Text) (i j : Nat) (c : CodePoint) : Prop :=
  ∃ u v, t = u ++ c :: v ∧ ¬ EndsLineAt t u.length ∧
    u.count (CodePoint.ofChar '\n') = i ∧ (lastLine u).length = j

namespace HoldsAt

variable {t : Text} {i j : Nat} {c d : CodePoint}

theorem here (hfeed : d ≠ '\n') (hreturn : ¬ (d = '\r' ∧ t.head? = some (CodePoint.ofChar '\n'))) :
    HoldsAt (d :: t) 0 0 d := by
  refine ⟨[], t, rfl, ?_, rfl, rfl⟩
  rw [← List.nil_append (d :: t), endsLineAt_append_cons]
  exact fun h => h.elim hfeed hreturn

theorem below (h : HoldsAt t i j c) : HoldsAt ('\n' :: t) (i + 1) j c := by
  obtain ⟨u, v, rfl, hends, rfl, rfl⟩ := h
  refine ⟨CodePoint.ofChar '\n' :: u, v, rfl, hends, List.count_cons_self, ?_⟩
  rw [← List.nil_append (_ :: u), lastLine_append_feed]

theorem right (h : HoldsAt t 0 j c) (hd : d ≠ '\n') : HoldsAt (d :: t) 0 (j + 1) c := by
  obtain ⟨u, v, rfl, hends, hcount, rfl⟩ := h
  have hu : CodePoint.ofChar '\n' ∉ u := List.count_eq_zero.mp hcount
  have hdu : CodePoint.ofChar '\n' ∉ d :: u := by
    rw [List.mem_cons, not_or]
    exact ⟨Ne.symm hd, hu⟩
  refine ⟨d :: u, v, rfl, hends, List.count_eq_zero.mpr hdu, ?_⟩
  rw [lastLine_of_not_mem hu, lastLine_of_not_mem hdu, List.length_cons]

theorem later (h : HoldsAt t (i + 1) j c) (hd : d ≠ '\n') : HoldsAt (d :: t) (i + 1) j c := by
  obtain ⟨u, v, rfl, hends, hcount, rfl⟩ := h
  have hu : CodePoint.ofChar '\n' ∈ u := by
    rw [← List.count_pos_iff, hcount]
    exact Nat.succ_pos i
  refine ⟨d :: u, v, rfl, hends, ?_, by rw [lastLine_cons_of_mem d hu]⟩
  rw [List.count_cons_of_ne hd, hcount]

end HoldsAt

/-- What a cell of the grid holds stands in the text, at its line and column. -/
theorem holdsAt_of_lines {t cells : Text} {i j : Nat} {c : CodePoint}
    (hline : (lines t)[i]? = some cells) (hcol : cells[j]? = some c) : HoldsAt t i j c := by
  induction t generalizing i j cells with
  | nil =>
      cases i with
      | zero =>
          cases hline
          cases hcol
      | succ i => cases hline
  | cons d t ih =>
      rw [lines_cons] at hline
      by_cases hd : d = '\n'
      · rw [if_pos hd] at hline
        cases i with
        | zero =>
            cases hline
            cases hcol
        | succ i =>
            rw [hd]
            exact (ih hline hcol).below
      rw [if_neg hd] at hline
      split at hline
      · -- the line feed that follows leaves nothing on the first line
        rename_i hreturn
        have hholds := ih hline hcol
        cases i with
        | zero =>
            cases t with
            | nil => cases hreturn.2
            | cons e t =>
                obtain rfl : e = '\n' := by simpa using hreturn.2
                rw [lines_cons, if_pos rfl] at hline
                cases hline
                cases hcol
        | succ i => exact hholds.later hd
      · rename_i hreturn
        cases hlines : lines t with
        | nil => exact absurd hlines (lines_ne_nil t)
        | cons first others =>
            rw [hlines] at ih hline
            cases i with
            | zero =>
                cases hline
                cases j with
                | zero =>
                    obtain rfl : d = c := by simpa using hcol
                    exact .here hd hreturn
                | succ j => exact (ih (i := 0) rfl hcol).right hd
            | succ i => exact (ih (i := i + 1) hline hcol).later hd

/-- A cell of the grid is filled exactly by what a walk has in front of it there, line
ends apart. -/
theorem charAt?_lines_eq_some_iff {t : Text} {line col : Int} {c : CodePoint} :
    charAt? (lines t) (line - 1) (col - 1) = some c ↔
      ∃ o, t[o]? = some c ∧ ¬ EndsLineAt t o ∧ (Position.first.after (t.take o)).line = line ∧
        (Position.first.after (t.take o)).col = col := by
  constructor
  · intro h
    obtain ⟨i, rfl⟩ : ∃ i : Nat, line = i + 1 := by
      cases hi : line - 1 with
      | ofNat i => exact ⟨i, by simp at hi; omega⟩
      | negSucc i => simp [hi, charAt?] at h
    obtain ⟨j, rfl⟩ : ∃ j : Nat, col = j + 1 := by
      cases hj : col - 1 with
      | ofNat j => exact ⟨j, by simp at hj; omega⟩
      | negSucc j => simp [hj, charAt?] at h
    rw [Int.add_sub_cancel, Int.add_sub_cancel, charAt?_natCast, Option.bind_eq_some_iff] at h
    obtain ⟨l, hline, hcol⟩ := h
    obtain ⟨u, v, rfl, hends, rfl, rfl⟩ := holdsAt_of_lines hline hcol
    refine ⟨u.length, by simp, hends, ?_⟩
    rw [List.take_left, Position.first_after]
    simp [Position.ofOffset, Int.add_comm]
  · rintro ⟨o, ho, hends, rfl, rfl⟩
    obtain ⟨u, v, rfl, rfl⟩ : ∃ u v, t = u ++ c :: v ∧ u.length = o := by
      obtain ⟨hlt, rfl⟩ := List.getElem?_eq_some_iff.mp ho
      refine ⟨t.take o, t.drop (o + 1), ?_, List.length_take_of_le hlt.le⟩
      rw [List.getElem_cons_drop, List.take_append_drop]
    rw [endsLineAt_append_cons, not_or, not_and] at hends
    rw [List.take_left, Position.first_after]
    have hcell := charAt?_lines (u := u) hends.1 hends.2
    simpa [Position.ofOffset, Int.add_comm 1] using hcell

/-- The lines of a text and the counters of the reader describe one grid. There is one
line more than there are line feeds. The cell at the coordinates that the reader has
counted in front of a code point holds this code point, unless it ends a line, and
every other cell, off the grid or on it, is empty. -/
theorem lines_grid (t : Text) :
    (lines t).length = 1 + t.count (CodePoint.ofChar '\n') ∧
      (∀ o r, Reader.initial.feed (t.take o) = .ok r →
        r.position = Position.first.after (t.take o)) ∧
      (∀ o c, t[o]? = some c → ¬ EndsLineAt t o →
        charAt? (lines t) ((Position.first.after (t.take o)).line - 1)
          ((Position.first.after (t.take o)).col - 1) = some c) ∧
      ∀ line col : Int,
        (¬ ∃ o < t.length, ¬ EndsLineAt t o ∧ (Position.first.after (t.take o)).line = line ∧
          (Position.first.after (t.take o)).col = col) →
        charAt? (lines t) (line - 1) (col - 1) = none := by
  refine ⟨length_lines t, fun o r h => Reader.feed_position h, fun o c ho hends => ?_,
    fun line col hother => ?_⟩
  · exact charAt?_lines_eq_some_iff.mpr ⟨o, ho, hends, rfl, rfl⟩
  · rw [Option.eq_none_iff_forall_ne_some]
    intro c hcell
    obtain ⟨o, ho, hends, rfl, rfl⟩ := charAt?_lines_eq_some_iff.mp hcell
    obtain ⟨hlt, -⟩ := List.getElem?_eq_some_iff.mp ho
    exact hother ⟨o, hlt, hends, rfl, rfl⟩

/-- A carriage return that no line feed follows is a cell of its line, and so is the first
of two in front of a line feed. The second of them leaves its cell empty. -/
theorem lines_grid_returns :
    let t : Text := "\r\r\na\rb"
    (lines t).length = 2 ∧
      charAt? (lines t) (1 - 1) (1 - 1) = some (CodePoint.ofChar '\r') ∧
      charAt? (lines t) (1 - 1) (2 - 1) = none ∧
      charAt? (lines t) (2 - 1) (3 - 1) = some (CodePoint.ofChar 'b') := by
  intro t
  obtain ⟨hlength, -, hcells, hothers⟩ := lines_grid t
  have hfirst := hcells 0 (CodePoint.ofChar '\r') rfl (by decide)
  have hlast := hcells 5 (CodePoint.ofChar 'b') rfl (by decide)
  have hempty := hothers 1 2 (by decide)
  exact ⟨hlength, hfirst, hempty, hlast⟩

end Text

end EdnLint
