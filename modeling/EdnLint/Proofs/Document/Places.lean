import EdnLint.Proofs.Document.Decidable
import EdnLint.Proofs.Document.Parts
import EdnLint.Proofs.Text.Coordinates

/-!
# The places that reading names

The tree of a text and the error of a text that does not read both name positions.
A node stands between two positions of a walk over the text. An error names a code
point at fault, or the one at which the form or the lexeme around it began, and
none of these is a blank.

The second half is an invariant of the reader. What an error may name later is
kept in the stack and in the mode, so it is enough that these hold marks only
(`Reader.Marked M`), where a step adds the position it is at, and only for a code
point that is no blank (`Reader.step_yields`).
-/

namespace EdnLint

open Grammar

section

variable {M : Position → Prop}

def Frame.start : Frame → Position
  | .collection _ _ start _ => start
  | .pending _ _ _ start _ => start

/-- Every form that has begun did so at a mark. -/
def Stack.Marked (M : Position → Prop) (s : Stack) : Prop := ∀ f ∈ s.frames, M f.start

/-- A lexeme began at a mark, and an escape inside of it did as well. -/
def Mode.Marked (M : Position → Prop) : Mode → Prop
  | .blank | .comment => True
  | .token start _ | .dispatch start | .tag start _ | .symbolic start _ | .backslash start
  | .character start _ | .string _ start _ => M start
  | .escape _ start _ place | .digits start _ place _ => M start ∧ M place

structure Reader.Marked (M : Position → Prop) (r : Reader) : Prop where
  mode : r.mode.Marked M
  stack : r.stack.Marked M

/-- Reading comes to a result with the property `P` or to an error at a mark. A fault
names no place. -/
def Yields {α : Type} (M : Position → Prop) (P : α → Prop) : Except ReadFailure α → Prop
  | .ok a => P a
  | .error (.error e) => M e.position
  | .error (.fault _) => True

theorem Yields.of_error {α β : Type} {P : α → Prop} {Q : β → Prop} {e : ReadFailure}
    (h : Yields M P (.error e)) : Yields M Q (.error e) := by
  cases e <;> exact h

namespace Stack

theorem Marked.push {s : Stack} (hs : s.Marked M) {f : Frame} (hf : M f.start) :
    (s.push f).Marked M :=
  List.forall_mem_cons.mpr ⟨hf, hs⟩

theorem deliverTo_marked (document : List Node) (n : Node) {frames : List Frame}
    (hf : ∀ f ∈ frames, M f.start) : (deliverTo document n frames).Marked M := by
  fun_induction deliverTo document n frames with
  | case1 n => exact hf
  | case2 n shape closer start forms frames =>
      rw [List.forall_mem_cons] at hf
      exact List.forall_mem_cons.mpr hf
  | case3 n shape part' part later start forms frames =>
      rw [List.forall_mem_cons] at hf
      exact List.forall_mem_cons.mpr hf
  | case4 n shape part start forms frames ih =>
      apply ih
      exact (List.forall_mem_cons.mp hf).2
  | case5 n part start forms frames => exact (List.forall_mem_cons.mp hf).2

theorem Marked.deliver {s : Stack} (hs : s.Marked M) (n : Node) : (s.deliver n).Marked M :=
  deliverTo_marked s.forms n hs

theorem Marked.close {s s' : Stack} (hs : s.Marked M) {c : CodePoint} {p : Position}
    (h : s.close c p = .ok s') : s'.Marked M := by
  unfold Stack.close at h
  split at h
  · rename_i shape closer start forms frames hframes
    split at h
    · cases h
      apply deliverTo_marked
      intro f hf
      apply hs
      rw [hframes]
      exact List.mem_cons_of_mem _ hf
    · cases h
  · cases h
  · cases h

/-- A delimiter that closes nothing is itself at fault. -/
theorem close_error {s : Stack} {c : CodePoint} {p : Position} {e : ReadError}
    (h : s.close c p = .error e) : e.position = p := by
  unfold Stack.close at h
  repeat' split at h
  all_goals cases h
  all_goals rfl

theorem Marked.document {s : Stack} (hs : s.Marked M) {stop : Position} {e : ReadError}
    (h : s.document stop = .error e) : M e.position := by
  unfold Stack.document at h
  split at h
  · rename_i shape closer start forms frames hframes
    cases h
    exact hs (.collection shape closer start forms) (by simp [hframes])
  · rename_i shape part later start forms frames hframes
    cases h
    exact hs (.pending shape part later start forms) (by simp [hframes])
  · cases h

end Stack

namespace Reader

theorem complete_yields {s : Stack} {m : Mode} (hs : s.Marked M) (hm : m.Marked M)
    (stop : Position) : Yields M (Stack.Marked M) (complete s stop m) := by
  cases m with
  | token start read =>
      simp only [complete]
      split
      · exact hs.deliver _
      · exact hm
      · exact hm
      · trivial
  | tag start read => exact hs.push hm
  | symbolic start read =>
      simp only [complete]
      split
      · exact hs.deliver _
      · exact hm
  | character start read =>
      simp only [complete]
      split
      · exact hs.deliver _
      · exact hm
  | _ => exact hs

theorem begin_yields {s : Stack} {p : Position} {c : CodePoint} (hs : s.Marked M)
    (hp : c.isBlank = false → M p) :
    Yields M (fun next => next.1.Marked M ∧ next.2.Marked M) (begin s p c) := by
  unfold begin
  split
  · exact ⟨trivial, hs⟩
  · rename_i hblank
    have hp : M p := hp (by simpa using hblank)
    split
    · exact ⟨trivial, hs⟩
    split
    · split
      · rename_i s' hclose
        exact ⟨trivial, hs.close hclose⟩
      · rename_i e hclose
        have hposition := Stack.close_error hclose
        change M e.position
        rwa [hposition]
    split
    · exact ⟨trivial, hs.push hp⟩
    repeat' split
    · exact ⟨hp, hs⟩
    · exact ⟨hp, hs⟩
    · exact ⟨hp, hs⟩
    · exact ⟨trivial, hs.push hp⟩
    · exact ⟨trivial, hs.push hp⟩
    · exact ⟨hp, hs⟩

theorem extend_yields {m longer : Mode} {s : Stack} {p : Position} {c : CodePoint}
    (hs : s.Marked M) (hm : m.Marked M) (hlonger : longer.Marked M)
    (hp : c.isBlank = false → M p) :
    Yields M (fun next => next.1.Marked M ∧ next.2.Marked M) (extend m longer s p c) := by
  have hcomplete := complete_yields hs hm p
  unfold extend
  split
  · split
    · rename_i s' hs'
      rw [hs'] at hcomplete
      exact begin_yields hcomplete hp
    · rename_i e he
      rw [he] at hcomplete
      exact hcomplete.of_error
  · exact ⟨hlonger, hs⟩

theorem dispatch_yields {start : Position} {s : Stack} (hs : s.Marked M) (hstart : M start)
    (c : CodePoint) :
    Yields M (fun next => next.1.Marked M ∧ next.2.Marked M) (dispatch start s c) := by
  unfold dispatch
  repeat' split
  · exact ⟨trivial, hs.push hstart⟩
  · exact ⟨hstart, hs⟩
  · exact ⟨trivial, hs.push hstart⟩
  · exact ⟨hstart, hs⟩
  · exact hstart
  · exact ⟨hstart, hs⟩

theorem unescape_yields {start place : Position} (hstart : M start) (hplace : M place)
    (pattern : Bool) (read : Text) (c : CodePoint) :
    Yields M (Mode.Marked M) (unescape pattern start read place c) := by
  unfold unescape
  repeat' split
  · exact hstart
  · exact hstart
  · exact ⟨hstart, hplace⟩
  · exact hplace

theorem addDigit_yields {start place : Position} (hstart : M start) (hplace : M place)
    (read digits : Text) (c : CodePoint) :
    Yields M (Mode.Marked M) (addDigit start read place digits c) := by
  simp only [addDigit]
  repeat' split
  · exact ⟨hstart, hplace⟩
  · exact hstart
  · exact hplace

/-- A step inside a lexeme leaves the stack as it is. -/
theorem yields_map_mode {x : Except ReadFailure Mode} {s : Stack} (hs : s.Marked M)
    (hx : Yields M (Mode.Marked M) x) :
    Yields M (fun next => next.1.Marked M ∧ next.2.Marked M) (x.map fun m => (m, s)) := by
  cases x with
  | ok m => exact ⟨hx, hs⟩
  | error e => exact hx.of_error

theorem advance_yields {s : Stack} {p : Position} {c : CodePoint} {m : Mode} (hs : s.Marked M)
    (hm : m.Marked M) (hp : c.isBlank = false → M p) :
    Yields M (fun next => next.1.Marked M ∧ next.2.Marked M) (advance s p c m) := by
  cases m with
  | blank => exact begin_yields hs hp
  | comment =>
      refine ⟨?_, hs⟩
      dsimp only
      split <;> trivial
  | token start read => exact extend_yields hs hm hm hp
  | dispatch start => exact dispatch_yields hs hm c
  | tag start read => exact extend_yields hs hm hm hp
  | symbolic start read => exact extend_yields hs hm hm hp
  | backslash start => exact ⟨hm, hs⟩
  | character start read => exact extend_yields hs hm hm hp
  | string pattern start read =>
      simp only [advance]
      split
      · exact ⟨trivial, hs.deliver _⟩
      split
      · rename_i hbackslash
        refine ⟨⟨hm, ?_⟩, hs⟩
        apply hp
        rw [hbackslash]
        rfl
      · exact ⟨hm, hs⟩
  | escape pattern start read place =>
      exact yields_map_mode hs (unescape_yields hm.1 hm.2 pattern read c)
  | digits start read place digits =>
      exact yields_map_mode hs (addDigit_yields hm.1 hm.2 read digits c)

/-- One code point marks at most its own position. -/
theorem step_yields {r : Reader} {c : CodePoint} (hr : r.Marked M)
    (hp : c.isBlank = false → M r.position) : Yields M (Reader.Marked M) (r.step c) := by
  have hadvance := advance_yields hr.stack hr.mode hp
  unfold step
  split
  · rename_i mode stack hnext
    rw [hnext] at hadvance
    exact ⟨hadvance.1, hadvance.2⟩
  · rename_i e he
    rw [he] at hadvance
    exact hadvance.of_error

/-- A text marks at most the positions of its code points that are no blanks. -/
theorem feed_yields {r : Reader} {t : Text} (hr : r.Marked M)
    (hM : ∀ u c v, t = u ++ c :: v → c.isBlank = false → M (r.position.after u)) :
    Yields M (Reader.Marked M) (r.feed t) := by
  induction t generalizing r with
  | nil => exact hr
  | cons c t ih =>
      have hstep := step_yields hr (hM [] c t rfl)
      simp only [feed]
      cases hnext : r.step c with
      | error e =>
          rw [hnext] at hstep
          exact hstep.of_error
      | ok next =>
          rw [hnext] at hstep
          have hposition : next.position = r.position.next c :=
            feed_position (t := [c]) (by simp [feed, hnext])
          apply ih hstep
          intro u d v ht
          rw [hposition]
          exact hM (c :: u) d v (by rw [ht]; rfl)

theorem finish_yields {r : Reader} (hr : r.Marked M) : Yields M (fun _ => True) r.finish := by
  have hcomplete := complete_yields hr.stack hr.mode r.position
  have hm := hr.mode
  unfold finish
  split
  · rename_i hmode
    rw [hmode] at hm
    exact hm
  · rename_i hmode
    rw [hmode] at hm
    exact hm
  · rename_i hmode
    rw [hmode] at hm
    exact hm
  · rename_i hmode
    rw [hmode] at hm
    exact hm.1
  · rename_i hmode
    rw [hmode] at hm
    exact hm.2
  · split
    · rename_i s hs
      rw [hs] at hcomplete
      split
      · trivial
      · rename_i e he
        exact hcomplete.document he
    · rename_i e he
      rw [he] at hcomplete
      exact hcomplete.of_error

end Reader

end

/-- An error is at a code point of the text that is no blank. -/
theorem exists_mark_of_parse_error {t : Text} {e : ReadError}
    (h : parse t = .error (.error e)) :
    ∃ u c v, t = u ++ c :: v ∧ c.isBlank = false ∧ e.position = Position.first.after u := by
  let M : Position → Prop := fun p =>
    ∃ u c v, t = u ++ c :: v ∧ c.isBlank = false ∧ p = Position.first.after u
  have hinitial : Reader.initial.Marked M := ⟨trivial, fun _ h => absurd h List.not_mem_nil⟩
  have hfeed : Yields M (Reader.Marked M) (Reader.initial.feed t) := by
    apply Reader.feed_yields hinitial
    intro u c v ht hc
    exact ⟨u, c, v, ht, hc, rfl⟩
  unfold parse at h
  split at h
  · rename_i r hr
    rw [hr] at hfeed
    have hfinish := Reader.finish_yields hfeed
    rw [h] at hfinish
    exact hfinish
  · rename_i e' he
    cases h
    rw [he] at hfeed
    exact hfeed

namespace Position

/-- The position is one of the text, with the line and the column of its offset. -/
def IsIn (t : Text) (p : Position) : Prop := p.offset ≤ t.length ∧ p = ofOffset t p.offset

theorem first_after_isIn (u v : Text) : (first.after u).IsIn (u ++ v) := by
  rw [first_after_append u v]
  exact ⟨by simp [ofOffset], rfl⟩

/-- A code point that is no blank does not end a line, so the grid has it at the line and
the column that a walk comes to. -/
theorem exists_charAt? (u v : Text) {c : CodePoint} (hc : c.isBlank = false) :
    ∃ line col, (first.after u).line = line + 1 ∧ (first.after u).col = col + 1 ∧
      Text.charAt? (Text.lines (u ++ c :: v)) line col = some c := by
  have hfeed : c ≠ '\n' := by
    rintro rfl
    cases hc
  have hreturn : c ≠ '\r' := by
    rintro rfl
    cases hc
  rw [first_after_append u (c :: v)]
  refine ⟨u.count (CodePoint.ofChar '\n'), (Text.lastLine u).length, ?_, ?_, ?_⟩
  · simp [ofOffset, Nat.add_comm]
  · simp [ofOffset, Nat.add_comm]
  · exact Text.charAt?_lines hfeed fun h => absurd h hreturn

end Position

theorem Grammar.Occurs.isIn {t : Text} {n : Node} (h : Occurs .first t n) :
    n.start.IsIn t ∧ n.stop.IsIn t := by
  rcases h with ⟨u, v, w, rfl, hn⟩
  have hstart : n.start = Position.first.after u := hn.start_eq rfl n (by simp)
  have hstop : n.stop = Position.first.after (u ++ v) := by
    rw [hn.stop_eq (.inl rfl) n (by simp), Position.after_append]
  rw [hstart, hstop]
  constructor
  · exact Position.first_after_isIn u (v ++ w)
  · rw [← List.append_assoc]
    exact Position.first_after_isIn (u ++ v) w

/-- Lines, columns and offsets agree wherever reading names a position. The places of
the document and of all nodes inside of it are positions of the text, and an error is
at a code point of the text that is no blank. -/
theorem parse_positions (t : Text) :
    (∀ tree n, parse t = .ok tree → n = tree ∨ n.Inside tree →
      n.start.IsIn t ∧ n.stop.IsIn t) ∧
    ∀ e, parse t = .error (.error e) →
      ∃ o c, t[o]? = some c ∧ c.isBlank = false ∧ e.position = .ofOffset t o := by
  constructor
  · intro tree n hp hn
    rcases hn with rfl | hn
    · rcases exists_derives_of_parse hp with ⟨forms, -, rfl⟩
      have hstart := Position.first_after_isIn [] t
      have hstop := Position.first_after_isIn t []
      rw [List.append_nil] at hstop
      exact ⟨hstart, hstop⟩
    · exact (occurs_of_parse hp hn).isIn
  · intro e he
    rcases exists_mark_of_parse_error he with ⟨u, c, v, rfl, hc, hposition⟩
    refine ⟨u.length, c, by simp, hc, ?_⟩
    rw [hposition]
    exact Position.first_after_append u (c :: v)

/-- A string over two lines, and behind the same string a bad escape on the third. -/
theorem parse_positions_escape :
    let two : Node := .mk (.scalar (.string "a\nb")) ⟨1, 2, 1⟩ ⟨2, 3, 6⟩ []
    let vector : Node := .mk .vector ⟨1, 1, 0⟩ ⟨2, 4, 7⟩ [two]
    let good : Text := "[\"a\nb\"]"
    let bad : Text := "[\"a\nb\"\n \"c\\q\"]"
    (parse good = .ok (.mk .document ⟨1, 1, 0⟩ ⟨2, 4, 7⟩ [vector]) ∧ two.stop.IsIn good) ∧
      parse bad = .error (.error ⟨.unsupportedEscape 'q', ⟨3, 4, 10⟩⟩) ∧
      ∃ o c, bad[o]? = some c ∧ c.isBlank = false ∧ (⟨3, 4, 10⟩ : Position) = .ofOffset bad o := by
  intro two vector good bad
  have hgood : parse good = .ok (.mk .document ⟨1, 1, 0⟩ ⟨2, 4, 7⟩ [vector]) := by decide +kernel
  have hbad : parse bad = .error (.error ⟨.unsupportedEscape 'q', ⟨3, 4, 10⟩⟩) := by
    decide +kernel
  have hinside : two.Inside (.mk .document ⟨1, 1, 0⟩ ⟨2, 4, 7⟩ [vector]) :=
    .deeper (.head _) (.form (.head _))
  exact ⟨⟨hgood, ((parse_positions good).1 _ _ hgood (.inr hinside)).2⟩, hbad,
    (parse_positions bad).2 _ hbad⟩

end EdnLint
