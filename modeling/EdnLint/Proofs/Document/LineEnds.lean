import EdnLint.Proofs.Document.Offsets
import EdnLint.Text.Lines

/-!
# Line ends

A line may end with a line feed or with a carriage return and a line feed. To the reader
the carriage return is a blank, which takes a column; but it is the last column of its
line, and the line feed that follows takes the reader to the start of the next line
either way. So where a line ends outside of strings and characters, the reader is the
same behind both ends, up to offsets. A token ends at the carriage return, where it would
have ended at the line feed.

The lines of the text, by which findings are cut, have no ends at all.
-/

namespace EdnLint

namespace Text

/-- The text with a carriage return in front of each line feed. -/
def withReturns : Text → Text
  | [] => []
  | c :: t => if c = '\n' then '\r' :: '\n' :: withReturns t else c :: withReturns t

/-- The lines as they stand in a text with carriage returns. -/
def addLineReturns : List Text → List Text
  | [] => []
  | [last] => [last]
  | line :: lines => (line ++ [CodePoint.ofChar '\r']) :: addLineReturns lines

theorem dropLineReturn_concat (line : Text) :
    dropLineReturn (line ++ [CodePoint.ofChar '\r']) = line := by
  induction line with
  | nil => rfl
  | cons c line ih =>
      cases line with
      | nil => simp [dropLineReturn]
      | cons d line => simpa [dropLineReturn] using ih

theorem dropLineReturns_addLineReturns (ls : List Text) :
    dropLineReturns (addLineReturns ls) = ls := by
  induction ls with
  | nil => rfl
  | cons line ls ih =>
      cases ls with
      | nil => rfl
      | cons next ls =>
          cases h : addLineReturns (next :: ls) with
          | nil => rw [h] at ih; cases ih
          | cons m ms =>
              rw [addLineReturns, h, dropLineReturns, dropLineReturn_concat, ← h, ih]
              · simp
              · simp

theorem splitOn_withReturns (t : Text) :
    splitOn '\n' (withReturns t) = addLineReturns (splitOn '\n' t) := by
  induction t with
  | nil => rfl
  | cons c t ih =>
      obtain ⟨piece, pieces, hsplit⟩ := List.exists_cons_of_ne_nil (splitOn_ne_nil '\n' t)
      rw [hsplit] at ih
      have hreturn : CodePoint.ofChar '\r' ≠ CodePoint.ofChar '\n' := by decide
      by_cases hc : c = '\n'
      · cases h : addLineReturns (piece :: pieces) with
        | nil => cases pieces <;> cases h
        | cons first rest => simp [withReturns, splitOn, hc, hsplit, ih, h, hreturn, addLineReturns]
      · cases pieces with
        | nil => simp [withReturns, splitOn, hc, hsplit, ih, addLineReturns]
        | cons next pieces => simp [withReturns, splitOn, hc, hsplit, ih, addLineReturns]

/-- The lines of a text with carriage returns are what lies between the line feeds. -/
theorem lines_withReturns (t : Text) : lines (withReturns t) = splitOn '\n' t := by
  rw [lines, splitOn_withReturns, dropLineReturns_addLineReturns]

theorem dropLineReturn_of_not_mem {line : Text} (h : CodePoint.ofChar '\r' ∉ line) :
    dropLineReturn line = line := by
  fun_induction dropLineReturn line with
  | _ => simp_all

theorem dropLineReturns_of_not_mem {ls : List Text}
    (h : ∀ line ∈ ls, CodePoint.ofChar '\r' ∉ line) : dropLineReturns ls = ls := by
  fun_induction dropLineReturns ls with
  | case3 line ls hne ih =>
      rw [dropLineReturn_of_not_mem (h line List.mem_cons_self),
        ih fun line hline => h line (List.mem_cons_of_mem _ hline)]
  | _ => rfl

theorem mem_of_mem_splitOn {separator c : CodePoint} {t piece : Text}
    (hpiece : piece ∈ splitOn separator t) (hc : c ∈ piece) : c ∈ t := by
  induction t generalizing piece with
  | nil => simp_all [splitOn]
  | cons d t ih =>
      obtain ⟨first, rest, hsplit⟩ := List.exists_cons_of_ne_nil (splitOn_ne_nil separator t)
      simp only [splitOn, hsplit] at hpiece ih
      split at hpiece
      · rcases List.mem_cons.mp hpiece with rfl | hpiece
        · cases hc
        · exact List.mem_cons_of_mem _ (ih hpiece hc)
      · rcases List.mem_cons.mp hpiece with rfl | hpiece
        · exact (List.mem_cons.mp hc).elim (· ▸ List.mem_cons_self)
            fun hc => List.mem_cons_of_mem _ (ih List.mem_cons_self hc)
        · exact List.mem_cons_of_mem _ (ih (List.mem_cons_of_mem _ hpiece) hc)

theorem lines_of_not_mem {t : Text} (h : CodePoint.ofChar '\r' ∉ t) :
    lines t = splitOn '\n' t :=
  dropLineReturns_of_not_mem fun _ hline hreturn => h (mem_of_mem_splitOn hline hreturn)

end Text

/-- In a string, a pattern or a character, where a line end is part of what is read. -/
def Mode.isLiteral : Mode → Bool
  | .string _ _ _ | .escape _ _ _ _ | .digits _ _ _ _ | .backslash _ => true
  | _ => false

namespace Reader

/-- No line feed of the text is read inside of a string, a pattern or a character. -/
def EndsLinesOutside (r : Reader) (t : Text) : Prop :=
  ∀ u v r', t = u ++ CodePoint.ofChar '\n' :: v → r.feed u = .ok r' → r'.mode.isLiteral = false

variable {r r' : Reader} {c : CodePoint} {t : Text}

theorem endsLinesOutside_nil (r : Reader) : r.EndsLinesOutside [] := by
  intro u v r' h
  cases u <;> cases h

theorem endsLinesOutside_cons_iff :
    r.EndsLinesOutside (c :: t) ↔
      (c = '\n' → r.mode.isLiteral = false) ∧ ∀ r', r.step c = .ok r' → r'.EndsLinesOutside t := by
  constructor
  · intro h
    refine ⟨fun hc => h [] t r (by rw [hc]; rfl) rfl, ?_⟩
    rintro r' hstep u v after rfl hfeed
    refine h (c :: u) v after rfl ?_
    rw [feed_cons, hstep]
    exact hfeed
  · rintro ⟨hhead, htail⟩ u v after ht hfeed
    cases u with
    | nil =>
        cases hfeed
        exact hhead (List.cons.inj ht).1
    | cons d u =>
        obtain ⟨rfl, rfl⟩ := List.cons.inj ht
        rw [feed_cons] at hfeed
        cases hstep : r.step c with
        | error e =>
            rw [hstep] at hfeed
            cases hfeed
        | ok r' =>
            rw [hstep] at hfeed
            exact htail r' hstep u v after rfl hfeed

instance decidableEndsLinesOutside : (r : Reader) → (t : Text) → Decidable (r.EndsLinesOutside t)
  | r, [] => .isTrue r.endsLinesOutside_nil
  | r, c :: t =>
      have : Decidable (∀ r', r.step c = .ok r' → r'.EndsLinesOutside t) :=
        match r.step c with
        | .error _ => .isTrue fun _ h => nomatch h
        | .ok r' =>
            match decidableEndsLinesOutside r' t with
            | .isTrue h => .isTrue fun _ heq => Except.ok.inj heq ▸ h
            | .isFalse h => .isFalse fun h' => h (h' r' rfl)
      decidable_of_iff _ endsLinesOutside_cons_iff.symm

theorem begin_of_isBlank (hc : c.isBlank = true) (s : Stack) (p : Position) :
    begin s p c = .ok (.blank, s) := by
  rw [begin, if_pos hc]

theorem extend_of_isBlank (hc : c.isBlank = true) (m longer : Mode) (s : Stack) (p : Position) :
    extend m longer s p c = (complete s p m).map fun s => (.blank, s) := by
  have hterminator : c.isTerminator = true := by simp [CodePoint.isTerminator, hc]
  rw [extend, if_pos hterminator]
  cases complete s p m with
  | error e => rfl
  | ok s => exact begin_of_isBlank hc s p

/-- A blank ends a lexeme that a terminator ends. -/
theorem advance_of_isBlank (hc : c.isBlank = true) {m : Mode} (hliteral : m.isLiteral = false)
    (hcomment : m ≠ .comment) (hdispatch : ∀ start, m ≠ .dispatch start) (s : Stack)
    (p : Position) : advance s p c m = (complete s p m).map fun s => (.blank, s) := by
  cases m with
  | blank => exact begin_of_isBlank hc s p
  | comment => exact absurd rfl hcomment
  | dispatch start => exact absurd rfl (hdispatch start)
  | token start read => exact extend_of_isBlank hc (.token start read) _ s p
  | tag start read => exact extend_of_isBlank hc (.tag start read) _ s p
  | symbolic start read => exact extend_of_isBlank hc (.symbolic start read) _ s p
  | character start read => exact extend_of_isBlank hc (.character start read) _ s p
  | _ => cases hliteral

/-- Outside of strings and characters a carriage return in front of a line feed makes no
difference but to offsets. -/
theorem feed_return (h : r.mode.isLiteral = false) :
    state? (r.feed ['\r', '\n']) = state? (r.step '\n') := by
  have hreturn : (CodePoint.ofChar '\r').isBlank = true := by decide
  have hfeed : (CodePoint.ofChar '\n').isBlank = true := by decide
  obtain ⟨p, m, s⟩ := r
  by_cases hcomment : m = .comment
  · subst hcomment
    rfl
  by_cases hdispatch : ∃ start, m = .dispatch start
  · obtain ⟨start, rfl⟩ := hdispatch
    rfl
  rw [not_exists] at hdispatch
  simp only [feed, step, advance_of_isBlank hreturn h hcomment hdispatch,
    advance_of_isBlank hfeed h hcomment hdispatch]
  cases complete s p m with
  | error e => rfl
  | ok s => rfl

/-- Carriage returns in front of line feeds make no difference to a text that ends its
lines outside of strings and characters. -/
theorem feed_withReturns (h : r.EndsLinesOutside t) (hr : r'.withoutOffsets = r.withoutOffsets) :
    state? (r'.feed (Text.withReturns t)) = state? (r.feed t) := by
  induction t generalizing r r' with
  | nil => exact congrArg some hr
  | cons c t ih =>
      rw [endsLinesOutside_cons_iff] at h
      rw [feed_cons]
      by_cases hc : c = '\n'
      · subst hc
        have hreturn : state? (r'.feed ['\r', '\n']) = state? (r.step '\n') :=
          (feed_congr hr _).trans (feed_return (h.1 rfl))
        have happend : Text.withReturns ('\n' :: t) = (['\r', '\n'] : Text) ++ Text.withReturns t :=
          rfl
        rw [happend, feed_append]
        exact state?_bind_congr hreturn fun _ _ hstep => ih (h.2 _ hstep)
      · rw [Text.withReturns, if_neg hc, feed_cons]
        exact state?_bind_congr (step_congr hr c) fun _ _ hstep => ih (h.2 _ hstep)

end Reader

/-- A text with carriage returns has the tree of the text without them, up to offsets, if
lines end outside of strings and characters. -/
theorem parse_withReturns {t : Text} (h : Reader.initial.EndsLinesOutside t) :
    (parse (Text.withReturns t)).toOption.map Node.withoutOffsets =
      (parse t).toOption.map Node.withoutOffsets := by
  have hfeed := Reader.feed_withReturns h rfl
  unfold parse
  cases hr : Reader.initial.feed t with
  | error e =>
      rw [hr] at hfeed
      cases hr' : Reader.initial.feed (Text.withReturns t) with
      | error e' => rfl
      | ok r' => rw [hr'] at hfeed; cases hfeed
  | ok r =>
      rw [hr] at hfeed
      cases hr' : Reader.initial.feed (Text.withReturns t) with
      | error e' => rw [hr'] at hfeed; cases hfeed
      | ok r' =>
          rw [hr'] at hfeed
          exact Reader.finish_congr (Option.some_inj.mp hfeed)

theorem exists_parse_withReturns {t : Text} {tree : Node} (hp : parse t = .ok tree)
    (h : Reader.initial.EndsLinesOutside t) :
    ∃ tree', parse (Text.withReturns t) = .ok tree' ∧
      tree'.withoutOffsets = tree.withoutOffsets := by
  have hparse := parse_withReturns h
  rw [hp] at hparse
  cases hp' : parse (Text.withReturns t) with
  | error e =>
      rw [hp'] at hparse
      cases hparse
  | ok tree' =>
      rw [hp'] at hparse
      exact ⟨tree', rfl, Option.some_inj.mp hparse⟩

end EdnLint
