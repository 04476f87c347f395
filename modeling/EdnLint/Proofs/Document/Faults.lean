import EdnLint.Lint
import EdnLint.Proofs.Document.Decidable
import EdnLint.Proofs.Document.Numerals
import Mathlib.Data.List.DropRight

/-!
# Texts that stop the reader

Reading a text ends in a tree, in an error with a message and a place, or in a
fault, which has neither. A fault comes from a token that has the form of a number
and cannot be converted, and from nothing else, and the reader has to get to the
token first. So the reader that is stopped stands behind a token, and whatever
stands in front of the token has been read without a failure
(`Reader.exists_between_of_token`).
-/

namespace EdnLint

open Grammar

namespace Reader

variable {s s' : Stack} {p start stop : Position} {c : CodePoint} {m : Mode} {read : Text}
  {fault : Fault}

theorem complete_eq_fault (h : complete s stop m = .error (.fault fault)) :
    ∃ start read, m = .token start read ∧
      Scalar.ofToken read.reverse = .error (.fault fault) := by
  cases m with
  | token start read =>
      simp only [complete] at h
      split at h
      · cases h
      · cases h
      · cases h
      · rename_i htoken
        cases h
        exact ⟨start, read, rfl, htoken⟩
  | symbolic start read =>
      simp only [complete] at h
      split at h <;> cases h
  | character start read =>
      simp only [complete] at h
      split at h <;> cases h
  | _ => cases h

theorem begin_ne_fault : begin s p c ≠ .error (.fault fault) := by
  intro h
  unfold begin at h
  repeat' split at h
  all_goals cases h

theorem extend_eq_fault {longer : Mode} (h : extend m longer s p c = .error (.fault fault)) :
    c.isTerminator = true ∧ complete s p m = .error (.fault fault) := by
  unfold extend at h
  split at h
  · rename_i hc
    split at h
    · exact absurd h begin_ne_fault
    · rename_i hcomplete
      cases h
      exact ⟨hc, hcomplete⟩
  · cases h

/-- Only the end of a token is a fault. -/
theorem advance_eq_fault (h : advance s p c m = .error (.fault fault)) :
    c.isTerminator = true ∧ ∃ start read, m = .token start read ∧
      Scalar.ofToken read.reverse = .error (.fault fault) := by
  have hextend {longer : Mode} (h : extend m longer s p c = .error (.fault fault)) :
      c.isTerminator = true ∧ ∃ start read, m = .token start read ∧
        Scalar.ofToken read.reverse = .error (.fault fault) :=
    ⟨(extend_eq_fault h).1, complete_eq_fault (extend_eq_fault h).2⟩
  cases m with
  | blank => exact absurd h begin_ne_fault
  | comment => cases h
  | token start read => exact hextend h
  | dispatch start =>
      simp only [advance, dispatch] at h
      repeat' split at h
      all_goals cases h
  | tag start read => exact hextend h
  | symbolic start read => exact hextend h
  | backslash start => cases h
  | character start read => exact hextend h
  | string pattern start read =>
      simp only [advance] at h
      repeat' split at h
      all_goals cases h
  | escape pattern start read place =>
      simp only [advance, unescape] at h
      repeat' split at h
      all_goals cases h
  | digits start read place digits =>
      simp only [advance, addDigit] at h
      repeat' split at h
      all_goals cases h

theorem finish_eq_fault {r : Reader} (h : r.finish = .error (.fault fault)) :
    ∃ start read, r.mode = .token start read ∧
      Scalar.ofToken read.reverse = .error (.fault fault) := by
  unfold finish at h
  split at h
  any_goals cases h
  split at h
  · split at h <;> cases h
  · rename_i hcomplete
    cases h
    exact complete_eq_fault hcomplete

theorem begin_token (h : begin s p c = .ok (.token start read, s')) :
    s' = s ∧ read = [c] ∧ IsBare [c] := by
  have hopens : opening? c = none → c ≠ '(' ∧ c ≠ '[' ∧ c ≠ '{' := by
    unfold opening?
    grind
  unfold begin at h
  repeat' split at h
  all_goals cases h
  rename_i hblank hsemicolon hcloser _ hopening hstring hbackslash hhash hcaret hquote
  refine ⟨rfl, rfl, ?_, c, rfl, hbackslash, hhash, hcaret, hquote⟩
  have hopens := hopens hopening
  simp_all [IsToken, CodePoint.isTerminator]

theorem extend_token {longer : Mode} (h : extend m longer s p c = .ok (.token start read, s')) :
    longer = .token start read ∧ s' = s ∧ c.isTerminator = false := by
  unfold extend at h
  split at h
  · rename_i hc
    split at h
    · rcases begin_token h with ⟨-, -, hbare, -⟩
      have hc' := hbare c List.mem_cons_self
      rw [hc] at hc'
      cases hc'
    · cases h
  · rename_i hc
    cases h
    exact ⟨rfl, rfl, by simpa using hc⟩

/-- A token is begun between two lexemes and continued by what is no terminator. -/
theorem advance_token (h : advance s p c m = .ok (.token start read, s')) :
    (m = .blank ∧ read = [c] ∧ IsBare [c]) ∨
      ∃ before, m = .token start before ∧ read = c :: before ∧ c.isTerminator = false := by
  cases m with
  | blank =>
      rcases begin_token h with ⟨-, hread, hbare⟩
      exact Or.inl ⟨rfl, hread, hbare⟩
  | comment =>
      simp only [advance] at h
      split at h <;> cases h
  | token start' before =>
      rcases extend_token h with ⟨hlonger, -, hc⟩
      cases hlonger
      exact Or.inr ⟨before, rfl, rfl, hc⟩
  | dispatch start =>
      simp only [advance, dispatch] at h
      repeat' split at h
      all_goals cases h
  | tag start read =>
      simp only [advance] at h
      cases (extend_token h).1
  | symbolic start read =>
      simp only [advance] at h
      cases (extend_token h).1
  | backslash start => cases h
  | character start read =>
      simp only [advance] at h
      cases (extend_token h).1
  | string pattern start read =>
      simp only [advance] at h
      repeat' split at h
      all_goals cases h
  | escape pattern start read place =>
      simp only [advance, unescape] at h
      repeat' split at h
      all_goals cases h
  | digits start read place digits =>
      simp only [advance, addDigit] at h
      repeat' split at h
      all_goals cases h

theorem IsBare.concat {token : Text} (h : IsBare token) (hc : c.isTerminator = false) :
    IsBare (token ++ [c]) := by
  rcases h with ⟨htoken, d, hd, hfirst⟩
  constructor
  · intro e he
    rcases List.mem_append.mp he with he | he
    · exact htoken e he
    · rw [List.mem_singleton.mp he]
      exact hc
  · exact ⟨d, by simp_all [List.head?_append], hfirst⟩

theorem feed_concat {r₁ r₂ : Reader} {t : Text} (h : r₁.feed (t ++ [c]) = .ok r₂) :
    ∃ r, r₁.feed t = .ok r ∧ r.step c = .ok r₂ := by
  rw [feed_append] at h
  cases hr : r₁.feed t with
  | error e => simp [hr, Except.bind] at h
  | ok r =>
      refine ⟨r, rfl, ?_⟩
      simp only [hr, Except.bind, feed] at h
      split at h
      · rename_i r' hstep
        cases h
        exact hstep
      · cases h

/-- A reader that is inside a token was between two lexemes in front of it. -/
theorem exists_between_of_token {t : Text} {r : Reader} (h : initial.feed t = .ok r)
    (hmode : r.mode = .token start read) :
    ∃ u s, t = u ++ read.reverse ∧ initial.feed u = .ok (between (Position.first.after u) s) ∧
      IsBare read.reverse := by
  induction t using List.reverseRecOn generalizing r read with
  | nil =>
      cases h
      cases hmode
  | append_singleton t c ih =>
      rcases feed_concat h with ⟨r', hr', hstep⟩
      unfold step at hstep
      split at hstep
      · rename_i mode stack hadvance
        cases hstep
        obtain rfl : mode = .token start read := hmode
        rcases advance_token hadvance with ⟨hblank, rfl, hbare⟩ | ⟨before, hbefore, rfl, hc⟩
        · refine ⟨t, r'.stack, rfl, ?_, hbare⟩
          have hposition : r'.position = Position.first.after t := feed_position hr'
          rw [hr', between, ← hblank, ← hposition]
        · rcases ih hr' hbefore with ⟨u, s, rfl, hu, hbare⟩
          refine ⟨u, s, ?_, hu, ?_⟩
          · rw [List.reverse_cons, List.append_assoc]
          · rw [List.reverse_cons]
            exact IsBare.concat hbare hc
      · cases hstep

/-- A text whose reading fails is read up to the code point that it fails at. -/
theorem exists_step_of_feed_error {r : Reader} {t : Text} {e : ReadFailure}
    (h : r.feed t = .error e) :
    ∃ u c v r', t = u ++ c :: v ∧ r.feed u = .ok r' ∧ r'.step c = .error e := by
  induction t generalizing r with
  | nil => cases h
  | cons c t ih =>
      simp only [feed] at h
      cases hstep : r.step c with
      | error e' =>
          rw [hstep] at h
          cases h
          exact ⟨[], c, t, r, rfl, rfl, hstep⟩
      | ok r₁ =>
          rw [hstep] at h
          rcases ih h with ⟨u, d, v, r', rfl, hu, hd⟩
          exact ⟨c :: u, d, v, r', rfl, by simp [feed, hstep, hu], hd⟩

theorem read_append (r : Reader) (u v : Text) :
    r.read (u ++ v) = (r.feed u).bind fun r => r.read v := by
  unfold Reader.read
  rw [feed_append]
  cases r.feed u <;> rfl

end Reader

open Reader

/-- The reader gets through the text and stands between two lexemes behind it. -/
def IsReadable (u : Text) : Prop :=
  ∃ s, Reader.initial.feed u = .ok (between (Position.first.after u) s)

/-- A reader that is stopped has just come to the end of a token. -/
theorem exists_token_of_parse_fault {t : Text} {fault : Fault}
    (h : parse t = .error (.fault fault)) :
    ∃ u rest r start read, t = u ++ rest ∧ EndsToken rest ∧ Reader.initial.feed u = .ok r ∧
      r.mode = .token start read ∧ Scalar.ofToken read.reverse = .error (.fault fault) := by
  unfold parse at h
  cases hfeed : Reader.initial.feed t with
  | ok r =>
      rw [hfeed] at h
      rcases finish_eq_fault h with ⟨start, read, hmode, htoken⟩
      exact ⟨t, [], r, start, read, by simp, by simp [EndsToken], hfeed, hmode, htoken⟩
  | error e =>
      rw [hfeed] at h
      cases h
      rcases exists_step_of_feed_error hfeed with ⟨u, c, v, r, rfl, hu, hstep⟩
      unfold step at hstep
      split at hstep
      · cases hstep
      · rename_i hadvance
        cases hstep
        rcases advance_eq_fault hadvance with ⟨hc, start, read, hmode, htoken⟩
        exact ⟨u, c :: v, r, start, read, rfl, by simpa [EndsToken] using hc, hu, hmode, htoken⟩

/-- Why reading is stopped without an error to show. It comes to a token that has the
form of a number and is too large to be converted. -/
theorem parse_eq_fault_iff (t : Text) (fault : Fault) :
    parse t = .error (.fault fault) ↔
      ∃ u token rest, t = u ++ (token ++ rest) ∧ IsReadable u ∧ IsBare token ∧ EndsToken rest ∧
        Scalar.Exceeds token fault := by
  constructor
  · intro h
    rcases exists_token_of_parse_fault h with
      ⟨u, rest, r, start, read, rfl, hrest, hr, hmode, htoken⟩
    rcases exists_between_of_token hr hmode with ⟨u, s, rfl, hu, hbare⟩
    rw [Scalar.ofToken_eq_fault_iff] at htoken
    exact ⟨u, read.reverse, rest, by simp, ⟨s, hu⟩, hbare, hrest, htoken⟩
  · rintro ⟨u, token, rest, rfl, ⟨s, hu⟩, hbare, hrest, hexceeds⟩
    have htoken := (Scalar.ofToken_eq_fault_iff token fault).mpr hexceeds
    rw [parse_eq_read]
    change Reader.initial.read (u ++ (token ++ rest)) = _
    rw [Reader.read_append, hu]
    change (between (Position.first.after u) s).read (token ++ rest) = _
    rw [read_bare hbare hrest, complete, List.reverse_reverse, htoken]
    rfl

/-- A decimal with an exponent of twenty digits. No finding tells that the document
does not read: the empty list is handed to the sink. -/
theorem parse_fault_unreported :
    let text : Text := "{ns app x 1e99999999999999999999M}"
    let v : Validator Unit := ⟨fun _ _ _ => ((), [], none), fun _ => ((), .ok []), id⟩
    parse text = .error (.fault .decimalRange) ∧
      (Lint.run v .working [] text "file:///ws/app.edn" ()).published = [[]] := by
  intro text v
  constructor <;> decide +kernel

end EdnLint
