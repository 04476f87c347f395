import EdnLint.Session

/-!
# What a closed document leaves behind

The last publication for a document is what its editor shows. Closing a document is
to take it back, and does so by publishing nothing found, but not for a document
that is left out of linting. Such a document has nothing to take back as long as it
has always been left out. The patterns change with the configuration, however, and
findings published before a change stay when the document is closed after it.

There is no other way: what is shown behind a close is found by a lint of the
document before a change of the configuration that leaves it out.
-/

namespace EdnLint

namespace Event

/-- The document an event brings, and its text. -/
def document? : Event → Option (Text × Text)
  | .opened uri text => some (uri, text)
  | .changed uri texts => texts.getLast?.map fun text => (uri, text)
  | _ => none

/-- The events that configure a session. -/
def isConfiguration : Event → Bool
  | .started _ _ | .configured _ => true
  | _ => false

end Event

namespace Session

variable {t : FileTree}

/-- The last publication for a document. -/
def shown (uri : Text) (reactions : List Reaction) : Option (List Finding) :=
  ((reactions.flatMap (·.published)).reverse.find? fun p => p.1 = uri).map (·.2)

theorem shown_append (uri : Text) (first second : List Reaction) :
    shown uri (first ++ second) = (shown uri second).or (shown uri first) := by
  simp [shown, List.reverse_append, List.find?_append, Option.map_or]

theorem shown_cons (uri : Text) (r : Reaction) (reactions : List Reaction) :
    shown uri (r :: reactions) = (shown uri reactions).or (shown uri [r]) :=
  shown_append uri [r] reactions

theorem shown_of_published_nil {r : Reaction} (h : r.published = []) (uri : Text) :
    shown uri [r] = none := by
  simp [shown, h]

theorem shown_of_published_singleton {r : Reaction} {uri : Text} {found : List Finding}
    (h : r.published = [(uri, found)]) (uri' : Text) :
    shown uri' [r] = if uri = uri' then some found else none := by
  by_cases huri : uri = uri' <;> simp [shown, h, huri]

theorem shown_close (s : Session) (uri uri' : Text) :
    shown uri [s.close uri'] =
      if uri' = uri ∧ Lint.isExcluded s.linter.exclude uri = false then some [] else none := by
  by_cases hexcluded : Lint.isExcluded s.linter.exclude uri' = true
  · rw [shown_of_published_nil (by simp [close, hexcluded]), if_neg]
    rintro ⟨rfl, hincluded⟩
    rw [hexcluded] at hincluded
    cases hincluded
  · have hpublished : (s.close uri').published = [(uri', [])] := by simp [close, hexcluded]
    rw [shown_of_published_singleton hpublished]
    by_cases huri : uri' = uri
    · subst huri
      simp [hexcluded]
    · simp [huri]

theorem configure_published (s : Session) (settings : Json) :
    (s.configure settings).published = [] := by
  unfold configure
  repeat' split
  all_goals rfl

section

variable [Pattern.Engine]

/-- The session behind events that follow one another. -/
def after (t : FileTree) (s : Session) (events : List Event) : Session :=
  events.foldl (fun s e => (s.step t e).session) s

theorem after_cons (s : Session) (e : Event) (events : List Event) :
    s.after t (e :: events) = (s.step t e).session.after t events := rfl

theorem after_append (s : Session) (first second : List Event) :
    s.after t (first ++ second) = (s.after t first).after t second :=
  List.foldl_append

theorem run_append (s : Session) (first second : List Event) :
    s.run t (first ++ second) = s.run t first ++ (s.after t first).run t second := by
  induction first generalizing s with
  | nil => rfl
  | cons e first ih => simp [ih, after]

/-- The event brings the text of a document that is not left out, and `found` is
found in it. -/
structure Lints (t : FileTree) (s : Session) (e : Event) (uri : Text) (found : List Finding) :
    Prop where
  document : ∃ text, e.document? = some (uri, text) ∧
    (s.linter.lint t .working text uri).2.findings = found
  running : s.running = true
  included : Lint.isExcluded s.linter.exclude uri = false

theorem Lints.isConfiguration {s : Session} {e : Event} {uri : Text} {found : List Finding}
    (h : s.Lints t e uri found) : e.isConfiguration = false := by
  obtain ⟨⟨text, hd, -⟩, -, -⟩ := h
  cases e with
  | started => cases hd
  | configured => cases hd
  | _ => rfl

theorem lint_published (s : Session) (uri text : Text) :
    (s.lint t uri text).published =
      if s.running = true ∧ Lint.isExcluded s.linter.exclude uri = false then
        [(uri, (s.linter.lint t .working text uri).2.findings)]
      else [] := by
  by_cases hrunning : s.running = true
  · by_cases hexcluded : Lint.isExcluded s.linter.exclude uri = true
    · simp [lint, hrunning, Linter.lint, Lint.run, hexcluded]
    · simp [lint, hrunning, Linter.lint, Lint.run, hexcluded]
  · simp [lint, hrunning]

theorem lint_exclude (s : Session) (uri text : Text) :
    (s.lint t uri text).session.linter.exclude = s.linter.exclude := by
  unfold lint
  split <;> rfl

theorem shown_lint (s : Session) (uri uri' text : Text) (found : List Finding) :
    shown uri [s.lint t uri' text] = some found ↔
      uri' = uri ∧ (s.linter.lint t .working text uri).2.findings = found ∧ s.running = true ∧
        Lint.isExcluded s.linter.exclude uri = false := by
  have hpublished := lint_published (t := t) s uri' text
  split at hpublished
  · rename_i h
    rw [shown_of_published_singleton hpublished]
    by_cases huri : uri' = uri
    · subst huri
      simp [h]
    · simp [huri]
  · rename_i h
    rw [shown_of_published_nil hpublished]
    constructor
    · intro hnone
      cases hnone
    · rintro ⟨rfl, -, hlinted⟩
      exact absurd hlinted h

theorem start_published (s : Session) (root : Option Text) (options : Json) :
    (s.start t root options).published = [] := by
  unfold start
  repeat' split
  all_goals rfl

theorem step_of_document? {e : Event} {uri text : Text} (h : e.document? = some (uri, text))
    (s : Session) : s.step t e = s.lint t uri text := by
  cases e with
  | opened =>
      cases h
      rfl
  | changed uri' texts =>
      obtain ⟨last, hlast, heq⟩ := Option.map_eq_some_iff.mp h
      cases heq
      simp [step, hlast]
  | _ => cases h

theorem step_published_eq_nil {e : Event} (h : e.document? = none)
    (hclosed : ∀ uri, e ≠ .closed uri) (s : Session) : (s.step t e).published = [] := by
  cases e with
  | started root options => exact start_published s root options
  | changed uri texts =>
      have hlast : texts.getLast? = none := by simpa [Event.document?] using h
      simp [step, hlast]
  | configured settings => exact configure_published s settings
  | opened => cases h
  | closed uri => exact absurd rfl (hclosed uri)
  | _ => rfl

/-- What an event publishes for a document: what a lint found in it, or that nothing
was found, when it is closed. -/
theorem shown_step (s : Session) (e : Event) (uri : Text) (found : List Finding) :
    shown uri [s.step t e] = some found ↔
      s.Lints t e uri found ∨
        e = .closed uri ∧ Lint.isExcluded s.linter.exclude uri = false ∧ found = [] := by
  cases hd : e.document? with
  | some document =>
      obtain ⟨uri', text⟩ := document
      have hclosed : e ≠ .closed uri := by
        rintro rfl
        cases hd
      rw [step_of_document? hd, shown_lint]
      constructor
      · rintro ⟨rfl, hfound, hrunning, hincluded⟩
        exact Or.inl ⟨⟨text, hd, hfound⟩, hrunning, hincluded⟩
      · rintro (⟨⟨text', hd', hfound⟩, hrunning, hincluded⟩ | ⟨hclose, -⟩)
        · rw [hd] at hd'
          cases hd'
          exact ⟨rfl, hfound, hrunning, hincluded⟩
        · exact absurd hclose hclosed
  | none =>
      have hlints : ¬ s.Lints t e uri found := by
        rintro ⟨⟨text, hd', -⟩, -, -⟩
        rw [hd] at hd'
        cases hd'
      by_cases hclosed : ∃ uri', e = .closed uri'
      · obtain ⟨uri', rfl⟩ := hclosed
        rw [step, shown_close]
        constructor
        · intro h
          split at h
          · rename_i hclose
            obtain ⟨rfl, hincluded⟩ := hclose
            cases h
            exact Or.inr ⟨rfl, hincluded, rfl⟩
          · cases h
        · rintro (h | ⟨hclose, hincluded, rfl⟩)
          · exact absurd h hlints
          · cases hclose
            rw [if_pos ⟨rfl, hincluded⟩]
      · have hnil : (s.step t e).published = [] :=
          step_published_eq_nil hd (fun uri' h => hclosed ⟨uri', h⟩) s
        rw [shown_of_published_nil hnil]
        constructor
        · intro h
          cases h
        · rintro (h | ⟨hclose, -⟩)
          · exact absurd h hlints
          · exact absurd ⟨uri, hclose⟩ hclosed

/-- Only a configuration changes which documents are left out. -/
theorem step_exclude {s : Session} {e : Event} (he : e.isConfiguration = false) :
    (s.step t e).session.linter.exclude = s.linter.exclude := by
  cases e with
  | started => cases he
  | configured => cases he
  | opened uri text => exact lint_exclude s uri text
  | changed uri texts =>
      rw [step]
      split
      · exact lint_exclude s uri _
      · rfl
  | _ => rfl

theorem after_exclude {s : Session} {events : List Event}
    (h : ∀ e ∈ events, e.isConfiguration = false) :
    (s.after t events).linter.exclude = s.linter.exclude := by
  induction events generalizing s with
  | nil => rfl
  | cons e events ih =>
      rw [List.forall_mem_cons] at h
      exact (ih h.2).trans (step_exclude h.1)

/-- What is shown was published by an event, and nothing has been published since. -/
theorem shown_run (s : Session) (events : List Event) (uri : Text) (found : List Finding) :
    shown uri (s.run t events) = some found ↔
      ∃ before e later, events = before ++ e :: later ∧
        shown uri [(s.after t before).step t e] = some found ∧
        shown uri (((s.after t before).step t e).session.run t later) = none := by
  constructor
  · intro h
    induction events generalizing s with
    | nil => cases h
    | cons e events ih =>
        rw [run_cons, shown_cons] at h
        cases hlater : shown uri ((s.step t e).session.run t events) with
        | none =>
            rw [hlater, Option.none_or] at h
            exact ⟨[], e, events, rfl, h, hlater⟩
        | some last =>
            rw [hlater, Option.some_or] at h
            obtain ⟨before, e', later, rfl, he', hnone⟩ := ih _ (hlater.trans h)
            exact ⟨e :: before, e', later, rfl, he', hnone⟩
  · rintro ⟨before, e, later, rfl, he, hnone⟩
    rw [run_append, run_cons, shown_append, shown_cons, hnone, Option.none_or, he, Option.some_or]

theorem shown_run_closed (s : Session) (events : List Event) (uri : Text) :
    shown uri (s.run t (events ++ [.closed uri])) =
      if Lint.isExcluded (s.after t events).linter.exclude uri = true then
        shown uri (s.run t events)
      else some [] := by
  rw [run_append, shown_append, run_cons, run_nil, step, shown_close]
  split <;> simp_all

/-- A document that was linted and is left out later has been left out by a
configuration. -/
theorem Lints.exists_isConfiguration {s : Session} {e : Event} {uri : Text} {found : List Finding}
    (h : s.Lints t e uri found) {later : List Event}
    (hexcluded : Lint.isExcluded (s.after t (e :: later)).linter.exclude uri = true) :
    ∃ c ∈ later, c.isConfiguration = true := by
  -- the patterns would be those that the document was linted with
  refine Classical.byContradiction fun hchange => ?_
  have hlater : ∀ c ∈ later, c.isConfiguration = false := by simpa using hchange
  have hincluded := h.included
  rw [after_cons, after_exclude hlater, step_exclude h.isConfiguration, hincluded] at hexcluded
  cases hexcluded

/-- When findings are shown behind a close. Something was found in the document while
it was not left out, nothing has been published for it since, and a change of the
configuration has it left out by the time it is closed. -/
theorem shown_closed_iff (t : FileTree) (s : Session) (events : List Event) (uri : Text) :
    (∃ found, shown uri (s.run t (events ++ [.closed uri])) = some found ∧ found ≠ []) ↔
      ∃ before e later found, events = before ++ e :: later ∧ found ≠ [] ∧
        (s.after t before).Lints t e uri found ∧
        shown uri (((s.after t before).step t e).session.run t later) = none ∧
        Lint.isExcluded (s.after t events).linter.exclude uri = true ∧
        ∃ c ∈ later, c.isConfiguration = true := by
  rw [shown_run_closed]
  constructor
  · rintro ⟨found, hshown, hfound⟩
    by_cases hexcluded : Lint.isExcluded (s.after t events).linter.exclude uri = true
    · rw [if_pos hexcluded, shown_run] at hshown
      obtain ⟨before, e, later, rfl, hpublished, hnone⟩ := hshown
      have hlints : (s.after t before).Lints t e uri found := by
        rcases (shown_step _ e uri found).mp hpublished with hlints | ⟨-, -, hnil⟩
        · exact hlints
        · exact absurd hnil hfound
      refine ⟨before, e, later, found, rfl, hfound, hlints, hnone, hexcluded, ?_⟩
      rw [after_append] at hexcluded
      exact hlints.exists_isConfiguration hexcluded
    · rw [if_neg hexcluded] at hshown
      cases hshown
      exact absurd rfl hfound
  · rintro ⟨before, e, later, found, rfl, hfound, hlints, hnone, hexcluded, -⟩
    refine ⟨found, ?_, hfound⟩
    rw [if_pos hexcluded, shown_run]
    exact ⟨before, e, later, rfl, (shown_step _ e uri found).mpr (Or.inl hlints), hnone⟩

end

/-- A document is opened, left out by new settings, and closed. What was found in it
stays. -/
theorem shown_closed_excluded :
    let uri : Text := "file:///ws/a.edn"
    let settings : Json := .object [("zen", .object [("exclude", .array [.string "*/a.edn"])])]
    let t : FileTree := ⟨⟨.single, ["ws"]⟩, [], []⟩
    let events : List Event := [.opened uri "\x7bns a", .configured settings, .closed uri]
    (shown uri ((fresh true).run t events)).map (·.map (·.message)) =
      some [("Found an opening delimiter with no matching \x7d" : Text)] := by
  decide +kernel

end Session

end EdnLint
