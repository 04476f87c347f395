import EdnLint.Linter
import EdnLint.Proofs.Document.Decidable
import EdnLint.Proofs.Store.Outcome

/-!
# Issues left behind

The issues of a store are shared by everything a linter does, so each operation
has to leave none behind. Linting a document clears them however it ends. Loading
directories clears them at its end only, and a file that stops it, or a directory
that cannot be listed, keeps it from getting there. What is on the list at that moment
stays, and goes into the findings of the next document that reads.

No other operation does this: along every run of operations on a fresh linter, the
issues are cleared after each of them unless a load is stopped with issues on the list.
-/

namespace EdnLint

namespace Lint

/-- A cycle leaves the state of the validator as it was or clears it. -/
theorem run_state {σ : Type} (v : Validator σ) (sink : Sink) (exclude : List Text)
    (text uri : Text) (s : σ) :
    (run v sink exclude text uri s).state = s ∨
      ∃ s', (run v sink exclude text uri s).state = v.clear s' := by
  have hconsult : ∀ d, ∃ s', (consult v uri d s).1 = v.clear s' := by
    intro d
    unfold consult
    split
    · exact ⟨_, rfl⟩
    split
    · exact ⟨_, rfl⟩
    · exact ⟨_, rfl⟩
  have hcycle : (cycle v text uri s).1 = s ∨ ∃ s', (cycle v text uri s).1 = v.clear s' := by
    unfold cycle
    dsimp only
    split
    · exact Or.inl rfl
    · exact Or.inl rfl
    · rename_i tree _
      obtain ⟨s', hs'⟩ := hconsult tree.toDatum
      refine Or.inr ⟨s', ?_⟩
      rw [← hs']
      split <;> simp_all
  unfold run
  split
  · exact Or.inl rfl
  · exact hcycle

end Lint

namespace Store

theorem addPath_issues (root : Path) (s : Store) : (s.addPath root).issues = s.issues := by
  unfold addPath
  split <;> rfl

variable [Pattern.Engine]

/-- Loading the directories `roots` is stopped at a file: what comes before it is
loaded, which leaves the store `s'`. -/
def IsStoppedAt (t : FileTree) (roots : List Path) (s : Store) (file : Path) (s' : Store) : Prop :=
  ∃ root s₁ files, Outcome.StopsAt (loadRoot t) roots s root s₁ ∧ t.ednBelow root = .ok files ∧
    Outcome.StopsAt (loadListed t) files (s₁.addPath root) file s'

/-- Loading the directories `roots` is stopped at one of them that cannot be listed. Those
before it are loaded, which leaves the store `s'`. -/
def IsStoppedListing (t : FileTree) (roots : List Path) (s s' : Store) : Prop :=
  ∃ root fault, Outcome.StopsAt (loadRoot t) roots s root s' ∧ t.ednBelow root = .error fault

theorem loadListed_store (t : FileTree) (path : Path) (s : Store) :
    (loadListed t path s).store = (loadFile t path s).store :=
  Outcome.andThen_store rfl _

section

variable {t : FileTree} {roots : List Path} {s s' : Store} {root file : Path}

/-- A load that is stopped leaves the store that the directory leaves which stops it. -/
theorem loadRoots_store_of_stopsAt (h : Outcome.StopsAt (loadRoot t) roots s root s') :
    (s.loadRoots t roots).store = (loadRoot t root s').store := by
  obtain ⟨hstore, hfault⟩ := h.each_eq
  have hstop : (Outcome.each (loadRoot t) roots s).fault ≠ none := by
    obtain ⟨-, -, -, -, -, hstop⟩ := h
    rw [hfault]
    exact hstop
  rw [loadRoots, Outcome.andThen_of_fault_ne_none hstop, hstore]

theorem IsStoppedAt.loadRoots_store (h : IsStoppedAt t roots s file s') :
    (s.loadRoots t roots).store = (loadFile t file s').store := by
  obtain ⟨root, s₁, files, hroot, hlisted, hfile⟩ := h
  calc (s.loadRoots t roots).store
      = (loadRoot t root s₁).store := loadRoots_store_of_stopsAt hroot
    _ = (Outcome.each (loadListed t) files (s₁.addPath root)).store := by rw [loadRoot, hlisted]
    _ = (loadListed t file s').store := hfile.each_eq.1
    _ = (loadFile t file s').store := loadListed_store t file s'

theorem IsStoppedListing.loadRoots_issues (h : IsStoppedListing t roots s s') :
    (s.loadRoots t roots).store.issues = s'.issues := by
  obtain ⟨root, fault, hroot, hlisted⟩ := h
  rw [loadRoots_store_of_stopsAt hroot, loadRoot, hlisted]
  exact addPath_issues root s'

/-- Loading directories leaves no issues exactly if there are none where it is stopped,
should it be. -/
theorem loadRoots_issues_eq_nil_iff :
    (s.loadRoots t roots).store.issues = [] ↔
      (∀ file s', IsStoppedAt t roots s file s' → (loadFile t file s').store.issues = []) ∧
        ∀ s', IsStoppedListing t roots s s' → s'.issues = [] := by
  constructor
  · intro h
    refine ⟨fun file s' hstop => ?_, fun s' hstop => ?_⟩
    · rw [← hstop.loadRoots_store]
      exact h
    · rw [← hstop.loadRoots_issues]
      exact h
  · rintro ⟨hfiles, hlistings⟩
    by_cases hfault : (Outcome.each (loadRoot t) roots s).fault = none
    · rw [loadRoots, Outcome.andThen_store hfault]
      rfl
    obtain ⟨root, s₁, hroot⟩ := Outcome.exists_stopsAt hfault
    cases hlisted : t.ednBelow root with
    | error fault =>
        have hstopped : IsStoppedListing t roots s s₁ := ⟨root, fault, hroot, hlisted⟩
        rw [hstopped.loadRoots_issues]
        exact hlistings s₁ hstopped
    | ok files =>
        have hstop : (loadRoot t root s₁).fault ≠ none := by
          obtain ⟨-, -, -, -, -, hstop⟩ := hroot
          exact hstop
        rw [loadRoot, hlisted] at hstop
        obtain ⟨file, s', hfile⟩ := Outcome.exists_stopsAt hstop
        have hstopped : IsStoppedAt t roots s file s' := ⟨root, s₁, files, hroot, hlisted, hfile⟩
        rw [hstopped.loadRoots_store]
        exact hfiles file s' hstopped

end

end Store

namespace Linter

/-- What can be asked of a linter. -/
inductive Operation where
  | lint (text uri : Text)
  | preload (roots : List Path)
  /-- Takes other patterns of documents to leave out. -/
  | exclude (patterns : List Text)
  deriving Repr

variable {t : FileTree} {sink : Sink}

section

variable [Pattern.Engine]

def step (t : FileTree) (sink : Sink) (l : Linter) : Operation → Linter
  | .lint text uri => (l.lint t sink text uri).1
  | .preload roots => (l.preload t roots).1
  | .exclude patterns => { l with exclude := patterns }

/-- The linter after operations that follow one another. -/
def run (t : FileTree) (sink : Sink) (l : Linter) (operations : List Operation) : Linter :=
  operations.foldl (step t sink) l

theorem run_concat (l : Linter) (operations : List Operation) (operation : Operation) :
    run t sink l (operations ++ [operation]) = step t sink (run t sink l operations) operation := by
  simp [run]

theorem lint_issues {l : Linter} (h : l.store.issues = []) (text uri : Text) :
    (l.lint t sink text uri).1.store.issues = [] := by
  rcases Lint.run_state (Store.validator t) sink l.exclude text uri l.store with hs | ⟨s', hs⟩
  · exact (congrArg Store.issues hs).trans h
  · exact congrArg Store.issues hs

/-- An operation leaves no issues behind, unless it is a load that is stopped. -/
theorem step_issues_eq_nil_iff {l : Linter} (h : l.store.issues = []) (operation : Operation) :
    (step t sink l operation).store.issues = [] ↔
      ∀ roots, operation = .preload roots →
        (∀ file s, l.store.IsStoppedAt t roots file s →
          (Store.loadFile t file s).store.issues = []) ∧
        ∀ s, l.store.IsStoppedListing t roots s → s.issues = [] := by
  cases operation with
  | lint text uri => simp [step, lint_issues h]
  | exclude patterns => simp [step, h]
  | preload roots =>
      refine Store.loadRoots_issues_eq_nil_iff.trans ⟨?_, fun hload => hload roots rfl⟩
      rintro hload _ ⟨rfl⟩
      exact hload

/-- When issues are left behind. Along a run of operations on a fresh linter the
issues are cleared after every operation exactly if no file that stops a load
leaves any, and there are none when a directory that cannot be listed stops one. -/
theorem run_issues_eq_nil_iff (t : FileTree) (sink : Sink) (paths : List Path)
    (exclude : List Text) (operations : List Operation) :
    (∀ before, before <+: operations →
      (run t sink (fresh paths exclude) before).store.issues = []) ↔
      ∀ before roots, before ++ [.preload roots] <+: operations →
        (∀ file s, (run t sink (fresh paths exclude) before).store.IsStoppedAt t roots file s →
          (Store.loadFile t file s).store.issues = []) ∧
        ∀ s, (run t sink (fresh paths exclude) before).store.IsStoppedListing t roots s →
          s.issues = [] := by
  constructor
  · intro h before roots hbefore
    have hstep := h _ hbefore
    rw [run_concat, step_issues_eq_nil_iff (h before ((List.prefix_append _ _).trans hbefore))]
      at hstep
    exact hstep roots rfl
  · intro h before
    induction before using List.reverseRecOn with
    | nil => exact fun _ => rfl
    | append_singleton before operation ih =>
        intro hbefore
        rw [run_concat, step_issues_eq_nil_iff (ih ((List.prefix_append _ _).trans hbefore))]
        rintro roots rfl
        exact h before roots hbefore

end

/-- A number where a namespace should be, and in the next directory a file that is
no text. The load is stopped at the second file, and the issue of the first becomes
a finding of a document that is in order. -/
theorem lint_findings_leftover :
    let t : FileTree := ⟨⟨.single, ["ws"]⟩,
      [(["ws", "a", "x.edn"], .file [0x35]), (["ws", "b", "y.edn"], .file [0xff])], []⟩
    let l := step t .absent (fresh [] []) (.preload [⟨.relative, ["a"]⟩, ⟨.relative, ["b"]⟩])
    l.store.issues.length = 1 ∧
      (l.lint t .absent "{ns app}" "file:///ws/app.edn").2.findings.map (·.message) =
        [("Expected namespace to be a map, got integer" : Text)] := by
  decide +kernel

end Linter

end EdnLint
