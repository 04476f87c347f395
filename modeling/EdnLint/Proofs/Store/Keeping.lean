import EdnLint.Proofs.Store.Outcome
import EdnLint.Store.Loading

/-!
# What loading keeps

Nothing that is submitted or loaded makes a store forget a namespace or change
where it looks (`Store.Keeps`). Which imports are loaded, and from where, depends
on just these two: the names that are stored and the directories.
-/

namespace EdnLint

open Vocabulary

namespace Store

variable {t : FileTree} {load : Path → Store → Outcome} {ns name : Text} {s s' : Store}

@[simp] theorem namespace?_clear (s : Store) (name : Text) :
    s.clear.namespace? name = s.namespace? name := rfl

@[simp] theorem namespace?_record (s : Store) (r : Report) (name : Text) :
    (Outcome.record s r).store.namespace? name = s.namespace? name := rfl

theorem isSome_namespace?_put {entries : List (Key × Datum)} :
    ((s.put ns entries).namespace? name).isSome ↔ name = ns ∨ (s.namespace? name).isSome := by
  by_cases h : name = ns
  · subst h
    simp [namespace?, put]
  · simp [namespace?, put, Members.get?_put_of_ne h, h]

theorem namespace?_put_eq_none_iff {entries : List (Key × Datum)} :
    (s.put ns entries).namespace? name = none ↔ name ≠ ns ∧ s.namespace? name = none := by
  rw [← Option.not_isSome_iff_eq_none, isSome_namespace?_put, not_or,
    Option.not_isSome_iff_eq_none]

theorem findNamespace?_congr (h : s'.paths = s.paths) (name : Text) :
    s'.findNamespace? t name = s.findNamespace? t name := by
  simp only [findNamespace?, h]

theorem exists_map_of_declared {d : Datum} (h : declared? d = some ns) :
    ∃ entries, d = .map entries := by
  cases d with
  | map entries => exact ⟨entries, rfl⟩
  | _ => cases h

/-- What declares no namespace is not stored; the submission ends with a report. -/
theorem submitWith_of_not_declared [Pattern.Engine] {d : Datum} (h : declared? d = none) :
    ∃ r, submitWith t load d s = .record s r ∧ r.fault = none := by
  cases d with
  | map entries =>
      simp only [submitWith, h]
      exact ⟨_, rfl, rfl⟩
  | _ => exact ⟨_, rfl, rfl⟩

/-- The second store has the directories of the first and all its namespaces, which
may have been replaced. -/
structure Keeps (s s' : Store) : Prop where
  paths : s'.paths = s.paths
  stored : ∀ name, (s.namespace? name).isSome → (s'.namespace? name).isSome

theorem Keeps.refl (s : Store) : Keeps s s := ⟨rfl, fun _ h => h⟩

theorem Keeps.trans {s₁ s₂ s₃ : Store} (h : Keeps s₁ s₂) (h' : Keeps s₂ s₃) : Keeps s₁ s₃ :=
  ⟨h'.paths.trans h.paths, fun name hname => h'.stored name (h.stored name hname)⟩

theorem keeps_put (s : Store) (ns : Text) (entries : List (Key × Datum)) :
    Keeps s (s.put ns entries) :=
  ⟨rfl, fun _ h => isSome_namespace?_put.mpr (Or.inr h)⟩

theorem keeps_clear (s : Store) : Keeps s s.clear := ⟨rfl, fun _ h => h⟩

theorem keeps_record (s : Store) (r : Report) : Keeps s (Outcome.record s r).store :=
  ⟨rfl, fun _ h => h⟩

section

variable (hload : ∀ path s, (load path s).fault = none → Keeps s (load path s).store)

include hload

theorem loadImport_keeps (h : (loadImport t load ns name s).fault = none) :
    Keeps s (loadImport t load ns name s).store := by
  have hfetch (h : (fetchImport t load name s).fault = none) :
      Keeps s (fetchImport t load name s).store := by
    unfold fetchImport at h ⊢
    split at h
    · exact Keeps.refl s
    · exact Keeps.refl s
    · rw [Outcome.andThen_fault_eq_none_iff] at h
      rw [Outcome.andThen_store h.1]
      have hloaded := (keeps_clear s).trans (hload _ _ h.1)
      exact ⟨hloaded.paths, hloaded.stored⟩
  revert h
  unfold loadImport
  split
  · exact fun _ => Keeps.refl s
  · intro h
    rw [Outcome.andThen_fault_eq_none_iff] at h
    rw [Outcome.andThen_store h.1]
    refine (hfetch h.1).trans ?_
    unfold settleImport
    split
    · exact Keeps.refl _
    · exact keeps_record _ _

theorem each_loadImport_keeps {names : List Text}
    (h : (Outcome.each (loadImport t load ns) names s).fault = none) :
    Keeps s (Outcome.each (loadImport t load ns) names s).store :=
  Outcome.each_relates Keeps.refl (fun _ _ _ => Keeps.trans)
    (fun _ _ _ hname => loadImport_keeps hload hname) h

theorem loadImports_keeps {listed : Datum} (h : (loadImports t load ns listed s).fault = none) :
    Keeps s (loadImports t load ns listed s).store := by
  revert h
  unfold loadImports
  split
  · exact fun _ => Keeps.refl s
  split
  · exact fun _ => keeps_record s _
  · exact each_loadImport_keeps hload

theorem submitWith_keeps [Pattern.Engine] {d : Datum} (h : (submitWith t load d s).fault = none) :
    Keeps s (submitWith t load d s).store := by
  revert h
  unfold submitWith
  split
  · split
    · exact fun _ => keeps_record s _
    · intro h
      rw [Outcome.andThen_fault_eq_none_iff] at h
      rw [Outcome.andThen_store h.1]
      have hput := (keeps_put s _ _).trans (loadImports_keeps hload h.1)
      exact hput.trans (keeps_record _ _)
  · exact fun _ => keeps_record s _

end

/-- A load that is not stopped keeps what is stored. -/
theorem loadFileWithin_keeps [Pattern.Engine] (t : FileTree) (depth : Nat) :
    ∀ path s, (loadFileWithin t depth path s).fault = none →
      Keeps s (loadFileWithin t depth path s).store := by
  induction depth with
  | zero => exact fun path s h => absurd h (by simp [loadFileWithin, Outcome.stopped])
  | succ depth ih =>
      intro path s h
      unfold loadFileWithin at h ⊢
      dsimp only at h ⊢
      split at h
      · exact Keeps.refl s
      · exact Keeps.refl s
      · split at h
        · exact Keeps.refl s
        · exact Keeps.refl s
        · exact submitWith_keeps ih h

end Store

end EdnLint
