import EdnLint.Store.Basic

/-!
# Operations in a row

An operation on each of several items goes on until one of them is stopped. So a
row of operations that is stopped has one item that stops it, with the items
before it dealt with (`Outcome.StopsAt`), and it ends in the store that this item
leaves.
-/

namespace EdnLint

namespace Outcome

theorem andThen_fault_eq_none_iff {o : Outcome} {next : Store → Outcome} :
    (o.andThen next).fault = none ↔ o.fault = none ∧ (next o.store).fault = none := by
  unfold andThen
  split <;> simp_all

theorem andThen_store {o : Outcome} (h : o.fault = none) (next : Store → Outcome) :
    (o.andThen next).store = (next o.store).store := by
  simp [andThen, h]

theorem andThen_fault {o : Outcome} (h : o.fault = none) (next : Store → Outcome) :
    (o.andThen next).fault = (next o.store).fault := by
  simp [andThen, h]

theorem andThen_of_fault_ne_none {o : Outcome} (h : o.fault ≠ none) (next : Store → Outcome) :
    o.andThen next = o := by
  obtain ⟨fault, hfault⟩ := Option.ne_none_iff_exists'.mp h
  simp [andThen, hfault]

theorem andThen_congr {o : Outcome} {next next' : Store → Outcome}
    (h : o.fault = none → next o.store = next' o.store) : o.andThen next = o.andThen next' := by
  unfold andThen
  split
  · rfl
  · rename_i hfault
    rw [h hfault]

section

variable {α : Type} {f : α → Store → Outcome}

theorem each_concat {as : List α} {s : Store} (h : (each f as s).fault = none) (a : α) :
    (each f (as ++ [a]) s).store = (f a (each f as s).store).store ∧
      (each f (as ++ [a]) s).fault = (f a (each f as s).store).fault := by
  induction as generalizing s with
  | nil =>
      simp only [List.nil_append, each_cons, each_nil]
      by_cases ha : (f a s).fault = none
      · rw [andThen_store ha, andThen_fault ha]
        exact ⟨rfl, ha.symm⟩
      · rw [andThen_of_fault_ne_none ha]
        exact ⟨rfl, rfl⟩
  | cons b as ih =>
      rw [each_cons, andThen_fault_eq_none_iff] at h
      rw [List.cons_append, each_cons, each_cons, andThen_store h.1, andThen_store h.1,
        andThen_fault h.1]
      exact ih h.2

/-- What each item does to the store, unless it is stopped, the items do together. -/
theorem each_relates {R : Store → Store → Prop} (hrefl : ∀ s, R s s)
    (htrans : ∀ s₁ s₂ s₃, R s₁ s₂ → R s₂ s₃ → R s₁ s₃) {as : List α}
    (hf : ∀ a ∈ as, ∀ s, (f a s).fault = none → R s (f a s).store) {s : Store}
    (h : (each f as s).fault = none) : R s (each f as s).store := by
  induction as generalizing s with
  | nil => exact hrefl s
  | cons a as ih =>
      rw [List.forall_mem_cons] at hf
      rw [each_cons, andThen_fault_eq_none_iff] at h
      rw [each_cons, andThen_store h.1]
      exact htrans _ _ _ (hf.1 s h.1) (ih hf.2 h.2)

/-- Of the items `as`, those before `a` are dealt with, which leaves the store `s'`,
and `a` is stopped. -/
def StopsAt (f : α → Store → Outcome) (as : List α) (s : Store) (a : α) (s' : Store) : Prop :=
  ∃ before after, as = before ++ a :: after ∧ (each f before s).fault = none ∧
    (each f before s).store = s' ∧ (f a s').fault ≠ none

theorem stopsAt_cons_iff {a : α} {as : List α} {s : Store} {b : α} {s' : Store} :
    StopsAt f (a :: as) s b s' ↔
      (b = a ∧ s' = s ∧ (f a s).fault ≠ none) ∨
        ((f a s).fault = none ∧ StopsAt f as (f a s).store b s') := by
  constructor
  · rintro ⟨before, after, has, hfault, hstore, hstop⟩
    cases before with
    | nil =>
        obtain ⟨rfl, -⟩ := List.cons_eq_cons.mp has
        obtain rfl : s = s' := hstore
        exact Or.inl ⟨rfl, rfl, hstop⟩
    | cons c before =>
        obtain ⟨rfl, hrest⟩ := List.cons_eq_cons.mp has
        rw [each_cons, andThen_fault_eq_none_iff] at hfault
        rw [each_cons, andThen_store hfault.1] at hstore
        exact Or.inr ⟨hfault.1, before, after, hrest, hfault.2, hstore, hstop⟩
  · rintro (⟨rfl, rfl, hstop⟩ | ⟨hfault, before, after, rfl, hbefore, hstore, hstop⟩)
    · exact ⟨[], as, rfl, rfl, rfl, hstop⟩
    · refine ⟨a :: before, after, rfl, ?_, ?_, hstop⟩
      · exact each_cons f a before s ▸ andThen_fault_eq_none_iff.mpr ⟨hfault, hbefore⟩
      · rw [each_cons, andThen_store hfault, hstore]

/-- A row that is stopped has an item that stops it. -/
theorem exists_stopsAt {as : List α} {s : Store} (h : (each f as s).fault ≠ none) :
    ∃ a s', StopsAt f as s a s' := by
  induction as generalizing s with
  | nil => exact absurd rfl h
  | cons a as ih =>
      by_cases ha : (f a s).fault = none
      · rw [each_cons, andThen_fault ha] at h
        obtain ⟨b, s', hb⟩ := ih h
        exact ⟨b, s', stopsAt_cons_iff.mpr (Or.inr ⟨ha, hb⟩)⟩
      · exact ⟨a, s, stopsAt_cons_iff.mpr (Or.inl ⟨rfl, rfl, ha⟩)⟩

/-- The item that stops a row says how the row ends. -/
theorem StopsAt.each_eq {as : List α} {s : Store} {a : α} {s' : Store}
    (h : StopsAt f as s a s') :
    (each f as s).store = (f a s').store ∧ (each f as s).fault = (f a s').fault := by
  induction as generalizing s with
  | nil =>
      obtain ⟨before, after, has, -⟩ := h
      simp at has
  | cons b as ih =>
      rw [each_cons]
      rcases stopsAt_cons_iff.mp h with ⟨rfl, rfl, hstop⟩ | ⟨hfault, h⟩
      · rw [andThen_of_fault_ne_none hstop]
        exact ⟨rfl, rfl⟩
      · rw [andThen_store hfault, andThen_fault hfault]
        exact ih h

end

end Outcome

end EdnLint
