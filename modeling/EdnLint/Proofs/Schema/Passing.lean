import EdnLint.Proofs.Datum.Same
import EdnLint.Schema.Basic
import EdnLint.Schema.Shape

/-!
# What passes the check of schemas

A datum passes if nothing is reported on it. Then it is a map with a known type, and
all that validation will look up in it is in order: the keys are known to the type,
the required ones are keywords, the pattern can be read, and the schemas inside it
pass as well. `Schema.ofDatum` then reads them field by field.
-/

namespace EdnLint

namespace Report

variable {a b : Report}

theorem andThen_eq_none_iff : a.andThen b = none ↔ a = none ∧ b = none := by
  rcases a with ⟨issues, _ | fault⟩
  · rcases b with ⟨issues', fault'⟩
    simp [andThen, none, and_assoc]
  · simp [andThen, none]

theorem all_eq_none_iff {rs : List Report} : all rs = none ↔ ∀ r ∈ rs, r = none := by
  induction rs with
  | nil => simp
  | cons r rs ih => simp [all_cons, andThen_eq_none_iff, ih]

theorem problem_ne_none (problem : Problem) (path : List Key) :
    Report.problem problem path ≠ none := by
  unfold Report.problem
  split <;> simp [none, stopped]

theorem when_eq_none_iff {condition : Bool} {problem : Problem} {path : List Key} :
    when condition problem path = none ↔ condition = false := by
  cases condition <;> simp [when, problem_ne_none]

end Report

open Vocabulary

namespace Shape

variable [Pattern.Engine] {path : List Key} {schema : List (Key × Datum)} {t : SchemaType}

theorem checkField_eq (name : Text) (path : List Key) (entries : List (Key × Datum)) :
    checkField name path entries = ((Datum.field? entries name).map (check path)).getD .none := by
  induction entries with
  | nil => rfl
  | cons e entries ih =>
      rcases e with ⟨k, d⟩
      simp only [checkField, Datum.field?, Key.lookup?_cons]
      split
      · rfl
      · exact ih

theorem checkKeys_eq (path : List Key) (entries : List (Key × Datum)) :
    checkKeys path entries = ((Datum.field? entries keys).map (checkTable path)).getD .none := by
  induction entries with
  | nil => rfl
  | cons e entries ih =>
      rcases e with ⟨k, d⟩
      simp only [checkKeys, Datum.field?, Key.lookup?_cons]
      split
      · rfl
      · exact ih

theorem checkRows_eq_none_iff {rows : List (Key × Datum)} :
    checkRows path rows = .none ↔
      ∀ e ∈ rows, (∃ name, e.1 = .keyword name) ∧ check (path ++ [e.1]) e.2 = .none := by
  induction rows with
  | nil => simp [checkRows]
  | cons e rows ih =>
      rcases e with ⟨k, d⟩
      rw [checkRows, Report.andThen_eq_none_iff, ih, List.forall_mem_cons, and_congr_left_iff]
      intro _
      rw [← Key.isSome_keyword?_iff]
      split
      · simp_all
      · simp_all [Report.problem_ne_none]

/-- What is known of a map that passes as a schema of a type. -/
structure Passes (path : List Key) (schema : List (Key × Datum)) (t : SchemaType) : Prop where
  type : SchemaType.ofDatum? (Datum.field schema type) = some t
  known : ∀ e ∈ schema, isAnnotation e.1 = true ∨
    ∃ name ∈ Vocabulary.type :: t.fields, e.1 = .keyword name
  row : ∀ rows, Datum.field schema keys = .map rows → ∀ e ∈ rows,
    (∃ name, e.1 = .keyword name) ∧ check (path ++ [.keyword keys] ++ [e.1]) e.2 = .none
  required : ∀ ks, Datum.field schema require = .set ks → ∀ k ∈ ks, ∃ name, k = .keyword name
  values : ∀ d, Datum.field? schema values = some d → check (path ++ [.keyword values]) d = .none
  every : ∀ d, Datum.field? schema every = some d → check (path ++ [.keyword every]) d = .none
  pattern : ∀ pattern, Datum.field schema regex = .atom (.string pattern) →
    ∃ isFound, Pattern.Engine.read pattern = .ok isFound

theorem passes_of_check (h : check path (.map schema) = .none) : ∃ t, Passes path schema t := by
  rw [check] at h
  split at h
  · exact absurd h (Report.problem_ne_none _ _)
  split at h
  · exact absurd h (Report.problem_ne_none _ _)
  rename_i t ht
  rw [Report.all_eq_none_iff] at h
  simp only [List.forall_mem_cons, List.not_mem_nil, false_implies, implies_true, and_true] at h
  obtain ⟨hknown, hkeys, hrequire, hvalues, hevery, hregex⟩ := h
  rw [checkField_eq] at hvalues hevery
  rw [checkKeys_eq] at hkeys
  refine ⟨t, ht, ?_, ?_, ?_, ?_, ?_, ?_⟩
  · intro e he
    rw [unknownFields, Report.all_eq_none_iff, List.forall_mem_map] at hknown
    have hentry := Report.when_eq_none_iff.mp (hknown e he)
    rw [Bool.not_eq_false', Bool.or_eq_true, Bool.or_eq_true, Key.same_keyword_iff] at hentry
    rcases hentry with (htype | hqualified) | hfield
    · exact Or.inr ⟨type, List.mem_cons_self, htype⟩
    · exact Or.inl hqualified
    · obtain ⟨l, hl, hsame⟩ := (Key.isIn_iff _ _).mp hfield
      obtain ⟨name, hname, rfl⟩ := List.mem_map.mp hl
      exact Or.inr ⟨name, List.mem_cons_of_mem _ hname, (Key.same_keyword_iff _ _).mp hsame⟩
  · intro rows hrows
    rw [Datum.field?_of_field hrows (by simp [Datum.nil])] at hkeys
    exact checkRows_eq_none_iff.mp hkeys
  · intro ks hks k hk
    rw [hks] at hrequire
    have hentry := Report.when_eq_none_iff.mp hrequire
    rw [List.any_eq_false] at hentry
    rw [← Key.isSome_keyword?_iff]
    simpa [Option.isSome_iff_ne_none] using hentry k hk
  · intro d hd
    rw [hd] at hvalues
    exact hvalues
  · intro d hd
    rw [hd] at hevery
    exact hevery
  · intro pattern hpattern
    rw [hpattern, regexField] at hregex
    split at hregex
    · exact ⟨_, by assumption⟩
    · exact absurd hregex (Report.problem_ne_none _ _)
    · cases hregex

theorem exists_map_of_check {d : Datum} (h : check path d = .none) : ∃ schema, d = .map schema := by
  cases d with
  | map schema => exact ⟨schema, rfl⟩
  | _ =>
      rw [check] at h
      · exact absurd h (Report.problem_ne_none _ _)
      · simp

/-- A field that the type does not take, and that is no annotation, is not there. -/
theorem Passes.field?_eq_none (h : Passes path schema t) {name : Text}
    (hqualified : isAnnotation (.keyword name) = false)
    (hfields : name ∉ Vocabulary.type :: t.fields) : Datum.field? schema name = none := by
  by_contra hne
  obtain ⟨d, hd⟩ := Option.ne_none_iff_exists'.mp hne
  rcases h.known _ (Key.mem_of_lookup?_keyword hd) with hknown | ⟨name', hmem, hname'⟩
  · rw [hqualified] at hknown
    cases hknown
  · cases hname'
    exact hfields hmem

end Shape

namespace Schema

theorem ofField_eq (name : Text) (entries : List (Key × Datum)) :
    ofField name entries = ((Datum.field? entries name).map ofDatum).getD .absent := by
  induction entries with
  | nil => rfl
  | cons e entries ih =>
      rcases e with ⟨k, d⟩
      simp only [ofField, Datum.field?, Key.lookup?_cons]
      split
      · rfl
      · exact ih

/-- The rows in the table of keys of a schema. -/
def rowsOf (schema : List (Key × Datum)) : List (Key × Datum) :=
  match Datum.field schema keys with
  | .map rows => rows
  | _ => []

theorem tableField_eq (schema : List (Key × Datum)) : tableField schema = rows (rowsOf schema) := by
  have htable : tableField schema = ((Datum.field? schema keys).map table).getD [] := by
    induction schema with
    | nil => rfl
    | cons e entries ih =>
        rcases e with ⟨k, d⟩
        simp only [tableField, Datum.field?, Key.lookup?_cons]
        split
        · rfl
        · exact ih
  rw [htable, rowsOf, Datum.field]
  cases Datum.field? schema keys with
  | none => rfl
  | some d => cases d <;> rfl

theorem lookup?_rows (k : Key) (entries : List (Key × Datum)) :
    Key.lookup? k (rows entries) = (Key.lookup? k entries).map ofDatum := by
  induction entries with
  | nil => rfl
  | cons e entries ih =>
      rcases e with ⟨l, d⟩
      simp only [rows, Key.lookup?_cons]
      split
      · rfl
      · exact ih

end Schema

end EdnLint
