import EdnLint.Proofs.Datum.Display
import EdnLint.Schema.Shape

/-!
# What stops the check of a schema

A report is stopped by a problem that cannot be worded and by a pattern that the
reader of patterns gives up on. It is stopped as soon as one of its parts is
(`Report.isStopped_andThen_iff`), so `Shape.Stops` says where in a schema this
happens without the order in which the parts are checked.
-/

namespace EdnLint

namespace Report

/-- A fault kept the check from going on. -/
def IsStopped (r : Report) : Prop := r.fault ≠ .none

@[simp] theorem not_isStopped_none : ¬ none.IsStopped := fun h => h rfl

@[simp] theorem isStopped_stopped (fault : Fault) : (stopped fault).IsStopped :=
  Option.some_ne_none fault

@[simp] theorem isStopped_problem_iff (p : Problem) (path : List Key) :
    (problem p path).IsStopped ↔ p.IsTooLong := by
  rw [← p.fails_message_iff]
  unfold problem
  split
  · rename_i message h
    rw [h]
    exact iff_of_false (fun h => h rfl) (not_fails_ok message)
  · rename_i fault h
    rw [h]
    exact iff_of_true (isStopped_stopped fault) (fails_error fault)

@[simp] theorem isStopped_andThen_iff (a b : Report) :
    (a.andThen b).IsStopped ↔ a.IsStopped ∨ b.IsStopped := by
  unfold andThen IsStopped
  split
  · rename_i fault h
    simp [h]
  · rename_i h
    simp [h]

@[simp] theorem isStopped_all_iff (rs : List Report) :
    (all rs).IsStopped ↔ ∃ r ∈ rs, r.IsStopped := by
  induction rs with
  | nil => simp
  | cons r rs ih => simp [all_cons, ih]

theorem isStopped_all_map_iff {α : Type} (f : α → Report) (items : List α) :
    (all (items.map f)).IsStopped ↔ ∃ a ∈ items, (f a).IsStopped := by
  rw [isStopped_all_iff]
  constructor
  · rintro ⟨r, hr, h⟩
    rcases List.mem_map.mp hr with ⟨a, ha, rfl⟩
    exact ⟨a, ha, h⟩
  · rintro ⟨a, ha, h⟩
    exact ⟨f a, List.mem_map_of_mem ha, h⟩

@[simp] theorem isStopped_when_iff (condition : Bool) (p : Problem) (path : List Key) :
    (when condition p path).IsStopped ↔ condition = true ∧ p.IsTooLong := by
  cases condition <;> simp [when]

@[simp] theorem isStopped_under_iff (resource : Text) (r : Report) :
    (r.under resource).IsStopped ↔ r.IsStopped := Iff.rfl

end Report

namespace Shape

open Vocabulary

variable [Pattern.Engine]

/-- The check of a datum as a schema is stopped. -/
inductive Stops : Datum → Prop
  /-- The type is none, and too long to be quoted. -/
  | type {entries : List (Key × Datum)} :
      SchemaType.ofDatum? (Datum.field entries type) = none →
      (Datum.field entries type).IsTooLong → Stops (.map entries)
  /-- A key that the type does not take is too long to be quoted. -/
  | key {entries : List (Key × Datum)} {t : SchemaType} {k : Key} {d : Datum} :
      SchemaType.ofDatum? (Datum.field entries type) = some t → (k, d) ∈ entries →
      isAnnotation k = false → k.isIn ((type :: t.fields).map .keyword) = false → k.IsTooLong →
      Stops (.map entries)
  /-- A schema in the table of keys stops it. -/
  | row {entries rows : List (Key × Datum)} {t : SchemaType} {name : Text} {d : Datum} :
      SchemaType.ofDatum? (Datum.field entries type) = some t →
      Datum.field? entries keys = some (.map rows) → (Key.keyword name, d) ∈ rows → Stops d →
      Stops (.map entries)
  /-- The schema for values or the one for items stops it. -/
  | nested {entries : List (Key × Datum)} {t : SchemaType} {name : Text} {d : Datum} :
      SchemaType.ofDatum? (Datum.field entries type) = some t → name = values ∨ name = every →
      Datum.field? entries name = some d → Stops d → Stops (.map entries)
  /-- The pattern cannot be compiled. -/
  | pattern {entries : List (Key × Datum)} {t : SchemaType} {pattern : Text} {fault : Fault} :
      SchemaType.ofDatum? (Datum.field entries type) = some t →
      Datum.field? entries regex = some (.atom (.string pattern)) →
      Pattern.Engine.read pattern = .error (.fault fault) → Stops (.map entries)

section

variable {t : SchemaType} {path : List Key} {entries : List (Key × Datum)}

omit [Pattern.Engine] in
theorem isStopped_unknownFields_iff :
    (unknownFields t path entries).IsStopped ↔
      ∃ k d, (k, d) ∈ entries ∧ isAnnotation k = false ∧
        k.isIn ((type :: t.fields).map .keyword) = false ∧ k.IsTooLong := by
  have hknown : ∀ k : Key, (!(k.same (.keyword type) || isAnnotation k ||
      k.isIn (t.fields.map .keyword))) = true ↔
      isAnnotation k = false ∧ k.isIn ((type :: t.fields).map .keyword) = false := by
    intro k
    simp only [Key.isIn, List.map_cons, List.any_cons]
    grind
  simp only [unknownFields, Report.isStopped_all_map_iff, Report.isStopped_when_iff, hknown,
    Prod.exists, and_assoc]
  rfl

omit [Pattern.Engine] in
theorem not_isStopped_requireField (d : Datum) : ¬ (requireField path d).IsStopped := by
  unfold requireField
  split <;> simp [Problem.IsTooLong]

theorem isStopped_regexField_iff :
    (regexField path (Datum.field entries regex)).IsStopped ↔
      ∃ pattern fault, Datum.field? entries regex = some (.atom (.string pattern)) ∧
        Pattern.Engine.read pattern = .error (.fault fault) := by
  unfold Datum.field
  cases Datum.field? entries regex with
  | none => simp [regexField, Datum.nil]
  | some d =>
      unfold regexField
      split
      · rename_i pattern hd
        obtain rfl : d = .atom (.string pattern) := hd
        split
        all_goals
          rename_i hpattern
          simp [hpattern, Problem.IsTooLong]
      · rename_i hd
        simp_all

/-- A map whose type is none is stopped by the type alone. -/
theorem stops_map_of_untyped (ht : SchemaType.ofDatum? (Datum.field entries type) = none) :
    Stops (.map entries) ↔ (Datum.field entries type).IsTooLong := by
  constructor
  · intro h
    cases h with
    | type _ h => exact h
    | key ht' => simp [ht] at ht'
    | row ht' => simp [ht] at ht'
    | nested ht' => simp [ht] at ht'
    | pattern ht' => simp [ht] at ht'
  · exact .type ht

theorem stops_map_of_typed (ht : SchemaType.ofDatum? (Datum.field entries type) = some t) :
    Stops (.map entries) ↔
      (∃ k d, (k, d) ∈ entries ∧ isAnnotation k = false ∧
        k.isIn ((type :: t.fields).map .keyword) = false ∧ k.IsTooLong) ∨
      (∃ rows name d, Datum.field? entries keys = some (.map rows) ∧
        (Key.keyword name, d) ∈ rows ∧ Stops d) ∨
      (∃ d, Datum.field? entries values = some d ∧ Stops d) ∨
      (∃ d, Datum.field? entries every = some d ∧ Stops d) ∨
      ∃ pattern fault, Datum.field? entries regex = some (.atom (.string pattern)) ∧
        Pattern.Engine.read pattern = .error (.fault fault) := by
  constructor
  · intro h
    cases h with
    | type ht' => simp [ht] at ht'
    | key ht' hentry hqualified hknown hlong =>
        obtain rfl := Option.some.inj (ht.symm.trans ht')
        exact Or.inl ⟨_, _, hentry, hqualified, hknown, hlong⟩
    | row _ hkeys hrow h => exact Or.inr (Or.inl ⟨_, _, _, hkeys, hrow, h⟩)
    | nested _ hname hfield h =>
        rcases hname with rfl | rfl
        · exact Or.inr (Or.inr (Or.inl ⟨_, hfield, h⟩))
        · exact Or.inr (Or.inr (Or.inr (Or.inl ⟨_, hfield, h⟩)))
    | pattern _ hregex h => exact Or.inr (Or.inr (Or.inr (Or.inr ⟨_, _, hregex, h⟩)))
  · rintro (⟨k, d, hentry, hqualified, hknown, hlong⟩ | ⟨rows, name, d, hkeys, hrow, h⟩ |
      ⟨d, hfield, h⟩ | ⟨d, hfield, h⟩ | ⟨pattern, fault, hregex, h⟩)
    · exact .key ht hentry hqualified hknown hlong
    · exact .row ht hkeys hrow h
    · exact .nested ht (Or.inl rfl) hfield h
    · exact .nested ht (Or.inr rfl) hfield h
    · exact .pattern ht hregex h

end

mutual

/-- The check of a schema is stopped exactly by what `Stops` lists. -/
theorem isStopped_check_iff : ∀ (d : Datum) (path : List Key), (check path d).IsStopped ↔ Stops d
  | .map entries, path => by
      simp only [check]
      cases ht : SchemaType.ofDatum? (Datum.field entries type) with
      | none =>
          rw [stops_map_of_untyped ht]
          split
          · rename_i hnil
            have hfield : Datum.field entries type = .atom .nil := by
              cases hd : Datum.field entries type with
              | atom a => cases a <;> simp_all [Datum.isNil]
              | _ => simp_all [Datum.isNil]
            rw [hfield]
            apply iff_of_false
            · simp [Problem.IsTooLong]
            · rintro ⟨⟨⟩⟩
          · simp [Problem.IsTooLong]
      | some t =>
          have hnil : (Datum.field entries type).isNil = false := by
            cases hd : Datum.field entries type with
            | atom a => cases a <;> simp_all [SchemaType.ofDatum?, Datum.symbol?, Datum.isNil]
            | _ => simp_all [Datum.isNil]
          rw [stops_map_of_typed ht]
          simp [hnil, isStopped_unknownFields_iff, isStopped_checkKeys_iff entries,
            not_isStopped_requireField, isStopped_checkField_iff entries,
            isStopped_regexField_iff]
  | .atom a, path => by
      apply iff_of_false
      · simp [check, Problem.IsTooLong]
      · rintro ⟨⟩
  | .vector items, path => by
      apply iff_of_false
      · simp [check, Problem.IsTooLong]
      · rintro ⟨⟩
  | .set items, path => by
      apply iff_of_false
      · simp [check, Problem.IsTooLong]
      · rintro ⟨⟩

theorem isStopped_checkField_iff :
    ∀ (entries : List (Key × Datum)) (name : Text) (path : List Key),
      (checkField name path entries).IsStopped ↔
        ∃ d, Datum.field? entries name = some d ∧ Stops d
  | [], name, path => by simp [checkField, Datum.field?]
  | (k, d) :: entries, name, path => by
      simp only [checkField, Datum.field?, Key.lookup?_cons]
      split
      · simp [isStopped_check_iff d path]
      · exact isStopped_checkField_iff entries name path

theorem isStopped_checkKeys_iff :
    ∀ (entries : List (Key × Datum)) (path : List Key),
      (checkKeys path entries).IsStopped ↔
        ∃ rows name d, Datum.field? entries keys = some (.map rows) ∧
          (Key.keyword name, d) ∈ rows ∧ Stops d
  | [], path => by simp [checkKeys, Datum.field?]
  | (k, d) :: entries, path => by
      simp only [checkKeys, Datum.field?, Key.lookup?_cons]
      split
      · simp [isStopped_checkTable_iff d path]
      · exact isStopped_checkKeys_iff entries path

theorem isStopped_checkTable_iff :
    ∀ (d : Datum) (path : List Key), (checkTable path d).IsStopped ↔
      ∃ rows name d', d = .map rows ∧ (Key.keyword name, d') ∈ rows ∧ Stops d'
  | .map rows, path => by simp [checkTable, isStopped_checkRows_iff rows path]
  | .atom a, path => by cases a <;> simp [checkTable, Problem.IsTooLong]
  | .vector items, path => by simp [checkTable, Problem.IsTooLong]
  | .set items, path => by simp [checkTable, Problem.IsTooLong]

theorem isStopped_checkRows_iff :
    ∀ (rows : List (Key × Datum)) (path : List Key), (checkRows path rows).IsStopped ↔
      ∃ name d, (Key.keyword name, d) ∈ rows ∧ Stops d
  | [], path => by simp [checkRows]
  | (k, d) :: rows, path => by
      have hrow : (if k.keyword?.isSome then check (path ++ [k]) d
          else .problem (.keyNotKeyword k.typeName) (path ++ [k])).IsStopped ↔
            (∃ name, k = .keyword name) ∧ Stops d := by
        have hkeyword : k.keyword?.isSome = true ↔ ∃ name, k = .keyword name := by
          unfold Key.keyword?
          split <;> simp_all [Key.keyword]
        split
        · rename_i h
          rw [isStopped_check_iff d, and_iff_right (hkeyword.mp h)]
        · rename_i h
          rw [hkeyword] at h
          simp [h, Problem.IsTooLong]
      simp only [checkRows, Report.isStopped_andThen_iff, isStopped_checkRows_iff rows path, hrow]
      constructor
      · rintro (⟨⟨name, rfl⟩, hd⟩ | ⟨name, d', hmem, hd'⟩)
        · exact ⟨name, d, List.mem_cons_self, hd⟩
        · exact ⟨name, d', List.mem_cons_of_mem _ hmem, hd'⟩
      · rintro ⟨name, d', hmem, hd'⟩
        rcases List.mem_cons.mp hmem with heq | hmem
        · cases heq
          exact Or.inl ⟨⟨name, rfl⟩, hd'⟩
        · exact Or.inr ⟨name, d', hmem, hd'⟩

end

end Shape

end EdnLint
