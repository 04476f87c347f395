import EdnLint.Schema.Basic

/-!
# The limits in a schema

A limit keeps the atom it was written with beside the number that it is compared by. A
schema takes its limits from data that are numbers or truth values, so no other atom is
shown as a limit.
-/

namespace EdnLint

namespace Bound

/-- The limit is written as the number that it is. -/
def IsNumeric (b : Bound) : Prop := b.written.numeric? = some b.value

theorem IsNumeric.isSome {b : Bound} (h : b.IsNumeric) : b.written.numeric?.isSome = true := by
  rw [h]
  rfl

theorem isNumeric_of_ofDatum? {d : Datum} {b : Bound} (h : ofDatum? d = some b) :
    b.IsNumeric := by
  cases d with
  | atom a =>
      rcases Option.map_eq_some_iff.mp h with ⟨n, hn, rfl⟩
      exact hn
  | _ => cases h

theorem isNumeric_of_ofCount? {d : Datum} {b : Bound} (h : ofCount? d = some b) :
    b.IsNumeric :=
  isNumeric_of_ofDatum? (Option.filter_eq_some_iff.mp h).1

end Bound

namespace Schema

/-- The limits, as far as there are any, are numeric. -/
def AreNumeric (low high : Option Bound) : Prop :=
  (∀ b, low = some b → b.IsNumeric) ∧ ∀ b, high = some b → b.IsNumeric

mutual

/-- All limits in the schema are numeric. -/
def IsBounded : Schema → Prop
  | .integer low high | .number low high | .string low high _ => AreNumeric low high
  | .vector low high every | .set low high every => AreNumeric low high ∧ every.IsBounded
  | .map _ keys values _ => AreBounded keys ∧ values.IsBounded
  | .absent | .broken | .any | .boolean | .symbol | .keyword _ => True

/-- All limits in the schemas of a table are numeric. -/
def AreBounded : List (Key × Schema) → Prop
  | [] => True
  | (_, s) :: keys => s.IsBounded ∧ AreBounded keys

end

mutual

/-- A schema that is read from a datum has numeric limits only. -/
theorem ofDatum_isBounded : ∀ d : Datum, (ofDatum d).IsBounded
  | .map entries => by
      have hbound : ∀ low high, AreNumeric (Bound.ofDatum? low) (Bound.ofDatum? high) :=
        fun _ _ => ⟨fun _ => Bound.isNumeric_of_ofDatum?, fun _ => Bound.isNumeric_of_ofDatum?⟩
      have hcount : ∀ low high, AreNumeric (Bound.ofCount? low) (Bound.ofCount? high) :=
        fun _ _ => ⟨fun _ => Bound.isNumeric_of_ofCount?, fun _ => Bound.isNumeric_of_ofCount?⟩
      simp only [ofDatum]
      cases SchemaType.ofDatum? (Datum.field entries Vocabulary.type) with
      | none => trivial
      | some t =>
          cases t with
          | integer => exact hbound _ _
          | number => exact hbound _ _
          | string => exact hcount _ _
          | vector => exact ⟨hcount _ _, ofField_isBounded entries _⟩
          | set => exact ⟨hcount _ _, ofField_isBounded entries _⟩
          | map => exact ⟨tableField_areBounded entries, ofField_isBounded entries _⟩
          | _ => trivial
  | .atom _ | .vector _ | .set _ => trivial

theorem ofField_isBounded :
    ∀ (entries : List (Key × Datum)) (name : Text), (ofField name entries).IsBounded
  | [], _ => trivial
  | (k, d) :: entries, name => by
      simp only [ofField]
      split
      · exact ofDatum_isBounded d
      · exact ofField_isBounded entries name

theorem tableField_areBounded :
    ∀ entries : List (Key × Datum), AreBounded (tableField entries)
  | [] => trivial
  | (k, d) :: entries => by
      simp only [tableField]
      split
      · exact table_areBounded d
      · exact tableField_areBounded entries

theorem table_areBounded : ∀ d : Datum, AreBounded (table d)
  | .map entries => rows_areBounded entries
  | .atom _ | .vector _ | .set _ => trivial

theorem rows_areBounded : ∀ entries : List (Key × Datum), AreBounded (rows entries)
  | [] => trivial
  | (_, d) :: entries => ⟨ofDatum_isBounded d, rows_areBounded entries⟩

end

end Schema

end EdnLint
