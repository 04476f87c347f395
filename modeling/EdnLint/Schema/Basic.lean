import EdnLint.Schema.Problem
import EdnLint.Schema.Vocabulary

/-!
# Schemas

A schema as validation uses it: the type, and of its fields those that have a
usable value. Anything else about the datum it was read from is reported where
the schema is defined and has no part in validation. A datum that is no map is no
schema at all (`absent`); a map without a known type asks nothing (`broken`).
-/

namespace EdnLint

/-- A limit on a number or a count. A truth value counts as one or zero and is
shown as it is written. -/
structure Bound where
  written : Atom
  value : Number
  deriving DecidableEq, Repr

namespace Bound

/-- The limit a datum sets, if it is a number or a truth value. -/
def ofDatum? : Datum → Option Bound
  | .atom a => a.numeric?.map fun n => ⟨a, n⟩
  | _ => none

/-- The limit on a count, which is an integer or a truth value. -/
def ofCount? (d : Datum) : Option Bound :=
  (ofDatum? d).filter fun b =>
    match b.value with
    | .int _ => true
    | _ => false

/-- Whether a count is below the limit. -/
def above (b : Bound) (count : Nat) : Bool := (Number.int count).compare? b.value == some .lt

/-- Whether a count is beyond the limit. -/
def below (b : Bound) (count : Nat) : Bool := (Number.int count).compare? b.value == some .gt

end Bound

/-- What validation asks of a value. -/
inductive Schema where
  | absent
  | broken
  | any
  | boolean
  | symbol
  | integer (low high : Option Bound)
  | number (low high : Option Bound)
  | string (low high : Option Bound) (pattern : Option Text)
  | keyword (choices : Option Choices)
  | vector (low high : Option Bound) (every : Schema)
  | set (low high : Option Bound) (every : Schema)
  | map (required : List Key) (keys : List (Key × Schema)) (values : Schema) (closed : Bool)
  deriving Repr

namespace Schema

open Vocabulary

/-- Whether there is a schema. -/
def isPresent : Schema → Bool
  | .absent => false
  | _ => true

/-- The choices an enumeration lists. -/
def choices? : Datum → Option Choices
  | .vector items => some (.vector items)
  | .set items => some (.set items)
  | _ => none

/-- The keys a set requires. -/
def required : Datum → List Key
  | .set items => items
  | _ => []

/-- A map takes unknown keys if it says so, or if it has a schema for values. -/
def isClosed (entries : List (Key × Datum)) : Bool :=
  let isOpen := match Datum.field entries validationType with
    | .atom (.keyword name) => name == ("open" : Text)
    | _ => false
  !isOpen && (Datum.field entries values).isNil

mutual

/-- The schema that a datum writes. -/
def ofDatum : Datum → Schema
  | .map entries =>
      let bound (name : Text) := Bound.ofDatum? (Datum.field entries name)
      let count (name : Text) := Bound.ofCount? (Datum.field entries name)
      match SchemaType.ofDatum? (Datum.field entries type) with
      | none => .broken
      | some .any => .any
      | some .boolean => .boolean
      | some .symbol => .symbol
      | some .integer => .integer (bound min) (bound max)
      | some .number => .number (bound min) (bound max)
      | some .string => .string (count minLength) (count maxLength) (Datum.field entries regex).string?
      | some .keyword => .keyword (choices? (Datum.field entries enum))
      | some .vector => .vector (count minItems) (count maxItems) (ofField every entries)
      | some .set => .set (count minItems) (count maxItems) (ofField every entries)
      | some .map =>
          .map (required (Datum.field entries require)) (tableField entries)
            (ofField values entries) (isClosed entries)
  | _ => .absent

/-- The schema in a field. -/
def ofField (name : Text) : List (Key × Datum) → Schema
  | [] => .absent
  | (k, d) :: entries =>
      if (Key.keyword name).same k then ofDatum d else ofField name entries

/-- The table of keys among the entries. -/
def tableField : List (Key × Datum) → List (Key × Schema)
  | [] => []
  | (k, d) :: entries =>
      if (Key.keyword keys).same k then table d else tableField entries

/-- The table of keys that a datum writes. -/
def table : Datum → List (Key × Schema)
  | .map entries => rows entries
  | _ => []

/-- The rows of a table of keys. -/
def rows : List (Key × Datum) → List (Key × Schema)
  | [] => []
  | (k, d) :: entries => (k, ofDatum d) :: rows entries

end

end Schema

end EdnLint
